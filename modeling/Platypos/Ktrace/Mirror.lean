import Platypos.Ktrace.Formatter
import Platypos.Ktrace.SpanIds

namespace Platypos.Ktrace

open Outcome Exec

open PlatyposSlab (Idx Book)

section Announcements

variable {S E A : Type}

/-- The id of the span whose opening the message reports. -/
def Message.opens : Message S E A → Option UInt64
  | .spanCreated span => some span.id
  | _ => none

/-- The id of the span whose end the message reports. -/
def Message.ends : Message S E A → Option UInt64
  | .spanClosed id => some id
  | _ => none

theorem Message.opens_received {m : SenderMessage} {r : ReceiverMessage} (arrived : m.received = some r) :
    r.opens = m.opens ∧ r.ends = m.ends := by
  cases m with
  | spanCreated span =>
    obtain ⟨fields, _, same⟩ := Option.bind_eq_some_iff.mp arrived
    cases same
    exact ⟨rfl, rfl⟩
  | event e =>
    obtain ⟨fields, _, same⟩ := Option.bind_eq_some_iff.mp arrived
    cases same
    exact ⟨rfl, rfl⟩
  | spanEntered id processor | spanExited id processor | spanClosed id =>
    cases arrived
    exact ⟨rfl, rfl⟩

theorem filterMap_received {β : Type} {sent : SenderMessage → Option β} {seen : ReceiverMessage → Option β}
    (same : ∀ {m r}, m.received = some r → seen r = sent m) {ms : List SenderMessage} {rs : List ReceiverMessage}
    (arrived : ms.mapM Message.received = some rs) : rs.filterMap seen = ms.filterMap sent := by
  induction ms generalizing rs with
  | nil =>
    cases arrived
    rfl
  | cons m ms ih =>
    rw [List.mapM_cons] at arrived
    obtain ⟨r, first, arrived⟩ := Option.bind_eq_some_iff.mp arrived
    obtain ⟨rest, more, whole⟩ := Option.bind_eq_some_iff.mp arrived
    cases whole
    rw [List.filterMap_cons, List.filterMap_cons, same first, ih more]

namespace Formatter

theorem receive_spans {f f' : Formatter S} {m : Message S E A} {line : Option (Line S E A)}
    (shown : f.receive m = .ok (line, f')) (kept : m.ends = none) (id : UInt64) :
    (f'.spans id).isSome ↔ (f.spans id).isSome ∨ m.opens = some id := by
  cases m with
  | spanCreated span =>
    cases shown
    by_cases same : id = span.id
    · simp [Message.opens, same]
    · simp [Message.opens, Function.update_of_ne same, Ne.symm same]
  | event e | spanEntered id' processor =>
    cases shown
    simp [Message.opens]
  | spanClosed id' => cases kept
  | spanExited id' processor =>
    simp only [receive] at shown
    split at shown <;> cases shown
    simp [Message.opens]

/-- Without ends the spans only grow. -/
theorem exec_spans {f f' : Formatter S} {ms : List (Message S E A)} {lines : List (Option (Line S E A))}
    (shown : exec receive f ms = .ok (lines, f')) (kept : ms.filterMap Message.ends = []) (id : UInt64) :
    (f'.spans id).isSome ↔ (f.spans id).isSome ∨ id ∈ ms.filterMap Message.opens := by
  induction ms generalizing f lines with
  | nil =>
    cases shown
    simp
  | cons m ms ih =>
    obtain ⟨line, mid, lines', first, rest, rfl⟩ := exec_cons_ok shown
    rw [List.filterMap_eq_nil_iff, List.forall_mem_cons] at kept
    rw [ih rest (List.filterMap_eq_nil_iff.mpr kept.2), receive_spans first kept.1, or_assoc]
    cases opens : m.opens with
    | none => simp [List.filterMap_cons_none opens]
    | some opened => rw [List.filterMap_cons_some opens, List.mem_cons, Option.some_inj, eq_comm (a := opened)]

end Formatter

end Announcements

/-- What a call reports if there is room, where `id` is that of a span it makes. -/
def Call.message {P : Type} (id : UInt64) : Call P → Option SenderMessage
  | .newSpan _ span => some (.spanCreated ⟨id, span.parent.toProto, span.metadata, span.values⟩)
  | .enter _ id => some (.spanEntered id processorId)
  | .exit _ id => some (.spanExited id processorId)
  | .event _ e => some (.event ⟨e.parent.toProto, e.metadata, e.values⟩)
  | _ => none

namespace KTrace

variable {P : Type} {s : KTrace P} {b b' : Book (Metadata Str)} {reply : Reply} {call : Call P}

/-- The step is not a `try_close` that gives up the last handle. -/
def Keeps (s : KTrace P) : Call P → Prop
  | .tryClose _ id => ¬ s.Closes id
  | _ => True

instance (s : KTrace P) (call : Call P) : Decidable (s.Keeps call) := by
  unfold KTrace.Keeps
  split <;> infer_instance

theorem Effect.removed_iff (effect : Effect s b b' reply call) : b'.removed = [] ↔ b.removed = [] ∧ s.Keeps call := by
  cases call with
  | newSpan p span =>
    obtain ⟨idx, _, _, removed, _⟩ := effect
    simp [KTrace.Keeps, removed]
  | tryClose p id =>
    obtain ⟨_, ⟨closes, removed, _⟩ | ⟨stays, removed, _⟩⟩ := effect
    · simp [KTrace.Keeps, removed, closes]
    · simp [KTrace.Keeps, removed, stays]
  | cloneSpan p id | enter p id | exit p id | event p event | work =>
    obtain ⟨_, removed, _⟩ := effect
    simp [KTrace.Keeps, removed]

theorem Effect.sends (effect : Effect s b b' reply call) :
    ∃ id, stream [reply] = (if s.HasRoom then (call.message id).toList else []) ∧
      created [reply] = ((call.message id).bind Message.opens).toList := by
  cases call with
  | newSpan p span =>
    obtain ⟨idx, _, _, _, rfl⟩ := effect
    refine ⟨idx.toU64, ?_, rfl⟩
    by_cases room : s.HasRoom <;> simp [stream, room, Call.message]
  | tryClose p id =>
    obtain ⟨_, ⟨_, _, rfl⟩ | ⟨_, _, rfl⟩⟩ := effect
    · exact ⟨0, (ite_self _).symm, rfl⟩
    · exact ⟨0, (ite_self _).symm, rfl⟩
  | cloneSpan p id | work =>
    obtain ⟨_, _, rfl⟩ := effect
    exact ⟨0, (ite_self _).symm, rfl⟩
  | enter p id | exit p id | event p event =>
    obtain ⟨_, _, rfl⟩ := effect
    refine ⟨0, ?_, rfl⟩
    by_cases room : s.HasRoom <;> simp [stream, room, Call.message]

theorem Effect.opens (effect : Effect s b b' reply call) (room : s.HasRoom) :
    (stream [reply]).filterMap Message.opens = created [reply] := by
  obtain ⟨id, sent, made⟩ := effect.sends
  rw [sent, made, if_pos room]
  cases call <;> rfl

/-- No call reports the end of a span. -/
theorem Effect.ends (effect : Effect s b b' reply call) : (stream [reply]).filterMap Message.ends = [] := by
  obtain ⟨id, sent, _⟩ := effect.sends
  rw [sent]
  split
  · cases call <;> rfl
  · rfl

theorem stream_cons (reply : Reply) (replies : List Reply) : stream (reply :: replies) = stream [reply] ++ stream replies :=
  List.filterMap_append (l := [reply])

theorem created_cons (reply : Reply) (replies : List Reply) :
    created (reply :: replies) = created [reply] ++ created replies :=
  created_append [reply] replies

section Runs

variable [DecidableEq P] (debug : Bool)

theorem run_mirrors {s s' : KTrace P} {b : Book (Metadata Str)} {calls : List (Call P)} {before replies : List Reply}
    (tracks : s.Tracks b) (issued : Issued before b) (ran : exec (KTrace.step debug) s calls = .ok (replies, s')) :
    ∃ b', s'.Tracks b' ∧ Issued (before ++ replies) b' ∧ (stream replies).filterMap Message.ends = [] ∧
      (b'.removed = [] ↔ b.removed = [] ∧ Meets (KTrace.step debug) KTrace.Keeps s calls) ∧
      (Meets (KTrace.step debug) (fun s _ => s.HasRoom) s calls →
        (stream replies).filterMap Message.opens = created replies) := by
  induction calls generalizing s b before replies with
  | nil =>
    cases ran
    exact ⟨b, tracks, by rwa [List.append_nil], rfl, by simp [Meets], fun _ => rfl⟩
  | cons call calls ih =>
    obtain ⟨reply, mid, replies', first, rest, rfl⟩ := exec_cons_ok ran
    obtain ⟨b₁, tracks₁, effect⟩ := (step_tracks debug tracks call).of_ok first
    obtain ⟨b', kept, issued', ends, removed, opens⟩ := ih tracks₁ (issued.snoc effect) rest
    refine ⟨b', kept, ?_, ?_, ?_, ?_⟩
    · rwa [List.append_assoc] at issued'
    · rw [stream_cons, List.filterMap_append, effect.ends, ends, List.nil_append]
    · rw [removed, effect.removed_iff, meets_cons_of_ok first, and_assoc]
    · rw [meets_cons_of_ok first]
      rintro ⟨room, rooms⟩
      rw [stream_cons, List.filterMap_append, effect.opens room, opens rooms, ← created_cons]

/-- The host's spans are the open ones exactly as long as no `try_close` gives up the last handle of a span. -/
theorem formatter_mirrors_spans_iff {s₀ s : KTrace P} {calls : List (Call P)} {replies : List Reply}
    {messages : List ReceiverMessage} {lines : List (Option (Formatter.Line String (List (String × Value)) (List (String × Value))))}
    {f : Formatter String} (constructed : KTrace.new = .ok s₀)
    (ran : exec (KTrace.step debug) s₀ calls = .ok (replies, s))
    (room : Meets (KTrace.step debug) (fun s _ => s.HasRoom) s₀ calls)
    (arrived : (stream replies).mapM Message.received = some messages)
    (shown : exec Formatter.receive Formatter.new messages = .ok (lines, f)) :
    (∀ id, (f.spans id).isSome ↔ s.IsOpen id) ↔ Meets (KTrace.step debug) KTrace.Keeps s₀ calls := by
  obtain ⟨b, tracks, issued, ends, removed, opens⟩ := run_mirrors debug (new_tracks constructed) issued_empty ran
  have opened := filterMap_received (fun one => (Message.opens_received one).1) arrived
  have ended := filterMap_received (fun one => (Message.opens_received one).2) arrived
  have spans : ∀ id, (f.spans id).isSome ↔ Idx.ofU64 id ∈ b.issued.map Prod.fst := by
    intro id
    rw [Formatter.exec_spans shown (ended.trans ends), opened, opens room, ← List.nil_append replies, issued.ids]
    simp only [Formatter.new, Option.isSome_none, Bool.false_eq_true, false_or, List.mem_reverse, List.mem_map]
    constructor
    · rintro ⟨e, member, rfl⟩
      exact ⟨e, member, (Idx.ofU64_toU64 e.1).symm⟩
    · rintro ⟨e, member, same⟩
      exact ⟨e, member, by rw [same, Idx.toU64_ofU64]⟩
  have none : b.removed = [] ↔ Meets (KTrace.step debug) KTrace.Keeps s₀ calls := by
    rw [removed]
    exact and_iff_right rfl
  rw [← none]
  simp only [spans, tracks.isOpen_iff, Book.Live]
  constructor
  · intro same
    apply List.eq_nil_iff_forall_not_mem.mpr
    intro idx gone
    have listed := tracks.faithful.removed idx gone
    rw [← Idx.ofU64_toU64 idx] at listed
    have live := (same idx.toU64).mp listed
    rw [Idx.ofU64_toU64] at live
    exact live.2 gone
  · intro empty id
    simp [empty]

/-- One of two handles is given up, and the span is open on both sides. -/
theorem formatter_mirrors_spans_cloned :
    ∃ (s₀ s : KTrace Bool) (replies : List Reply) (messages : List ReceiverMessage)
      (lines : List (Option (Formatter.Line String (List (String × Value)) (List (String × Value)))))
      (f : Formatter String), KTrace.new = .ok s₀ ∧
      exec (KTrace.step true) s₀ [.newSpan false boot, .cloneSpan true 1, .enter true 1, .tryClose false 1] =
        .ok (replies, s) ∧ (stream replies).mapM Message.received = some messages ∧
      exec Formatter.receive Formatter.new messages = .ok (lines, f) ∧ ∀ id, (f.spans id).isSome ↔ s.IsOpen id := by
  have both : ∃ (s₀ s : KTrace Bool) (replies : List Reply) (messages : List ReceiverMessage)
      (lines : List (Option (Formatter.Line String (List (String × Value)) (List (String × Value)))))
      (f : Formatter String), KTrace.new = .ok s₀ ∧
      exec (KTrace.step true) s₀ [.newSpan false boot, .cloneSpan true 1, .enter true 1, .tryClose false 1] =
        .ok (replies, s) ∧ (stream replies).mapM Message.received = some messages ∧
      exec Formatter.receive Formatter.new messages = .ok (lines, f) ∧
      Meets (KTrace.step true) (fun s _ => s.HasRoom) s₀
        [.newSpan false boot, .cloneSpan true 1, .enter true 1, .tryClose false 1] ∧
      Meets (KTrace.step true) KTrace.Keeps s₀
        [.newSpan false boot, .cloneSpan true 1, .enter true 1, .tryClose false 1] :=
    ⟨_, _, _, _, _, _, rfl, rfl, rfl, rfl, by decide, by decide⟩
  obtain ⟨s₀, s, replies, messages, lines, f, constructed, ran, arrived, shown, room, keeps⟩ := both
  exact ⟨s₀, s, replies, messages, lines, f, constructed, ran, arrived, shown,
    (formatter_mirrors_spans_iff true constructed ran room arrived shown).mpr keeps⟩

/-- The only handle is given up: the host still has the span. -/
theorem closed_span_stays_in_formatter :
    ∃ (s₀ s : KTrace Bool) (replies : List Reply) (messages : List ReceiverMessage)
      (lines : List (Option (Formatter.Line String (List (String × Value)) (List (String × Value)))))
      (f : Formatter String), KTrace.new = .ok s₀ ∧
      exec (KTrace.step true) s₀ [.newSpan false boot, .tryClose false 1] = .ok (replies, s) ∧
      Meets (KTrace.step true) (fun s _ => s.HasRoom) s₀ [.newSpan false boot, .tryClose false 1] ∧
      replies.map Reply.answer = [.created ⟨1, 0, by decide, by decide⟩ 1, .closed true] ∧
      (stream replies).mapM Message.received = some messages ∧
      exec Formatter.receive Formatter.new messages = .ok (lines, f) ∧ (f.spans 1).isSome ∧ ¬ s.IsOpen 1 :=
  ⟨_, _, _, _, _, _, rfl, rfl, by decide, rfl, rfl, rfl, rfl, by decide⟩

end Runs

end KTrace

end Platypos.Ktrace
