import Mathlib.Data.UInt
import Platypos.Ktrace.Subscriber

namespace PlatyposSlab

open Outcome

variable {V P : Type} [DecidableEq P] (debug : Bool) (c : Client V P)

/-- Generations start at one. -/
theorem insert_generation (p : P) (value : V) :
    Ensures (c.step debug (.insert p value))
      (fun r => r.2.refs = c.refs ∧ ∀ idx, r.1.answer = .inserted idx → 0 < idx.generation) fun _ => True := by
  simp only [Client.step, Slab.insert, bind_assoc]
  cases c.slab.pop p with
  | error reason => trivial
  | ok r =>
    obtain ⟨popped, s⟩ := r
    cases popped with
    | none => exact ⟨rfl, by simp⟩
    | some i =>
      simp only [Slab.allocate, Bind.bind, Except.bind]
      cases tried : (s.lifecycle i).allocate debug with
      | error reason => trivial
      | ok l =>
        have generation := (Lifecycle.allocate_ok tried).1
        by_cases fits : i < 2^18
        · simp only [dif_pos fits]
          refine ⟨rfl, ?_⟩
          intro idx answer
          cases answer
          simp only [generation]
          omega
        · simp only [dif_neg fits]
          trivial

theorem get_refs (p : P) (idx : Idx) :
    Ensures (c.step debug (.get p idx))
      (fun r => (r.1.answer = .got true → r.2.refs = idx :: c.refs) ∧ (r.1.answer = .got false → r.2.refs = c.refs))
      fun _ => True := by
  simp only [Client.step]
  cases c.slab.get idx with
  | error reason => trivial
  | ok r =>
    obtain ⟨found, slab⟩ := r
    cases found
    · exact ⟨by simp, fun _ => rfl⟩
    · exact ⟨fun _ => rfl, by simp⟩

theorem drop_refs (p : P) {idx : Idx} {refs : List Idx} (held : c.refs = idx :: refs) :
    Ensures (c.step debug (.drop p 0)) (fun r => r.2.refs = refs) fun _ => True := by
  simp only [Client.step, held, List.getElem?_cons_zero]
  cases c.slab.dropReference debug p idx <;> trivial

theorem remove_refs (p : P) (idx : Idx) :
    Ensures (c.step debug (.remove p idx)) (fun r => r.2.refs = c.refs) fun _ => True := by
  simp only [Client.step]
  cases c.slab.remove debug p idx <;> trivial

end PlatyposSlab

namespace Platypos.Ktrace

open Outcome Exec

open PlatyposSlab (Idx Client Book Faithful step_ensures)

variable {P : Type}

namespace KTrace

/-- Between calls nobody holds a reference, and the slab stands for the book. -/
structure Tracks (s : KTrace P) (b : Book (Metadata Str)) : Prop where
  faithful : Faithful s.spans b
  idle : s.spans.refs = []

theorem Tracks.isOpen_iff {s : KTrace P} {b : Book (Metadata Str)} (tracks : s.Tracks b) {id : UInt64} :
    s.IsOpen id ↔ b.Live (Idx.ofU64 id) :=
  (tracks.faithful.live_iff (Idx.ofU64 id)).symm

theorem push_tracks (s : KTrace P) (msg : SenderMessage) :
    Ensures (s.push msg)
      (fun r => r.1 = (if s.HasRoom then some msg else none) ∧ r.2.spans = s.spans ∧ r.2.references = s.references)
      (· ≠ .zeroId) := by
  unfold KTrace.push Pipeline.send
  cases claimed : s.pipeline.queue.claim with
  | none =>
    have full : ¬ s.HasRoom := by simp [KTrace.HasRoom, claimed]
    rw [if_neg full]
    exact ⟨rfl, rfl, rfl⟩
  | some claim =>
    obtain ⟨slot, popped⟩ := claim
    have room : s.HasRoom := by simp [KTrace.HasRoom, claimed]
    rw [if_pos room]
    dsimp only
    cases slot.writeMessage msg with
    | error reason => exact nofun
    | ok slot' => exact ⟨rfl, rfl, rfl⟩

theorem report_tracks {s : KTrace P} {b : Book (Metadata Str)} (tracks : s.Tracks b) (msg : SenderMessage) :
    Ensures (s.report msg)
      (fun r => ∃ b', r.2.Tracks b' ∧ b'.issued = b.issued ∧ b'.removed = b.removed ∧
        r.1 = ⟨.done, if s.HasRoom then some msg else none⟩)
      (· ≠ .zeroId) := by
  apply (push_tracks s msg).bind
  intro r spec
  obtain ⟨queued, spans, _⟩ := spec
  exact ⟨b, ⟨spans ▸ tracks.faithful, spans ▸ tracks.idle⟩, rfl, rfl, congrArg (Reply.mk .done) queued⟩

/-- What a call that returns does to the book, and what it queues. -/
def Effect (s : KTrace P) (b b' : Book (Metadata Str)) (reply : Reply) : Call P → Prop
  | .newSpan _ span => ∃ idx, 0 < idx.generation ∧ b'.issued = (idx, span.metadata) :: b.issued ∧
      b'.removed = b.removed ∧ reply = ⟨.created idx idx.toU64, if s.HasRoom then
        some (.spanCreated ⟨idx.toU64, span.parent.toProto, span.metadata, span.values⟩) else none⟩
  | .cloneSpan _ id => b'.issued = b.issued ∧ b'.removed = b.removed ∧ reply = ⟨.cloned id, none⟩
  | .tryClose _ id => b'.issued = b.issued ∧
      (s.Closes id ∧ b'.removed = Idx.ofU64 id :: b.removed ∧ reply = ⟨.closed true, none⟩ ∨
        ¬ s.Closes id ∧ b'.removed = b.removed ∧ reply = ⟨.closed false, none⟩)
  | .enter _ id => b'.issued = b.issued ∧ b'.removed = b.removed ∧
      reply = ⟨.done, if s.HasRoom then some (.spanEntered id processorId) else none⟩
  | .exit _ id => b'.issued = b.issued ∧ b'.removed = b.removed ∧
      reply = ⟨.done, if s.HasRoom then some (.spanExited id processorId) else none⟩
  | .event _ event => b'.issued = b.issued ∧ b'.removed = b.removed ∧ reply = ⟨.done, if s.HasRoom then
      some (.event ⟨event.parent.toProto, event.metadata, event.values⟩) else none⟩
  | .work => b'.issued = b.issued ∧ b'.removed = b.removed ∧ reply = ⟨.done, none⟩

section Steps

variable [DecidableEq P] (debug : Bool) {s : KTrace P} {b : Book (Metadata Str)}

theorem insert_tracks (tracks : s.Tracks b) (p : P) (metadata : Metadata Str) :
    Ensures (s.insert debug p metadata)
      (fun r => ∀ idx, r.1 = some idx → 0 < idx.generation ∧ r.2.references = Function.update s.references idx.index 1 ∧
        r.2.pipeline = s.pipeline ∧
        ∃ b', r.2.Tracks b' ∧ b'.issued = (idx, metadata) :: b.issued ∧ b'.removed = b.removed)
      (· ≠ .zeroId) := by
  unfold KTrace.insert
  apply (((step_ensures debug tracks.faithful (.insert p metadata)).and
    (PlatyposSlab.insert_generation debug s.spans p metadata)).mapError fun _ _ => nofun).bind
  intro r spec
  obtain ⟨⟨faithful, answers⟩, refs, positive⟩ := spec
  obtain ⟨⟨answer, drops⟩, spans⟩ := r
  rcases answers with ⟨idx, rfl, _⟩ | rfl
  · intro idx' same
    cases same
    exact ⟨positive idx rfl, rfl, rfl, _, ⟨faithful, refs.trans tracks.idle⟩, rfl, rfl⟩
  · exact fun _ same => nomatch same

theorem get_tracks (tracks : s.Tracks b) (p : P) (idx : Idx) :
    Ensures (s.get debug p idx)
      (fun r => r.1 = decide (b.Live idx) ∧ r.2.references = s.references ∧ r.2.pipeline = s.pipeline ∧
        ∃ b', Faithful r.2.spans b' ∧ r.2.spans.refs = (if b.Live idx then [idx] else []) ∧ b'.issued = b.issued ∧
          b'.removed = b.removed)
      (· ≠ .zeroId) := by
  unfold KTrace.get
  apply (((step_ensures debug tracks.faithful (.get p idx)).and
    (PlatyposSlab.get_refs debug s.spans p idx)).mapError fun _ _ => nofun).bind
  intro r spec
  obtain ⟨⟨faithful, answers⟩, taken, missed⟩ := spec
  obtain ⟨⟨answer, drops⟩, spans⟩ := r
  subst answers
  refine ⟨rfl, rfl, rfl, _, faithful, ?_, rfl, rfl⟩
  by_cases live : b.Live idx
  · simpa [live, tracks.idle] using taken (by simp [live])
  · simpa [live, tracks.idle] using missed (by simp [live])

theorem dropState_tracks (faithful : Faithful s.spans b) (p : P) {idx : Idx} (held : s.spans.refs = [idx]) :
    Ensures (s.dropState debug p)
      (fun s' => s'.references = s.references ∧ s'.pipeline = s.pipeline ∧
        ∃ b', s'.Tracks b' ∧ b'.issued = b.issued ∧ b'.removed = b.removed)
      (· ≠ .zeroId) := by
  unfold KTrace.dropState
  apply (((step_ensures debug faithful (.drop p 0)).and
    (PlatyposSlab.drop_refs debug s.spans p held)).mapError fun _ _ => nofun).bind
  intro r spec
  obtain ⟨⟨faithful', answers⟩, refs⟩ := spec
  obtain ⟨⟨answer, drops⟩, spans⟩ := r
  subst answers
  exact ⟨rfl, rfl, _, ⟨faithful', refs⟩, rfl, rfl⟩

theorem remove_tracks (tracks : s.Tracks b) (p : P) {idx : Idx} (live : b.Live idx) :
    Ensures (s.remove debug p idx)
      (fun s' => s'.references = s.references ∧ s'.pipeline = s.pipeline ∧
        ∃ b', s'.Tracks b' ∧ b'.issued = b.issued ∧ b'.removed = idx :: b.removed)
      (· ≠ .zeroId) := by
  unfold KTrace.remove
  apply (((step_ensures debug tracks.faithful (.remove p idx)).and
    (PlatyposSlab.remove_refs debug s.spans p idx)).mapError fun _ _ => nofun).bind
  intro r spec
  obtain ⟨⟨faithful, answers⟩, refs⟩ := spec
  obtain ⟨⟨answer, drops⟩, spans⟩ := r
  subst answers
  refine ⟨rfl, rfl, _, ⟨faithful, refs.trans tracks.idle⟩, rfl, ?_⟩
  simp [Book.record, live]

theorem cloneSpan_tracks (tracks : s.Tracks b) (p : P) (id : UInt64) :
    Ensures (s.cloneSpan debug p id)
      (fun r => ∃ b', r.2.Tracks b' ∧ b'.issued = b.issued ∧ b'.removed = b.removed ∧ r.1 = id) (· ≠ .zeroId) := by
  unfold KTrace.cloneSpan
  apply (get_tracks debug tracks p (Idx.ofU64 id)).bind
  intro r spec
  obtain ⟨found, s'⟩ := r
  obtain ⟨found', references, pipeline, b', faithful, refs, issued, removed⟩ := spec
  by_cases live : b.Live (Idx.ofU64 id)
  · simp only [live, decide_true] at found'
    rw [if_pos live] at refs
    subst found'
    refine (dropState_tracks debug (b := b') (by exact faithful) p (by exact refs)).bind ?_
    intro s'' spec
    obtain ⟨_, _, b'', kept, issued', removed'⟩ := spec
    exact ⟨b'', kept, issued'.trans issued, removed'.trans removed, rfl⟩
  · simp only [live, decide_false] at found'
    rw [if_neg live] at refs
    subst found'
    exact ⟨b', ⟨faithful, refs⟩, issued, removed, rfl⟩

theorem tryClose_tracks (tracks : s.Tracks b) (p : P) (id : UInt64) :
    Ensures (s.tryClose debug p id)
      (fun r => ∃ b', r.2.Tracks b' ∧ b'.issued = b.issued ∧
        (s.Closes id ∧ r.1 = true ∧ b'.removed = Idx.ofU64 id :: b.removed ∨
          ¬ s.Closes id ∧ r.1 = false ∧ b'.removed = b.removed))
      (· ≠ .zeroId) := by
  unfold KTrace.tryClose
  apply (get_tracks debug tracks p (Idx.ofU64 id)).bind
  intro r spec
  obtain ⟨found, s'⟩ := r
  obtain ⟨found', references, pipeline, b', faithful, refs, issued, removed⟩ := spec
  by_cases live : b.Live (Idx.ofU64 id)
  · simp only [live, decide_true] at found'
    rw [if_pos live] at refs
    subst found'
    refine (dropState_tracks debug (b := b') (by exact faithful) p (by exact refs)).bind ?_
    intro s'' spec
    obtain ⟨_, _, b'', kept, issued', removed'⟩ := spec
    have before : s'.references (Idx.ofU64 id).index = s.references (Idx.ofU64 id).index := congrFun references _
    split
    · rename_i last
      have live' : b''.Live (Idx.ofU64 id) := by
        rw [Book.Live, issued', removed', issued, removed]
        exact live
      apply (remove_tracks debug kept p live').bind
      intro final spec
      obtain ⟨_, _, closed, kept', issued'', removed''⟩ := spec
      refine ⟨closed, kept', issued''.trans (issued'.trans issued),
        .inl ⟨⟨tracks.isOpen_iff.mpr live, before.symm.trans last⟩, rfl, ?_⟩⟩
      rw [removed'', removed', removed]
    · rename_i more
      refine ⟨b'', kept, issued'.trans issued, .inr ⟨?_, rfl, removed'.trans removed⟩⟩
      intro closes
      exact more (before.trans closes.2)
  · simp only [live, decide_false] at found'
    rw [if_neg live] at refs
    subst found'
    exact ⟨b', ⟨faithful, refs⟩, issued, .inr ⟨fun closes => live (tracks.isOpen_iff.mp closes.1), rfl, removed⟩⟩

theorem newSpan_tracks (tracks : s.Tracks b) (p : P) (span : Attributes) :
    Ensures (s.newSpan debug p span)
      (fun r => ∃ idx, r.1 = (idx, idx.toU64) ∧ 0 < idx.generation ∧
        r.2.1 = (if s.HasRoom then
          some (.spanCreated ⟨idx.toU64, span.parent.toProto, span.metadata, span.values⟩) else none) ∧
        r.2.2.references = Function.update s.references idx.index 1 ∧
        ∃ b', r.2.2.Tracks b' ∧ b'.issued = (idx, span.metadata) :: b.issued ∧ b'.removed = b.removed)
      (· ≠ .zeroId) := by
  unfold KTrace.newSpan
  apply (insert_tracks debug tracks p span.metadata).bind
  intro r spec
  obtain ⟨inserted, s'⟩ := r
  cases inserted with
  | none => exact nofun
  | some idx =>
    obtain ⟨positive, references, pipeline, b', kept, issued, removed⟩ := spec idx rfl
    simp only [if_neg (Idx.toU64_ne_zero positive)]
    apply (push_tracks s' _).bind
    intro r spec
    obtain ⟨sent, s''⟩ := r
    obtain ⟨queued, spans, references'⟩ := spec
    refine ⟨idx, rfl, positive, ?_, references'.trans references, b', ⟨spans ▸ kept.faithful, spans ▸ kept.idle⟩, issued,
      removed⟩
    have room : s'.HasRoom ↔ s.HasRoom := by
      unfold KTrace.HasRoom
      rw [pipeline]
    simpa only [room] using queued

theorem step_tracks (tracks : s.Tracks b) (call : Call P) :
    Ensures (s.step debug call) (fun r => ∃ b', r.2.Tracks b' ∧ Effect s b b' r.1 call) (· ≠ .zeroId) := by
  cases call with
  | newSpan p span =>
    apply (newSpan_tracks debug tracks p span).bind
    intro r spec
    obtain ⟨answer, sent, s'⟩ := r
    obtain ⟨idx, rfl, positive, rfl, _, b', kept, issued, removed⟩ := spec
    exact ⟨b', kept, idx, positive, issued, removed, rfl⟩
  | cloneSpan p id =>
    apply (cloneSpan_tracks debug tracks p id).bind
    intro r spec
    obtain ⟨b', kept, issued, removed, same⟩ := spec
    exact ⟨b', kept, issued, removed, by rw [same]⟩
  | tryClose p id =>
    apply (tryClose_tracks debug tracks p id).bind
    intro r spec
    obtain ⟨last, s'⟩ := r
    obtain ⟨b', kept, issued, ⟨closes, rfl, removed⟩ | ⟨open', rfl, removed⟩⟩ := spec
    · exact ⟨b', kept, issued, .inl ⟨closes, removed, rfl⟩⟩
    · exact ⟨b', kept, issued, .inr ⟨open', removed, rfl⟩⟩
  | enter p id => exact report_tracks tracks _
  | exit p id => exact report_tracks tracks _
  | event p event => exact report_tracks tracks _
  | work => exact ⟨b, ⟨tracks.faithful, tracks.idle⟩, rfl, rfl, rfl⟩

end Steps

section Runs

theorem new_tracks {s : KTrace P} (constructed : KTrace.new = .ok s) : s.Tracks Book.empty := by
  unfold KTrace.new at constructed
  cases made : (Client.new MAX_SPANS : Except PlatyposSlab.Panic (Client (Metadata Str) P)) with
  | error reason =>
    rw [made] at constructed
    cases constructed
  | ok spans =>
    rw [made] at constructed
    cases constructed
    have faithful : Faithful spans Book.empty := PlatyposSlab.new_faithful (by decide) made
    refine ⟨faithful, ?_⟩
    unfold Client.new PlatyposSlab.Slab.new at made
    split at made <;> cases made
    rfl

/-- The ids that were returned are those of the book. -/
structure Issued (replies : List Reply) (b : Book (Metadata Str)) : Prop where
  ids : created replies = (b.issued.map fun e => e.1.toU64).reverse
  positive : ∀ e ∈ b.issued, 0 < e.1.generation
  same : ∀ reply ∈ replies, ∀ idx id, reply.answer = .created idx id → id = idx.toU64

theorem issued_empty : Issued [] Book.empty := by
  constructor <;> simp [created, Book.empty]

theorem created_append (replies replies' : List Reply) :
    created (replies ++ replies') = created replies ++ created replies' :=
  List.filterMap_append

theorem Issued.snoc {replies : List Reply} {b b' : Book (Metadata Str)} {s : KTrace P} {reply : Reply} {call : Call P}
    (issued : Issued replies b) (effect : Effect s b b' reply call) : Issued (replies ++ [reply]) b' := by
  have quiet : (∀ idx id, reply.answer ≠ .created idx id) → b'.issued = b.issued → Issued (replies ++ [reply]) b' := by
    intro other same
    refine ⟨?_, same ▸ issued.positive, ?_⟩
    · have none : created [reply] = [] := by
        cases answer : reply.answer with
        | created idx id => exact absurd answer (other idx id)
        | _ => simp [created, answer]
      rw [created_append, none, List.append_nil, same]
      exact issued.ids
    · intro reply' member idx id answer
      rcases List.mem_append.mp member with old | new
      · exact issued.same reply' old idx id answer
      · obtain rfl := List.mem_singleton.mp new
        exact absurd answer (other idx id)
  cases call with
  | newSpan p span =>
    obtain ⟨idx, positive, added, _, rfl⟩ := effect
    refine ⟨?_, ?_, ?_⟩
    · rw [created_append, added, List.map_cons, List.reverse_cons, issued.ids]
      rfl
    · rw [added]
      intro e member
      rcases List.mem_cons.mp member with rfl | old
      · exact positive
      · exact issued.positive e old
    · intro reply' member idx' id answer
      rcases List.mem_append.mp member with old | new
      · exact issued.same reply' old idx' id answer
      · obtain rfl := List.mem_singleton.mp new
        cases answer
        rfl
  | tryClose p id =>
    obtain ⟨same, ⟨_, _, rfl⟩ | ⟨_, _, rfl⟩⟩ := effect <;> exact quiet nofun same
  | cloneSpan p id | enter p id | exit p id | event p event | work =>
    obtain ⟨same, _, rfl⟩ := effect
    exact quiet nofun same

variable [DecidableEq P]

theorem run_issued (debug : Bool) {s₀ : KTrace P} (constructed : KTrace.new = .ok s₀) (calls : List (Call P)) :
    Ensures (exec (KTrace.step debug) s₀ calls) (fun r => ∃ b, r.2.Tracks b ∧ Issued r.1 b) (· ≠ .zeroId) := by
  have preserved : ∀ replies (s : KTrace P) call, (∃ b, s.Tracks b ∧ Issued replies b) →
      Ensures (s.step debug call) (fun r => ∃ b, r.2.Tracks b ∧ Issued (replies ++ [r.1]) b) (· ≠ .zeroId) := by
    intro replies s call before
    obtain ⟨b, tracks, issued⟩ := before
    apply (step_tracks debug tracks call).imp
    intro r after
    obtain ⟨b', kept, effect⟩ := after
    exact ⟨b', kept, issued.snoc effect⟩
  have start : ∃ b, s₀.Tracks b ∧ Issued [] b := ⟨_, new_tracks constructed, issued_empty⟩
  exact exec_history preserved start calls

theorem span_ids_unique (debug : Bool) {s₀ : KTrace P} (constructed : KTrace.new = .ok s₀) (calls : List (Call P)) :
    Ensures (exec (KTrace.step debug) s₀ calls)
      (fun r => (created r.1).Nodup ∧ 0 ∉ created r.1 ∧
        ∀ reply ∈ r.1, ∀ idx id, reply.answer = .created idx id → Idx.ofU64 id = idx)
      (· ≠ .zeroId) := by
  apply (run_issued debug constructed calls).imp
  intro r after
  obtain ⟨b, tracks, issued⟩ := after
  have distinct : (created r.1).Nodup := by
    have keys := tracks.faithful.keys.map (Function.LeftInverse.injective Idx.ofU64_toU64)
    rw [List.map_map] at keys
    rw [issued.ids, List.nodup_reverse]
    exact keys
  have positive : 0 ∉ created r.1 := by
    rw [issued.ids, List.mem_reverse]
    intro zero
    obtain ⟨e, member, same⟩ := List.mem_map.mp zero
    exact Idx.toU64_ne_zero (issued.positive e member) same
  refine ⟨distinct, positive, ?_⟩
  intro reply member idx id answer
  rw [issued.same reply member idx id answer, Idx.ofU64_toU64]

/-- A span with nothing but a name. -/
def boot : Attributes := ⟨.root, ⟨⟨"boot", by decide⟩, ⟨"kernel", by decide⟩, .info, none, none⟩, ⟨[], by decide⟩⟩

theorem span_ids_unique_reused :
    ∃ (s₀ s : KTrace Bool) (replies : List Reply), KTrace.new = .ok s₀ ∧
      exec (KTrace.step true) s₀ [.newSpan false boot, .newSpan true boot, .tryClose true 1, .newSpan true boot] =
        .ok (replies, s) ∧ created replies = [1, 2^46 + 1, 2] ∧ (created replies).Nodup := by
  have both : ∃ (s₀ s : KTrace Bool) (replies : List Reply), KTrace.new = .ok s₀ ∧
      exec (KTrace.step true) s₀ [.newSpan false boot, .newSpan true boot, .tryClose true 1, .newSpan true boot] =
        .ok (replies, s) ∧ created replies = [1, 2^46 + 1, 2] := ⟨_, _, _, rfl, rfl, rfl⟩
  obtain ⟨s₀, s, replies, constructed, ran, ids⟩ := both
  have unique := span_ids_unique true constructed
    [.newSpan false boot, .newSpan true boot, .tryClose true 1, .newSpan true boot]
  exact ⟨s₀, s, replies, constructed, ran, ids, (unique.of_ok ran).1⟩

end Runs

end KTrace

end Platypos.Ktrace
