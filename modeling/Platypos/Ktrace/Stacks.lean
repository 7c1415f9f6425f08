import Platypos.Library.Nesting
import Platypos.Ktrace.Mirror

namespace Platypos.Ktrace

open Outcome Exec Nesting

open PlatyposSlab (Book)

section Messages

variable {S E A : Type}

/-- What the message says about the stack of a processor. -/
def Message.scope : Message S E A → Option (UInt32 × Scope UInt64)
  | .spanEntered id processor => some (processor, .enter id)
  | .spanExited id processor => some (processor, .leave id)
  | _ => none

theorem Message.scope_received {m : SenderMessage} {r : ReceiverMessage} (arrived : m.received = some r) :
    r.scope = m.scope := by
  cases m with
  | spanCreated span | event e =>
    obtain ⟨fields, _, same⟩ := Option.bind_eq_some_iff.mp arrived
    cases same
    rfl
  | spanEntered id processor | spanExited id processor | spanClosed id =>
    cases arrived
    rfl

namespace Formatter

/-- Every message is processed: no assertion fails. -/
def Accepts (ms : List (Message S E A)) : Prop := Completes receive (new : Formatter S) ms

theorem receive_unscoped (f : Formatter S) {m : Message S E A} (unscoped : m.scope = none) :
    ∃ line f', f.receive m = .ok (line, f') ∧ f'.spanStacks = f.spanStacks := by
  cases m with
  | spanCreated span | event e | spanClosed id => exact ⟨_, _, rfl, rfl⟩
  | spanEntered id processor | spanExited id processor => cases unscoped

/-- While all messages come from one processor, its stack decides. -/
theorem completes_iff_follow {f : Formatter S} {ms : List (Message S E A)} {processor : UInt32}
    {scopes : List (Scope UInt64)} (only : ms.filterMap Message.scope = scopes.map (Prod.mk processor)) :
    Completes receive f ms ↔ (follow (f.spanStacks processor) scopes).isSome := by
  induction ms generalizing f scopes with
  | nil =>
    rw [List.filterMap_nil, eq_comm, List.map_eq_nil_iff] at only
    subst only
    exact iff_of_true ⟨_, _, rfl⟩ rfl
  | cons m ms ih =>
    cases scope : m.scope with
    | none =>
      rw [List.filterMap_cons_none scope] at only
      obtain ⟨line, f', first, kept⟩ := receive_unscoped f scope
      rw [completes_cons_of_ok first, ih only, kept]
    | some event =>
      rw [List.filterMap_cons_some scope] at only
      obtain ⟨here, scopes, rfl, rfl, rest⟩ := List.map_eq_cons_iff.mp only.symm
      cases m with
      | spanCreated span | event e | spanClosed id => cases scope
      | spanEntered id processor' =>
        cases scope
        rw [completes_cons_of_ok rfl, ih rest.symm]
        simp [follow]
      | spanExited id processor' =>
        cases scope
        by_cases current : (f.spanStacks processor).head? = some id
        · have first : f.receive (.spanExited id processor : Message S E A) = .ok (none, { f with
              spanStacks := Function.update f.spanStacks processor (f.spanStacks processor).tail }) := if_pos current
          rw [completes_cons_of_ok first, ih rest.symm]
          simp [follow, current]
        · have first : f.receive (.spanExited id processor : Message S E A) = .error exitedNotCurrent := if_neg current
          refine iff_of_false (not_completes_cons_of_error first) ?_
          simp [follow, current]

end Formatter

end Messages

namespace Call

variable {P : Type}

/-- The scope that the call enters or leaves. -/
def scope : Call P → Option (Scope UInt64)
  | .enter _ id => some (.enter id)
  | .exit _ id => some (.leave id)
  | _ => none

/-- The same for the calls made on one processor. -/
def scopeOn [DecidableEq P] (p : P) : Call P → Option (Scope UInt64)
  | .enter p' id => if p' = p then some (.enter id) else none
  | .exit p' id => if p' = p then some (.leave id) else none
  | _ => none

end Call

namespace KTrace

variable {P : Type} [DecidableEq P] (debug : Bool)

/-- The scopes entered and left, on all processors, by the calls that find room in the queue. -/
def recorded : KTrace P → List (Call P) → List (Scope UInt64)
  | _, [] => []
  | s, call :: calls =>
    (if s.HasRoom then call.scope.toList else []) ++
      match s.step debug call with
      | .ok (_, s') => recorded s' calls
      | .error _ => []

omit [DecidableEq P] in
theorem Effect.scope {s : KTrace P} {b b' : Book (Metadata Str)} {reply : Reply} {call : Call P}
    (effect : Effect s b b' reply call) :
    (stream [reply]).filterMap Message.scope =
      (if s.HasRoom then call.scope.toList else []).map (Prod.mk processorId) := by
  obtain ⟨id, sent, _⟩ := effect.sends
  rw [sent]
  split
  · cases call <;> rfl
  · rfl

theorem run_scopes {s s' : KTrace P} {b : Book (Metadata Str)} {calls : List (Call P)} {replies : List Reply}
    (tracks : s.Tracks b) (ran : exec (KTrace.step debug) s calls = .ok (replies, s')) :
    (stream replies).filterMap Message.scope = (recorded debug s calls).map (Prod.mk processorId) := by
  induction calls generalizing s b replies with
  | nil =>
    cases ran
    rfl
  | cons call calls ih =>
    obtain ⟨reply, mid, replies', first, rest, rfl⟩ := exec_cons_ok ran
    obtain ⟨b', tracks', effect⟩ := (step_tracks debug tracks call).of_ok first
    rw [stream_cons, List.filterMap_append, effect.scope, ih tracks' rest, recorded, first, List.map_append]

theorem recorded_of_room {s s' : KTrace P} {calls : List (Call P)} {replies : List Reply}
    (ran : exec (KTrace.step debug) s calls = .ok (replies, s'))
    (room : Meets (KTrace.step debug) (fun s _ => s.HasRoom) s calls) :
    recorded debug s calls = calls.filterMap Call.scope := by
  induction calls generalizing s replies with
  | nil => rfl
  | cons call calls ih =>
    obtain ⟨reply, mid, replies', first, rest, rfl⟩ := exec_cons_ok ran
    obtain ⟨here, later⟩ := (meets_cons_of_ok first).mp room
    rw [recorded, first, if_pos here]
    simp only [ih rest later]
    cases scope : call.scope with
    | none => rw [List.filterMap_cons_none scope, Option.toList_none, List.nil_append]
    | some event => rw [List.filterMap_cons_some scope, Option.toList_some, List.singleton_append]

variable {s₀ s : KTrace P} {calls : List (Call P)} {replies : List Reply}

theorem accepts_iff_nested {S E A : Type} (constructed : KTrace.new = .ok s₀)
    (ran : exec (KTrace.step debug) s₀ calls = .ok (replies, s)) {ms : List (Message S E A)}
    (same : ms.filterMap Message.scope = (stream replies).filterMap Message.scope) :
    Formatter.Accepts ms ↔ Nested (recorded debug s₀ calls) := by
  rw [nested_iff_follow]
  exact Formatter.completes_iff_follow (same.trans (run_scopes debug (new_tracks constructed) ran))

/-- The formatter accepts what the kernel sends exactly if the recorded calls of all processors together are nested. -/
theorem formatter_accepts_iff_nested (constructed : KTrace.new = .ok s₀)
    (ran : exec (KTrace.step debug) s₀ calls = .ok (replies, s)) :
    (Formatter.Accepts (stream replies) ↔ Nested (recorded debug s₀ calls)) ∧
      ∀ messages, (stream replies).mapM Message.received = some messages →
        (Formatter.Accepts messages ↔ Nested (recorded debug s₀ calls)) := by
  refine ⟨accepts_iff_nested debug constructed ran rfl, ?_⟩
  intro messages arrived
  exact accepts_iff_nested debug constructed ran (filterMap_received Message.scope_received arrived)

/-- A span is entered and left while another processor is in one. -/
theorem formatter_accepts_inner_span :
    ∃ (s₀ s : KTrace Bool) (replies : List Reply), KTrace.new = .ok s₀ ∧
      exec (KTrace.step true) s₀ [.newSpan false boot, .newSpan true boot, .enter false 1, .enter true 0x400000000001,
        .exit true 0x400000000001, .exit false 1] = .ok (replies, s) ∧ Formatter.Accepts (stream replies) := by
  have both : ∃ (s₀ s : KTrace Bool) (replies : List Reply), KTrace.new = .ok s₀ ∧
      exec (KTrace.step true) s₀ [.newSpan false boot, .newSpan true boot, .enter false 1, .enter true 0x400000000001,
        .exit true 0x400000000001, .exit false 1] = .ok (replies, s) ∧
      Nested (recorded true s₀ [.newSpan false boot, .newSpan true boot, .enter false 1, .enter true 0x400000000001,
        .exit true 0x400000000001, .exit false 1]) := ⟨_, _, _, rfl, rfl, by decide⟩
  obtain ⟨s₀, s, replies, constructed, ran, nested⟩ := both
  exact ⟨s₀, s, replies, constructed, ran, (formatter_accepts_iff_nested true constructed ran).1.mpr nested⟩

/-- Two processors, each of which leaves the span that it entered last. -/
theorem exited_span_not_current :
    ∃ (s₀ s : KTrace Bool) (replies : List Reply), KTrace.new = .ok s₀ ∧
      exec (KTrace.step true) s₀ [.newSpan false boot, .newSpan true boot, .enter false 1, .enter true 0x400000000001,
        .exit false 1] = .ok (replies, s) ∧
      (∀ p, Nested ([.newSpan false boot, .newSpan true boot, .enter false 1, .enter true 0x400000000001,
        .exit false 1].filterMap (Call.scopeOn p))) ∧
      exec Formatter.receive Formatter.new (stream replies) = .error Formatter.exitedNotCurrent :=
  ⟨_, _, _, rfl, rfl, by decide, rfl⟩

/-- On one processor, with room for every message, it is enough that its own calls are nested. -/
theorem single_processor_accepted (constructed : KTrace.new = .ok s₀)
    (ran : exec (KTrace.step debug) s₀ calls = .ok (replies, s))
    (room : Meets (KTrace.step debug) (fun s _ => s.HasRoom) s₀ calls) {p : P}
    (alone : ∀ call ∈ calls, call.scope = call.scopeOn p) (nested : Nested (calls.filterMap (Call.scopeOn p))) :
    Formatter.Accepts (stream replies) := by
  rw [accepts_iff_nested debug constructed ran rfl, recorded_of_room debug ran room, List.filterMap_congr alone]
  exact nested

end KTrace

end Platypos.Ktrace
