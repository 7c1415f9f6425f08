import Platypos.Library.Interleave
import Platypos.Ktrace.Stacks

namespace Platypos.Ktrace

open Exec Nesting Interleave

variable {S E A : Type}

/-- The span that is created, entered, exited or closed. -/
def Message.spanId : Message S E A → Option UInt64
  | .spanCreated span => some span.id
  | .event _ => none
  | .spanEntered id _ => some id
  | .spanExited id _ => some id
  | .spanClosed id => some id

/-- The messages of each processor, which opens and closes spans of its own only. -/
structure Separate (streams : UInt32 → List (Message S E A)) : Prop where
  nested : ∀ p, Nested (((streams p).filterMap Message.scope).map Prod.snd)
  here : ∀ p, ∀ m ∈ streams p, ∀ scope, m.scope = some scope → scope.1 = p
  created : ∀ p span, .spanCreated span ∈ streams p → span.parent = .root ∨ span.parent = .current p
  distinct : ∀ p q id, (∃ m ∈ streams p, m.spanId = some id) → (∃ m ∈ streams q, m.spanId = some id) → p = q

/-- A span of no other processor. -/
def Unshared (streams : UInt32 → List (Message S E A)) (p : UInt32) (id : UInt64) : Prop :=
  ∀ q, q ≠ p → ∀ m ∈ streams q, m.spanId ≠ some id

/-- The parent can be looked up without the spans and stacks of other processors. -/
def Parent.Local (streams : UInt32 → List (Message S E A)) (p : UInt32) : Parent → Prop
  | .root => True
  | .current q => q = p
  | .explicit id => Unshared streams p id

variable {streams : UInt32 → List (Message S E A)} {p : UInt32}

theorem Separate.unshared (separate : Separate streams) {m : Message S E A} (member : m ∈ streams p) {id : UInt64}
    (span : m.spanId = some id) : Unshared streams p id := by
  intro q other m' member' span'
  exact other (separate.distinct q p id ⟨m', member', span'⟩ ⟨m, member, span⟩)

theorem Separate.created_local (separate : Separate streams) {span : SpanCreated S A}
    (member : .spanCreated span ∈ streams p) : span.parent.Local streams p := by
  rcases separate.created p span member with root | current
  · rw [root]
    trivial
  · rw [current]
    exact rfl

namespace Formatter

/-- The span under which the message is shown. -/
def parentOf (f : Formatter S) : Message S E A → Option (SpanState S)
  | .spanCreated span => (f.resolveParent span.parent).bind f.spans
  | .event e => (f.resolveParent e.spanId).bind f.spans
  | _ => none

/-- `receive`, with the parent that it finds beside the line that it prints. -/
def observe (f : Formatter S) (m : Message S E A) :
    Except String ((Option (SpanState S) × Option (Line S E A)) × Formatter S) := do
  let (line, f') ← f.receive m
  return ((f.parentOf m, line), f')

theorem observe_ok {f f' : Formatter S} {m : Message S E A} {shown : Option (SpanState S) × Option (Line S E A)} :
    f.observe m = .ok (shown, f') ↔ f.receive m = .ok (shown.2, f') ∧ shown.1 = f.parentOf m := by
  unfold observe
  cases f.receive m with
  | error e => simp [Bind.bind, Except.bind]
  | ok r =>
    obtain ⟨line, f''⟩ := r
    obtain ⟨parent, line'⟩ := shown
    simp only [Bind.bind, Except.bind, Pure.pure, Except.pure, Except.ok.injEq, Prod.mk.injEq]
    tauto

theorem completes_observe {f : Formatter S} {ms : List (Message S E A)} :
    Completes observe f ms ↔ Completes receive f ms := by
  induction ms generalizing f with
  | nil => exact iff_of_true ⟨[], f, rfl⟩ ⟨[], f, rfl⟩
  | cons m ms ih =>
    cases received : f.receive m with
    | error e =>
      have observed : f.observe m = .error e := by rw [observe, received]; rfl
      exact iff_of_false (not_completes_cons_of_error observed) (not_completes_cons_of_error received)
    | ok r =>
      have observed : f.observe m = .ok ((f.parentOf m, r.1), r.2) := observe_ok.mpr ⟨received, rfl⟩
      rw [completes_cons_of_ok observed, completes_cons_of_ok received]
      exact ih

/-- The part of a formatter's state that belongs to a processor is what it is if only its messages are received. -/
structure Agrees (streams : UInt32 → List (Message S E A)) (p : UInt32) (shared alone : Formatter S) : Prop where
  stack : shared.spanStacks p = alone.spanStacks p
  held : ∀ id ∈ alone.spanStacks p, Unshared streams p id
  spans : ∀ id, Unshared streams p id → shared.spans id = alone.spans id

variable {shared alone : Formatter S}

theorem Agrees.parent (agrees : Agrees streams p shared alone) {parent : Parent} (near : parent.Local streams p) :
    (shared.resolveParent parent).bind shared.spans = (alone.resolveParent parent).bind alone.spans := by
  cases parent with
  | root => rfl
  | explicit id => exact agrees.spans id near
  | current q =>
    cases near
    simp only [resolveParent, agrees.stack]
    cases top : (alone.spanStacks p).head? with
    | none => rfl
    | some id => exact agrees.spans id (agrees.held id (List.mem_of_mem_head? top))

theorem Agrees.update_spans (agrees : Agrees streams p shared alone) (id : UInt64) (state : Option (SpanState S)) :
    Agrees streams p { shared with spans := Function.update shared.spans id state }
      { alone with spans := Function.update alone.spans id state } := by
  refine ⟨agrees.stack, agrees.held, ?_⟩
  intro id' unshared
  by_cases same : id' = id
  · subst same
    simp only [Function.update_self]
  · simp only [Function.update_of_ne same]
    exact agrees.spans id' unshared

theorem Agrees.update_stacks (agrees : Agrees streams p shared alone) {stack : List UInt64}
    (held : ∀ id ∈ stack, Unshared streams p id) :
    Agrees streams p { shared with spanStacks := Function.update shared.spanStacks p stack }
      { alone with spanStacks := Function.update alone.spanStacks p stack } := by
  refine ⟨?_, ?_, agrees.spans⟩
  · simp only [Function.update_self]
  · simp only [Function.update_self]
    exact held

/-- A message of the processor is received as if it were alone. -/
theorem Agrees.mine (agrees : Agrees streams p shared alone) (separate : Separate streams) {m : Message S E A}
    (member : m ∈ streams p) (events : ∀ e, m = .event e → e.spanId.Local streams p)
    {shown : Option (SpanState S) × Option (Line S E A)} {alone' : Formatter S}
    (observed : alone.observe m = .ok (shown, alone')) :
    ∃ shared', shared.observe m = .ok (shown, shared') ∧ Agrees streams p shared' alone' := by
  obtain ⟨parent, line⟩ := shown
  obtain ⟨received, rfl⟩ := observe_ok.mp observed
  simp only [observe_ok]
  cases m with
  | spanCreated span =>
    have same := agrees.parent (separate.created_local member)
    cases received
    refine ⟨_, ⟨?_, same.symm⟩, agrees.update_spans span.id _⟩
    simp only [receive, same]
  | event e =>
    have same := agrees.parent (events e rfl)
    cases received
    refine ⟨shared, ⟨?_, same.symm⟩, agrees⟩
    simp only [receive, same]
  | spanClosed id =>
    cases received
    refine ⟨_, ⟨?_, rfl⟩, agrees.update_spans id none⟩
    simp only [receive, agrees.spans id (separate.unshared member rfl)]
    rfl
  | spanEntered id q =>
    obtain rfl := separate.here p _ member _ rfl
    cases received
    have held : ∀ id' ∈ id :: alone.spanStacks q, Unshared streams q id' :=
      List.forall_mem_cons.mpr ⟨separate.unshared member rfl, agrees.held⟩
    refine ⟨_, ⟨?_, rfl⟩, agrees.update_stacks held⟩
    simp only [receive, agrees.stack]
  | spanExited id q =>
    obtain rfl := separate.here p _ member _ rfl
    simp only [receive] at received
    split at received
    · rename_i top
      cases received
      have held : ∀ id' ∈ (alone.spanStacks q).tail, Unshared streams q id' :=
        fun id' deeper => agrees.held id' (List.mem_of_mem_tail deeper)
      refine ⟨_, ⟨?_, rfl⟩, agrees.update_stacks held⟩
      simp only [receive, agrees.stack, if_pos top]
    · cases received

/-- A message of another processor changes nothing for this one. -/
theorem Agrees.others (agrees : Agrees streams p shared alone) (separate : Separate streams) {q : UInt32}
    (other : p ≠ q) {m : Message S E A} (member : m ∈ streams q) {shared' : Formatter S}
    {line : Option (Line S E A)} (received : shared.receive m = .ok (line, shared')) :
    Agrees streams p shared' alone := by
  have spans : ∀ id, m.spanId = some id → ∀ state, ∀ id', Unshared streams p id' →
      Function.update shared.spans id state id' = alone.spans id' := by
    intro id span state id' unshared
    have differ : id' ≠ id := by
      rintro rfl
      exact unshared q other.symm m member span
    rw [Function.update_of_ne differ]
    exact agrees.spans id' unshared
  have elsewhere : ∀ scope, m.scope = some scope → ∀ stack,
      Function.update shared.spanStacks scope.1 stack p = alone.spanStacks p := by
    intro scope same stack
    rw [separate.here q m member scope same, Function.update_of_ne other]
    exact agrees.stack
  cases m with
  | spanCreated span =>
    cases received
    exact ⟨agrees.stack, agrees.held, spans span.id rfl _⟩
  | event e =>
    cases received
    exact agrees
  | spanClosed id =>
    cases received
    exact ⟨agrees.stack, agrees.held, spans id rfl _⟩
  | spanEntered id r =>
    cases received
    exact ⟨elsewhere _ rfl _, agrees.held, agrees.spans⟩
  | spanExited id r =>
    simp only [receive] at received
    split at received
    · cases received
      exact ⟨elsewhere _ rfl _, agrees.held, agrees.spans⟩
    · cases received

theorem completes_alone (separate : Separate streams) (p : UInt32) :
    Completes receive (new : Formatter S) (streams p) := by
  have only : (streams p).filterMap Message.scope =
      (((streams p).filterMap Message.scope).map Prod.snd).map (Prod.mk p) := by
    rw [List.map_map]
    conv_lhs => rw [← List.map_id ((streams p).filterMap Message.scope)]
    apply List.map_congr_left
    intro scope member
    obtain ⟨m, inside, same⟩ := List.mem_filterMap.mp member
    rw [Function.comp_apply, ← separate.here p m inside scope same]
    rfl
  rw [completes_iff_follow only]
  exact nested_iff_follow.mp (separate.nested p)

/-- However the messages of the processors are interleaved, each is shown at the depth and under the parent that it
    has among the messages of its own processor. -/
theorem processors_undisturbed (separate : Separate streams)
    (events : ∀ p e, .event e ∈ streams p → e.spanId.Local streams p) {merged : List (UInt32 × Message S E A)}
    (interleaved : ∀ p, own p merged = streams p) :
    ∃ shown f, exec observe (new : Formatter S) (merged.map Prod.snd) = .ok (shown, f) ∧
      ∀ p, ∃ f', exec observe (new : Formatter S) (streams p) = .ok (own p ((merged.map Prod.fst).zip shown), f') := by
  simp only [← interleaved]
  have fresh : ∀ p, Agrees streams p (new : Formatter S) new := fun p => ⟨rfl, by simp [new], fun _ _ => rfl⟩
  refine @exec_interleaved _ _ _ _ _ _ observe (Agrees streams) (fun p m => m ∈ streams p) ?_ ?_ _ ?_ _ _ fresh ?_
  · intro p m member shared alone shown alone' agrees observed
    refine agrees.mine separate member ?_ observed
    rintro e rfl
    exact events p e member
  · intro q m member p other shared alone shown shared' agrees observed
    exact agrees.others separate other member (observe_ok.mp observed).1
  · intro p m member
    rwa [← interleaved]
  · intro p
    rw [completes_observe, interleaved]
    exact completes_alone separate p

def inner : Metadata String := ⟨"inner", "kernel", .info, none, none⟩

/-- Processor 0 opens a span inside another, then processor 1 logs an event. -/
def twoProcessors (parent : Parent) : List (UInt32 × Message String Unit Unit) :=
  [(0, .spanCreated ⟨1, .root, inner, ()⟩), (0, .spanEntered 1 0), (0, .spanCreated ⟨2, .current 0, inner, ()⟩),
    (1, .event ⟨parent, inner, ()⟩)]

theorem mem_twoProcessors {parent : Parent} {p : UInt32} {m : Message String Unit Unit}
    (member : m ∈ own p (twoProcessors parent)) :
    p = 0 ∧ (m = .spanCreated ⟨1, .root, inner, ()⟩ ∨ m = .spanEntered 1 0 ∨
      m = .spanCreated ⟨2, .current 0, inner, ()⟩) ∨ p = 1 ∧ m = .event ⟨parent, inner, ()⟩ := by
  simp only [mem_own, twoProcessors, List.mem_cons, Prod.mk.injEq, List.not_mem_nil, or_false] at member
  tauto

theorem twoProcessors_separate (parent : Parent) : Separate fun p => own p (twoProcessors parent) where
  nested := by
    intro p
    by_cases first : p = 0
    · subst first
      exact nested_iff_follow.mpr rfl
    · have silent : (own p (twoProcessors parent)).filterMap Message.scope = [] := by
        rw [List.filterMap_eq_nil_iff]
        intro m member
        rcases mem_twoProcessors member with ⟨zero, _⟩ | ⟨_, rfl⟩
        · exact absurd zero first
        · rfl
      rw [silent]
      exact nested_nil
  here := by
    intro p m member
    rcases mem_twoProcessors member with ⟨rfl, rfl | rfl | rfl⟩ | ⟨rfl, rfl⟩ <;> simp [Message.scope]
  created := by
    intro p span member
    rcases mem_twoProcessors member with ⟨rfl, same | same | same⟩ | ⟨rfl, same⟩ <;> cases same <;> simp
  distinct := by
    have first : ∀ p id, (∃ m ∈ own p (twoProcessors parent), m.spanId = some id) → p = 0 := by
      rintro p id ⟨m, member, span⟩
      rcases mem_twoProcessors member with ⟨zero, _⟩ | ⟨_, rfl⟩
      · exact zero
      · cases span
    intro p q id mine yours
    rw [first p id mine, first q id yours]

theorem processors_undisturbed_nested :
    ∃ shown f, exec observe new ((twoProcessors (.current 1)).map Prod.snd) = .ok (shown, f) ∧
      ∀ p, ∃ f', exec observe new (own p (twoProcessors (.current 1))) =
        .ok (own p (((twoProcessors (.current 1)).map Prod.fst).zip shown), f') := by
  refine processors_undisturbed (twoProcessors_separate (.current 1)) ?_ fun _ => rfl
  intro p e member
  rcases mem_twoProcessors member with ⟨rfl, same | same | same⟩ | ⟨rfl, same⟩ <;> cases same
  exact rfl

/-- An event may name a span of another processor: among its own processor's messages alone it is less deep. -/
theorem event_under_foreign_span :
    (Separate fun p => own p (twoProcessors (.explicit 2))) ∧
      ∃ shown f f', exec observe new ((twoProcessors (.explicit 2)).map Prod.snd) = .ok (shown, f) ∧
        own 1 (((twoProcessors (.explicit 2)).map Prod.fst).zip shown) =
          [(some ⟨1, "kernel", "inner", .info, 2⟩, some (.logged 2 .info ()))] ∧
        exec observe new (own 1 (twoProcessors (.explicit 2))) = .ok ([(none, some (.logged 1 .info ()))], f') :=
  ⟨twoProcessors_separate (.explicit 2), _, _, _, rfl, rfl, rfl⟩

end Formatter

end Platypos.Ktrace
