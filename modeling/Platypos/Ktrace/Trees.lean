import Mathlib.Data.List.ReduceOption
import Platypos.Ktrace.Processors

namespace Platypos.Ktrace

open Exec Nesting Interleave

/-- Spans and events as a processor nests them, the oldest first. Of a span it is known whether its end is reported. -/
inductive Forest (S E A : Type) where
  | nil
  | event (metadata : Metadata S) (fields : E) (rest : Forest S E A)
  | span (id : UInt64) (closed : Bool) (metadata : Metadata S) (fields : A) (children rest : Forest S E A)

namespace Forest

variable {S E A : Type}

def messages (p : UInt32) : Forest S E A → List (Message S E A)
  | nil => []
  | event metadata fields rest => .event ⟨.current p, metadata, fields⟩ :: rest.messages p
  | span id closed metadata fields children rest =>
    .spanCreated ⟨id, .current p, metadata, fields⟩ :: .spanEntered id p :: (children.messages p ++ .spanExited id p ::
      ((if closed then [.spanClosed id] else []) ++ rest.messages p))

def ids : Forest S E A → List UInt64
  | nil => []
  | event _ _ rest => rest.ids
  | span id _ _ _ children rest => id :: (children.ids ++ rest.ids)

/-- No span has the id of one that it is in. -/
def Proper : Forest S E A → Prop
  | nil => True
  | event _ _ rest => rest.Proper
  | span id _ _ _ children rest => id ∉ children.ids ∧ children.Proper ∧ rest.Proper

/-- How the forest should be shown under a span. -/
def picture (parent : Option (Formatter.SpanState S)) : Forest S E A → List (Formatter.Line S E A)
  | nil => []
  | event metadata fields rest => .logged (parent.elim 0 (·.depth) + 1) metadata.level fields :: rest.picture parent
  | span id closed metadata fields children rest =>
    let state := ⟨parent.elim 0 (·.depth + 1), metadata.target, metadata.name, metadata.level, id⟩
    .opened state parent fields :: (children.picture (some state) ++
      ((if closed then [.ended state] else []) ++ rest.picture parent))

variable {p : UInt32}

theorem balanced_messages (forest : Forest S E A) :
    Balanced (((forest.messages p).filterMap Message.scope).map Prod.snd) := by
  induction forest with
  | nil => exact .nil
  | event metadata fields rest ih => exact ih
  | span id closed metadata fields children rest inside after =>
    have silent : ((if closed then [.spanClosed id] else [] : List (Message S E A)).filterMap Message.scope) = [] := by
      cases closed <;> rfl
    simp only [messages, List.filterMap_cons, List.filterMap_append, Message.scope, silent, List.nil_append, List.map_cons,
      List.map_append]
    exact .wrap id inside after

/-- A message of a processor about one of these spans, or about where it is. -/
def Concerns (p : UInt32) (ids : List UInt64) : Message S E A → Prop
  | .spanCreated created => created.parent = .current p ∧ created.id ∈ ids
  | .event e => e.spanId = .current p
  | .spanEntered id q | .spanExited id q => q = p ∧ id ∈ ids
  | .spanClosed id => id ∈ ids

theorem Concerns.mono {ids ids' : List UInt64} {m : Message S E A} (concerns : Concerns p ids m) (more : ids ⊆ ids') :
    Concerns p ids' m := by
  cases m with
  | spanCreated span => exact ⟨concerns.1, more concerns.2⟩
  | event e => exact concerns
  | spanEntered id q => exact ⟨concerns.1, more concerns.2⟩
  | spanExited id q => exact ⟨concerns.1, more concerns.2⟩
  | spanClosed id => exact more concerns

theorem concerns_messages {forest : Forest S E A} {m : Message S E A} (member : m ∈ forest.messages p) :
    Concerns p forest.ids m := by
  induction forest with
  | nil => cases member
  | event metadata fields rest ih =>
    rcases List.mem_cons.mp member with rfl | member
    · exact rfl
    · exact ih member
  | span id closed metadata fields children rest inside after =>
    have here : id ∈ (span id closed metadata fields children rest).ids := List.mem_cons_self
    simp only [messages, List.mem_cons, List.mem_append] at member
    rcases member with rfl | rfl | member | rfl | member | member
    · exact ⟨rfl, here⟩
    · exact ⟨rfl, here⟩
    · exact (inside member).mono (List.subset_cons_of_subset _ (List.subset_append_left _ _))
    · exact ⟨rfl, here⟩
    · cases closed with
      | false => cases member
      | true =>
        rw [List.mem_singleton.mp member]
        exact here
    · exact (after member).mono (List.subset_cons_of_subset _ (List.subset_append_right _ _))

theorem Concerns.spanId {ids : List UInt64} {m : Message S E A} (concerns : Concerns p ids m) {id : UInt64}
    (span : m.spanId = some id) : id ∈ ids := by
  cases m with
  | spanCreated created =>
    cases span
    exact concerns.2
  | event e => cases span
  | spanEntered id' q =>
    cases span
    exact concerns.2
  | spanExited id' q =>
    cases span
    exact concerns.2
  | spanClosed id' =>
    cases span
    exact concerns

theorem Concerns.scope {ids : List UInt64} {m : Message S E A} (concerns : Concerns p ids m)
    {scope : UInt32 × Scope UInt64} (same : m.scope = some scope) : scope.1 = p := by
  cases m with
  | spanEntered id q =>
    cases same
    exact concerns.1
  | spanExited id q =>
    cases same
    exact concerns.1
  | _ => cases same

/-- Processors whose spans have ids of their own. -/
theorem separate_messages {forests : UInt32 → Forest S E A}
    (distinct : ∀ p q id, id ∈ (forests p).ids → id ∈ (forests q).ids → p = q) :
    Separate fun p => (forests p).messages p where
  nested p := nested_iff_follow.mpr (by rw [(balanced_messages (forests p)).follow]; rfl)
  here p m member scope same := (concerns_messages member).scope same
  created p span member := .inr (concerns_messages member).1
  distinct p q id := by
    rintro ⟨m, member, span⟩ ⟨m', member', span'⟩
    exact distinct p q id ((concerns_messages member).spanId span) ((concerns_messages member').spanId span')

end Forest

namespace Formatter

variable {S E A : Type} {p : UInt32}

/-- The span that the processor is in. -/
def current (f : Formatter S) (p : UInt32) : Option (SpanState S) := (f.resolveParent (.current p)).bind f.spans

theorem current_eq_of {f f' : Formatter S} {ids : List UInt64} (same : f'.spanStacks = f.spanStacks)
    (fresh : ∀ id ∈ f.spanStacks p, id ∉ ids) (spans : ∀ id, id ∉ ids → f'.spans id = f.spans id) :
    f'.current p = f.current p := by
  simp only [current, resolveParent, same]
  cases top : (f.spanStacks p).head? with
  | none => rfl
  | some id => exact spans id (fresh id (List.mem_of_mem_head? top))

/-- The end of a span, which is printed if it is reported. -/
theorem receive_closed (closed : Bool) {f : Formatter S} {id : UInt64} {state : SpanState S}
    (known : f.spans id = some state) :
    ∃ shown f', exec (receive (E := E) (A := A)) f (if closed then [.spanClosed id] else []) = .ok (shown, f') ∧
      shown.reduceOption = (if closed then [.ended state] else []) ∧ f'.spanStacks = f.spanStacks ∧
      ∀ id', id' ≠ id → f'.spans id' = f.spans id' := by
  cases closed with
  | false => exact ⟨[], f, rfl, rfl, rfl, fun _ _ => rfl⟩
  | true =>
    refine ⟨[(f.spans id).map Line.ended], _, rfl, ?_, rfl, fun id' other => Function.update_of_ne other _ _⟩
    rw [known]
    rfl

theorem receive_exited {f f' : Formatter S} {id : UInt64}
    (inside : f'.spanStacks = Function.update f.spanStacks p (id :: f.spanStacks p)) :
    receive (E := E) (A := A) f' (.spanExited id p) = .ok (none, { f' with spanStacks := f.spanStacks }) := by
  have top : f'.spanStacks p = id :: f.spanStacks p := by rw [inside, Function.update_self]
  rw [receive, top, List.head?_cons, if_pos rfl, List.tail_cons, inside, Function.update_idem, Function.update_eq_self]

/-- The messages of a forest are shown as the forest, wherever the processor is. -/
theorem receive_forest (forest : Forest S E A) {f : Formatter S} (proper : forest.Proper)
    (fresh : ∀ id ∈ f.spanStacks p, id ∉ forest.ids) :
    ∃ shown f', exec receive f (forest.messages p) = .ok (shown, f') ∧
      shown.reduceOption = forest.picture (f.current p) ∧ f'.spanStacks = f.spanStacks ∧
      ∀ id, id ∉ forest.ids → f'.spans id = f.spans id := by
  induction forest generalizing f with
  | nil => exact ⟨[], f, rfl, rfl, rfl, fun _ _ => rfl⟩
  | event metadata fields rest ih =>
    obtain ⟨shown, f', ran, lines, same, spans⟩ := ih proper fresh
    refine ⟨some (.logged ((f.current p).elim 0 (·.depth) + 1) metadata.level fields) :: shown, f', ?_, ?_, same, spans⟩
    · rw [Forest.messages, exec_cons_of_ok rfl, ran]
      rfl
    · rw [List.reduceOption_cons_of_some, lines]
      rfl
  | span id closed metadata fields children rest inside after =>
    obtain ⟨apart, proper, proper'⟩ := proper
    have others : ∀ id' ∈ f.spanStacks p, id' ≠ id ∧ id' ∉ children.ids ∧ id' ∉ rest.ids := by
      intro id' member
      have absent := fresh id' member
      rwa [Forest.ids, List.mem_cons, List.mem_append, not_or, not_or] at absent
    let state : SpanState S := ⟨(f.current p).elim 0 (·.depth + 1), metadata.target, metadata.name, metadata.level, id⟩
    let entered : Formatter S := ⟨Function.update f.spans id (some state),
      Function.update f.spanStacks p (id :: f.spanStacks p)⟩
    have within : entered.current p = some state := by
      simp only [current, resolveParent, entered, Function.update_self, List.head?_cons, Option.bind_some]
    have fresh₁ : ∀ id' ∈ entered.spanStacks p, id' ∉ children.ids := by
      intro id' member
      simp only [entered, Function.update_self] at member
      rcases List.mem_cons.mp member with rfl | member
      · exact apart
      · exact (others id' member).2.1
    obtain ⟨shown₁, f₁, ran₁, lines₁, same₁, spans₁⟩ := inside proper fresh₁
    have known : f₁.spans id = some state := by
      rw [spans₁ id apart]
      exact Function.update_self _ _ _
    have exited := receive_exited (E := E) (A := A) same₁
    obtain ⟨shown₂, f₂, ran₂, lines₂, same₂, spans₂⟩ :=
      receive_closed (E := E) (A := A) (f := { f₁ with spanStacks := f.spanStacks }) closed known
    have fresh₂ : ∀ id' ∈ f₂.spanStacks p, id' ∉ rest.ids := by
      rw [same₂]
      exact fun id' member => (others id' member).2.2
    obtain ⟨shown₃, f₃, ran₃, lines₃, same₃, spans₃⟩ := after proper' fresh₂
    have left : ∀ id', id' ∉ id :: children.ids → f₂.spans id' = f.spans id' := by
      intro id' absent
      rw [List.mem_cons, not_or] at absent
      rw [spans₂ id' absent.1, spans₁ id' absent.2]
      exact Function.update_of_ne absent.1 _ _
    have back : f₂.current p = f.current p := by
      refine current_eq_of same₂ (fun id' member => ?_) left
      rw [List.mem_cons, not_or]
      exact ⟨(others id' member).1, (others id' member).2.1⟩
    have ran : exec receive entered (children.messages p ++ .spanExited id p ::
        ((if closed then [.spanClosed id] else []) ++ rest.messages p)) =
          .ok (shown₁ ++ none :: (shown₂ ++ shown₃), f₃) := by
      apply exec_append_ok ran₁
      rw [exec_cons_of_ok exited, exec_append_ok ran₂ ran₃]
      rfl
    refine ⟨some (.opened state (f.current p) fields) :: none :: (shown₁ ++ none :: (shown₂ ++ shown₃)), f₃, ?_, ?_,
      same₃.trans same₂, ?_⟩
    · rw [Forest.messages, exec_cons_of_ok rfl]
      show Except.map _ (exec receive _ (.spanEntered id p :: _)) = _
      rw [exec_cons_of_ok rfl]
      show Except.map _ (Except.map _ (exec receive entered _)) = _
      rw [ran]
      rfl
    · rw [List.reduceOption_cons_of_some, List.reduceOption_cons_of_none, List.reduceOption_append,
        List.reduceOption_cons_of_none, List.reduceOption_append, lines₁, lines₂, lines₃, within, back]
      rfl
    · intro id' absent
      rw [Forest.ids, List.mem_cons, List.mem_append, not_or, not_or] at absent
      rw [spans₃ id' absent.2.2]
      apply left
      rw [List.mem_cons, not_or]
      exact ⟨absent.1, absent.2.1⟩

/-- However the processors are interleaved, each of them gets for its messages what it gets alone. -/
theorem receive_interleaved {forests : UInt32 → Forest S E A} (proper : ∀ p, (forests p).Proper)
    (distinct : ∀ p q id, id ∈ (forests p).ids → id ∈ (forests q).ids → p = q)
    {merged : List (UInt32 × Message S E A)} (interleaved : ∀ p, own p merged = (forests p).messages p) :
    ∃ shown f, exec receive (new : Formatter S) (merged.map Prod.snd) = .ok (shown, f) ∧
      ∀ p, ∃ f', exec receive (new : Formatter S) ((forests p).messages p) =
        .ok (own p ((merged.map Prod.fst).zip shown), f') := by
  have separate := Forest.separate_messages distinct
  have mine : ∀ p m, m ∈ (forests p).messages p → ∀ (shared alone : Formatter S) line alone',
      Agrees (fun p => (forests p).messages p) p shared alone → alone.receive m = .ok (line, alone') →
      ∃ shared', shared.receive m = .ok (line, shared') ∧ Agrees (fun p => (forests p).messages p) p shared' alone' := by
    intro p m member shared alone line alone' agrees received
    have observed : alone.observe m = .ok ((alone.parentOf m, line), alone') := observe_ok.mpr ⟨received, rfl⟩
    have events : ∀ e, m = .event e → e.spanId.Local (fun p => (forests p).messages p) p := by
      rintro e rfl
      have here : e.spanId = .current p := Forest.concerns_messages member
      rw [here]
      exact rfl
    obtain ⟨shared', observed', agrees'⟩ := agrees.mine separate member events observed
    exact ⟨shared', (observe_ok.mp observed').1, agrees'⟩
  have others : ∀ p m, m ∈ (forests p).messages p → ∀ q, q ≠ p → ∀ (shared alone : Formatter S) line shared',
      Agrees (fun p => (forests p).messages p) q shared alone → shared.receive m = .ok (line, shared') →
      Agrees (fun p => (forests p).messages p) q shared' alone :=
    fun p m member q other shared alone line shared' agrees received => agrees.others separate other member received
  have fresh : ∀ p, Agrees (fun p => (forests p).messages p) p (new : Formatter S) new :=
    fun p => ⟨rfl, by simp [new], fun _ _ => rfl⟩
  have completes : ∀ p, Completes receive (new : Formatter S) (own p merged) := by
    intro p
    obtain ⟨shown, f', ran, _⟩ := receive_forest (p := p) (forests p) (f := (new : Formatter S)) (proper p) (by simp [new])
    rw [interleaved]
    exact ⟨shown, f', ran⟩
  have inputs : ∀ p, ∀ m ∈ own p merged, m ∈ (forests p).messages p := by
    intro p m member
    rwa [← interleaved]
  obtain ⟨shown, f, ran, each⟩ := exec_interleaved mine others inputs fresh completes
  refine ⟨shown, f, ran, fun p => ?_⟩
  rw [← interleaved]
  exact each p

/-- However the processors are interleaved, each of them has its spans and events shown as it nests them, and the
    formatter does not abort. -/
theorem interleaved_forests_shown {forests : UInt32 → Forest S E A} (proper : ∀ p, (forests p).Proper)
    (distinct : ∀ p q id, id ∈ (forests p).ids → id ∈ (forests q).ids → p = q)
    {merged : List (UInt32 × Message S E A)} (interleaved : ∀ p, own p merged = (forests p).messages p) :
    ∃ shown f, exec receive (new : Formatter S) (merged.map Prod.snd) = .ok (shown, f) ∧
      ∀ p, (own p ((merged.map Prod.fst).zip shown)).reduceOption = (forests p).picture none := by
  obtain ⟨shown, f, ran, each⟩ := receive_interleaved proper distinct interleaved
  refine ⟨shown, f, ran, fun p => ?_⟩
  obtain ⟨f', alone⟩ := each p
  obtain ⟨shown', f'', received, lines, _⟩ :=
    receive_forest (p := p) (forests p) (f := (new : Formatter S)) (proper p) (by simp [new])
  cases alone.symm.trans received
  exact lines

/-- Processor 0 has an event in a span, and processor 1 a span whose end is reported. -/
def branches (p : UInt32) : Forest String Unit Unit :=
  if p = 0 then .span 1 false inner () (.event inner () .nil) .nil
  else if p = 1 then .span 2 true inner () .nil .nil
  else .nil

def branchesMerged : List (UInt32 × Message String Unit Unit) :=
  [(0, .spanCreated ⟨1, .current 0, inner, ()⟩), (1, .spanCreated ⟨2, .current 1, inner, ()⟩), (0, .spanEntered 1 0),
    (1, .spanEntered 2 1), (0, .event ⟨.current 0, inner, ()⟩), (1, .spanExited 2 1), (1, .spanClosed 2),
    (0, .spanExited 1 0)]

theorem interleaved_forests_shown_branches :
    ∃ shown f, exec receive new (branchesMerged.map Prod.snd) = .ok (shown, f) ∧
      ∀ p, (own p ((branchesMerged.map Prod.fst).zip shown)).reduceOption = (branches p).picture none := by
  have ids : ∀ p id, id ∈ (branches p).ids → p = 0 ∧ id = 1 ∨ p = 1 ∧ id = 2 := by
    intro p id member
    unfold branches at member
    split at member
    · rename_i zero
      exact .inl ⟨zero, List.mem_singleton.mp member⟩
    · split at member
      · rename_i one
        exact .inr ⟨one, List.mem_singleton.mp member⟩
      · cases member
  apply interleaved_forests_shown
  · intro p
    unfold branches
    split
    · simp [Forest.Proper, Forest.ids]
    · split <;> simp [Forest.Proper, Forest.ids]
  · intro p q id member member'
    rcases ids p id member with ⟨rfl, rfl⟩ | ⟨rfl, rfl⟩ <;> rcases ids q _ member' with ⟨rfl, same⟩ | ⟨rfl, same⟩
    · rfl
    · cases same
    · cases same
    · rfl
  · intro p
    unfold branches
    split
    · subst p
      rfl
    · split
      · subst p
        rfl
      · rename_i zero one
        simp [own, branchesMerged, Ne.symm zero, Ne.symm one, Forest.messages]

end Formatter

end Platypos.Ktrace
