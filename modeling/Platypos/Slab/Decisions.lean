import Platypos.Slab.References

namespace PlatyposSlab.Machine

open CasLoop TaggedStack Schedule

variable {V P : Type}

/-- A call with its answer, at the step that settles it. -/
inductive Decision (V : Type) where
  | inserted (index generation : Nat) (value : V)
  | full (value : V)
  | got (idx : Idx) (value : Option V)
  | removed (idx : Idx) (present : Bool)

abbrev Entries (V : Type) := Nat → Nat → Option V

def Entries.set (m : Entries V) (index generation : Nat) (value : Option V) : Entries V :=
  Function.update m index (Function.update (m index) generation value)

namespace Decision

def effect (m : Entries V) : Decision V → Entries V
  | .inserted index generation value => m.set index generation (some value)
  | .full _ => m
  | .got _ _ => m
  | .removed idx _ => m.set idx.index idx.generation none

def call : Decision V → Action V
  | .inserted _ _ value => .insert value
  | .full value => .insert value
  | .got idx _ => .get idx
  | .removed idx _ => .remove idx

def issued : Decision V → Option (Issued V)
  | .inserted index generation value => some ⟨index, generation, value⟩
  | _ => none

end Decision

/-- What a plain map holds after the calls. -/
def entries (decisions : List (Decision V)) : Entries V := decisions.foldl Decision.effect fun _ _ => none

/-- The answer is that of a plain map after the calls before. An insert may find no room, and never gets a key that was
    in use before. -/
def Decision.Fits (past : List (Decision V)) : Decision V → Prop
  | .inserted index generation _ => ∀ value, .inserted index generation value ∉ past
  | .full _ => True
  | .got idx answer => answer = entries past idx.index idx.generation
  | .removed idx present => present = (entries past idx.index idx.generation).isSome

def Sequential (decisions : List (Decision V)) : Prop :=
  ∀ past decision rest, decisions = past ++ decision :: rest → decision.Fits past

theorem Sequential.snoc {decisions : List (Decision V)} (sequential : Sequential decisions) {decision : Decision V}
    (fits : decision.Fits decisions) : Sequential (decisions ++ [decision]) := by
  intro past decision' rest split
  rcases List.eq_nil_or_concat rest with rfl | ⟨rest, last, rfl⟩
  · obtain ⟨rfl, same⟩ := List.append_inj' split rfl
    cases same
    exact fits
  · rw [List.concat_eq_append, ← List.cons_append, ← List.append_assoc] at split
    exact sequential past decision' rest (List.append_inj' split rfl).1

theorem entries_snoc (decisions : List (Decision V)) (decision : Decision V) :
    entries (decisions ++ [decision]) = decision.effect (entries decisions) := by
  rw [entries, List.foldl_append]
  rfl

theorem Entries.set_apply (m : Entries V) (i g : Nat) (value : Option V) (j h : Nat) :
    m.set i g value j h = if j = i ∧ h = g then value else m j h := by
  by_cases index : j = i
  · subst index
    by_cases generation : h = g
    · subst generation
      rw [Entries.set, Function.update_self, Function.update_self, if_pos ⟨rfl, rfl⟩]
    · rw [Entries.set, Function.update_self, Function.update_of_ne generation, if_neg (by simp [generation])]
  · rw [Entries.set, Function.update_of_ne index, if_neg (by simp [index])]

theorem Decision.effect_removed {m : Entries V} {idx : Idx} {present : Bool}
    (absent : m idx.index idx.generation = none) : (Decision.removed idx present).effect m = m := by
  funext i g
  rw [Decision.effect, Entries.set_apply]
  split
  · rename_i same
    rw [same.1, same.2, absent]
  · rfl

def Action.call : Action V → Option (Action V)
  | .insert value => some (.insert value)
  | .get idx => some (.get idx)
  | .remove idx => some (.remove idx)
  | _ => none

/-- The call that the processor is at, if its answer is still open. -/
def Pc.pending : Pc V → Option (Action V)
  | .popLoad value => some (.insert value)
  | .popRead value _ => some (.insert value)
  | .popSwap value _ _ => some (.insert value)
  | .allocLoad value _ => some (.insert value)
  | .allocStore value _ _ => some (.insert value)
  | .allocFill value _ => some (.insert value)
  | .acquire idx _ => some (.get idx)
  | .mark idx _ => some (.remove idx)
  | _ => none

namespace System

/-- The key leads to the value, and its insert is over. -/
structure Has (s : System V P) (i g : Nat) (value : V) : Prop where
  inside : i < s.slab.size
  state : (s.slab.lifecycle i).state = .allocated
  generation : (s.slab.lifecycle i).generation = g
  contents : s.slab.contents i = some value
  filled : ∀ q value, s.pc q ≠ .allocFill value i

variable [DecidableEq P]

/-- What the reference that was acquired leads to, or that there is none. -/
def got (s : System V P) (idx : Idx) : Outcome (Lifecycle.acquireReference idx.generation) → Option (Decision V)
  | .refused _ => some (.got idx none)
  | .committed _ _ => some (.got idx (s.slab.deref idx))
  | _ => none

def removed (idx : Idx) : Outcome (Lifecycle.markUnallocated idx.generation) → Option (Decision V)
  | .refused _ => some (.removed idx false)
  | .committed _ _ => some (.removed idx true)
  | _ => none

/-- The call that a step settles. -/
def decision (s : System V P) (p : P) : Action V → Option (Decision V)
  | .advance spurious =>
    match s.pc p with
    | .popLoad value => if s.slab.head = EMPTY then some (.full value) else none
    | .allocFill value i => some (.inserted i (s.slab.lifecycle i).generation value)
    | .acquire idx proposal => s.got idx (exchange _ proposal false (s.slab.lifecycle idx.index))
    | .mark idx proposal => removed idx (exchange _ proposal spurious (s.slab.lifecycle idx.index))
    | _ => none
  | .get idx =>
    if idx.index < s.slab.size then s.got idx (consider _ (s.slab.lifecycle idx.index)) else some (.got idx none)
  | .remove idx =>
    if idx.index < s.slab.size then removed idx (consider _ (s.slab.lifecycle idx.index)) else some (.removed idx false)
  | _ => none

/-- The calls of a run in the order in which they were settled. -/
def decisions (debug : Bool) : System V P → List (P × Action V) → List (P × Decision V)
  | _, [] => []
  | s, (p, action) :: schedule =>
    match s.step debug p action with
    | none => []
    | some s' => (s.decision p action).toList.map (p, ·) ++ decisions debug s' schedule

end System

section Views

variable {s s' : System V P} {i j g : Nat} {value : V}

theorem has_congr (size : s'.slab.size = s.slab.size)
    (state : (s'.slab.lifecycle i).state = .allocated ↔ (s.slab.lifecycle i).state = .allocated)
    (generation : (s'.slab.lifecycle i).generation = (s.slab.lifecycle i).generation)
    (contents : (s.slab.lifecycle i).state = .allocated → s'.slab.contents i = s.slab.contents i)
    (filled : (∀ q value, s'.pc q ≠ .allocFill value i) ↔ ∀ q value, s.pc q ≠ .allocFill value i) :
    s'.Has i g value ↔ s.Has i g value := by
  constructor
  · rintro ⟨inside, allocated, current, full, returned⟩
    have before := state.mp allocated
    exact ⟨size ▸ inside, before, generation ▸ current, contents before ▸ full, filled.mp returned⟩
  · rintro ⟨inside, allocated, current, full, returned⟩
    exact ⟨size ▸ inside, state.mpr allocated, generation.trans current, (contents allocated).trans full,
      filled.mpr returned⟩

variable [DecidableEq P] {p : P} {b : Pc V}

theorem filled_iff (leaves : ∀ value, s.pc p ≠ .allocFill value i) (enters : ∀ value, b ≠ .allocFill value i) :
    (∀ q value, Function.update s.pc p b q ≠ .allocFill value i) ↔ ∀ q value, s.pc q ≠ .allocFill value i := by
  apply forall_congr'
  intro q
  by_cases same : q = p
  · subst same
    rw [Function.update_self]
    exact iff_of_true enters leaves
  · rw [Function.update_of_ne same]

theorem has_move {slab : Slab V P} {refs : Multiset (P × Idx)} (size : slab.size = s.slab.size)
    (lifecycle : slab.lifecycle = s.slab.lifecycle) (contents : slab.contents = s.slab.contents)
    (leaves : ∀ value i, s.pc p ≠ .allocFill value i) (enters : ∀ value i, b ≠ .allocFill value i) :
    ({ s with slab := slab, refs := refs }.setPc p b).Has i g value ↔ s.Has i g value := by
  apply has_congr size
  · simp only [System.setPc, lifecycle]
  · simp only [System.setPc, lifecycle]
  · intro _
    simp only [System.setPc, contents]
  · exact filled_iff (leaves · i) (enters · i)

theorem has_exchange {refs : Multiset (P × Idx)} {new : Lifecycle}
    (generation : new.generation = (s.slab.lifecycle j).generation)
    (state : new.state = .allocated ↔ (s.slab.lifecycle j).state = .allocated)
    (leaves : ∀ value i, s.pc p ≠ .allocFill value i) (enters : ∀ value i, b ≠ .allocFill value i) :
    (({ s with refs := refs }.setLifecycle j new).setPc p b).Has i g value ↔ s.Has i g value := by
  have filled := filled_iff (leaves · i) (enters · i)
  by_cases here : i = j
  · subst here
    refine has_congr rfl ?_ ?_ (fun _ => rfl) filled
    · simpa only [System.setPc, System.setLifecycle, Function.update_self] using state
    · simpa only [System.setPc, System.setLifecycle, Function.update_self] using generation
  · refine has_congr rfl ?_ ?_ (fun _ => rfl) filled
    · simp only [System.setPc, System.setLifecycle, Function.update_of_ne here]
    · simp only [System.setPc, System.setLifecycle, Function.update_of_ne here]

/-- The holder of a slot stores its lifecycle. Nothing is found in it before or after. -/
theorem has_store {new : Lifecycle} (vacant : (s.slab.lifecycle j).state ≠ .allocated)
    (used : new.state = .allocated → ∃ value, b = .allocFill value j)
    (leaves : ∀ value i, s.pc p ≠ .allocFill value i) (enters : ∀ value i, b = .allocFill value i → i = j) :
    ((s.setLifecycle j new).setPc p b).Has i g value ↔ s.Has i g value := by
  by_cases here : i = j
  · subst here
    refine iff_of_false ?_ fun has => vacant has.state
    intro has
    have state := has.state
    simp only [System.setPc, System.setLifecycle, Function.update_self] at state
    obtain ⟨value', filling⟩ := used state
    exact has.filled p value' ((Function.update_self ..).trans filling)
  · have filled := filled_iff (leaves · i) fun value' filling => here (enters value' i filling)
    refine has_congr rfl ?_ ?_ (fun _ => rfl) filled
    · simp only [System.setPc, System.setLifecycle, Function.update_of_ne here]
    · simp only [System.setPc, System.setLifecycle, Function.update_of_ne here]

theorem has_mark {new : Lifecycle} (state : new.state ≠ .allocated) (leaves : ∀ value i, s.pc p ≠ .allocFill value i)
    (enters : ∀ value i, b ≠ .allocFill value i) :
    ((s.setLifecycle j new).setPc p b).Has i g value ↔ i ≠ j ∧ s.Has i g value := by
  by_cases here : i = j
  · subst here
    refine iff_of_false ?_ fun both => both.1 rfl
    intro has
    have allocated := has.state
    simp only [System.setPc, System.setLifecycle, Function.update_self] at allocated
    exact state allocated
  · rw [and_iff_right here]
    refine has_congr rfl ?_ ?_ (fun _ => rfl) (filled_iff (leaves · i) (enters · i))
    · simp only [System.setPc, System.setLifecycle, Function.update_of_ne here]
    · simp only [System.setPc, System.setLifecycle, Function.update_of_ne here]

theorem has_take {processor : Nat → Option P} (vacant : (s.slab.lifecycle j).state ≠ .allocated)
    (leaves : ∀ value i, s.pc p ≠ .allocFill value i) (enters : ∀ value i, b ≠ .allocFill value i) :
    ({ s with slab := { s.slab with
        contents := Function.update s.slab.contents j none, processor := processor } }.setPc p b).Has i g value ↔
      s.Has i g value := by
  refine has_congr rfl Iff.rfl rfl ?_ ?_
  · intro allocated
    have away : i ≠ j := by
      rintro rfl
      exact vacant allocated
    simp only [System.setPc, Function.update_of_ne away]
  · exact filled_iff (leaves · i) (enters · i)

/-- With its value an entry appears, under a key that nothing was found with. -/
theorem has_fill {place : Nat → Place P} {cells : List Nat} {locals : P → List Nat}
    (inv : Invariant s place cells locals) {filler : V} {processor : Nat → Option P}
    (filling : s.pc p = .allocFill filler j) :
    ({ s with slab := { s.slab with
        contents := Function.update s.slab.contents j (some filler), processor := processor } }.setPc p .idle).Has
          i g value ↔
      if i = j ∧ g = (s.slab.lifecycle j).generation then filler = value else s.Has i g value := by
  have before : (s.pc p).holding = some j := by rw [filling]; rfl
  have state := inv.suits before
  rw [filling] at state
  have others : ∀ q value', Function.update s.pc p .idle q ≠ .allocFill value' j := by
    intro q value' again
    rcases update_cases again with ⟨_, this⟩ | ⟨differ, earlier⟩
    · cases this
    · exact inv.held_ne before differ (by rw [earlier]; rfl)
  by_cases here : i = j
  · subst here
    by_cases current : g = (s.slab.lifecycle i).generation
    · subst current
      rw [if_pos ⟨rfl, rfl⟩]
      constructor
      · intro has
        have contents := has.contents
        simp only [System.setPc, Function.update_self, Option.some.injEq] at contents
        exact contents
      · rintro rfl
        exact ⟨(inv.held before).1, state, rfl, Function.update_self .., others⟩
    · rw [if_neg fun both => current both.2]
      exact iff_of_false (fun has => current has.generation.symm) fun has => has.filled p filler filling
  · rw [if_neg fun both => here both.1]
    refine has_congr rfl Iff.rfl rfl ?_ ?_
    · intro _
      simp only [System.setPc, Function.update_of_ne here]
    · apply filled_iff
      · intro value' again
        cases filling.symm.trans again
        exact here rfl
      · simp

end Views

/-- The plain map holds what can be found in the slots. -/
def Mirrors (s : System V P) (decisions : List (Decision V)) : Prop :=
  ∀ i g value, entries decisions i g = some value ↔ s.Has i g value

/-- The step gives the answers that a plain map gives, and leaves what it leaves. -/
structure Follows (decisions : List (Decision V)) (decision : Option (Decision V)) (s' : System V P) : Prop where
  fits : ∀ d ∈ decision, d.Fits decisions
  mirrors : Mirrors s' (decisions ++ decision.toList)

section Following

variable {s s' : System V P} {decisions : List (Decision V)} (mirrors : Mirrors s decisions)

include mirrors

theorem Mirrors.quiet (same : ∀ i g value, s'.Has i g value ↔ s.Has i g value) : Follows decisions none s' := by
  refine ⟨by simp, ?_⟩
  intro i g value
  rw [Option.toList_none, List.append_nil, mirrors, same]

/-- An answer that leaves the map as it is. -/
theorem Mirrors.answer {d : Decision V} (still : d.effect (entries decisions) = entries decisions)
    (fits : d.Fits decisions) (same : ∀ i g value, s'.Has i g value ↔ s.Has i g value) :
    Follows decisions (some d) s' := by
  refine ⟨by simpa using fits, ?_⟩
  intro i g value
  rw [Option.toList_some, entries_snoc, still, mirrors, same]

theorem Mirrors.absent {i g : Nat} (none : ¬ ((s.slab.lifecycle i).state = .allocated ∧
    (s.slab.lifecycle i).generation = g)) : entries decisions i g = .none := by
  rw [Option.eq_none_iff_forall_ne_some]
  intro value present
  have has := (mirrors i g value).mp present
  exact none ⟨has.state, has.generation⟩

theorem Mirrors.outside {i g : Nat} (outside : ¬ i < s.slab.size) : entries decisions i g = .none := by
  rw [Option.eq_none_iff_forall_ne_some]
  intro value present
  exact outside ((mirrors i g value).mp present).inside

theorem Mirrors.afterRelease [DecidableEq P] {p : P} {idx : Idx} (leaves : ∀ value i, s.pc p ≠ .allocFill value i)
    {outcome : Outcome (Lifecycle.releaseReference idx.generation)}
    (allowed : outcome.Of (s.slab.lifecycle idx.index)) : Follows decisions none (s.afterRelease p idx outcome) := by
  apply mirrors.quiet
  intro i g value
  cases outcome with
  | refused error => exact has_move rfl rfl rfl leaves (by simp)
  | panicked reason => exact has_move rfl rfl rfl leaves (by simp)
  | retry proposal => exact has_move rfl rfl rfl leaves (by simp)
  | committed new last =>
    obtain ⟨_, _, generation, state, _, _⟩ := Lifecycle.releaseReference_propose allowed
    refine has_exchange generation (by rw [state]) leaves ?_
    cases last <;> simp

variable {issued : List (Issued V)} (valued : Valued s issued)

include valued

theorem Mirrors.present {i : Nat} (inside : i < s.slab.size) (state : (s.slab.lifecycle i).state = .allocated)
    (filled : ∀ q value, s.pc q ≠ .allocFill value i) :
    ∃ value, s.slab.contents i = some value ∧ entries decisions i (s.slab.lifecycle i).generation = some value := by
  rcases valued.used i (.inl state) with ⟨q, value, filling⟩ | ⟨value, full, _⟩
  · exact absurd filling (filled q value)
  · exact ⟨value, full, (mirrors ..).mpr ⟨inside, state, rfl, full, filled⟩⟩

variable [DecidableEq P] {p : P} {idx : Idx} (leaves : ∀ value i, s.pc p ≠ .allocFill value i)
  (inside : idx.index < s.slab.size)

include leaves inside

theorem Mirrors.afterAcquire {outcome : Outcome (Lifecycle.acquireReference idx.generation)}
    (allowed : outcome.Of (s.slab.lifecycle idx.index))
    (returned : ∀ new, outcome = .committed new () → ∀ q value, s.pc q = .allocFill value idx.index →
      (s.slab.lifecycle idx.index).generation ≠ idx.generation) :
    Follows decisions (s.got idx outcome) (s.afterAcquire p idx outcome) := by
  have still : ∀ b : Pc V, (∀ value i, b ≠ .allocFill value i) →
      ∀ i g value, (s.setPc p b).Has i g value ↔ s.Has i g value :=
    fun b enters i g value => has_move rfl rfl rfl leaves enters
  cases outcome with
  | refused error =>
    refine mirrors.answer rfl ?_ (still _ (by simp))
    exact (mirrors.absent (Lifecycle.acquireReference_refuse allowed)).symm
  | panicked reason => exact mirrors.quiet (still _ (by simp))
  | retry proposal => exact mirrors.quiet (still _ (by simp))
  | committed new result =>
    obtain ⟨current, state, generation, state', _⟩ := Lifecycle.acquireReference_propose allowed
    obtain ⟨value, full, present⟩ := mirrors.present valued inside state
      fun q value filling => returned new rfl q value filling current
    refine mirrors.answer rfl ?_ ?_
    · rw [current] at present
      exact full.trans present.symm
    · intro i g value
      exact has_exchange generation (by simp [state, state']) leaves (by simp)

theorem Mirrors.afterMark {outcome : Outcome (Lifecycle.markUnallocated idx.generation)}
    (allowed : outcome.Of (s.slab.lifecycle idx.index))
    (returned : ∀ new unallocated, outcome = .committed new unallocated → ∀ q value,
      s.pc q = .allocFill value idx.index → (s.slab.lifecycle idx.index).generation ≠ idx.generation) :
    Follows decisions (System.removed idx outcome) (s.afterMark p idx outcome) := by
  have still : ∀ b : Pc V, (∀ value i, b ≠ .allocFill value i) →
      ∀ i g value, (s.setPc p b).Has i g value ↔ s.Has i g value :=
    fun b enters i g value => has_move rfl rfl rfl leaves enters
  cases outcome with
  | refused error =>
    have absent := mirrors.absent (Lifecycle.markUnallocated_refuse allowed)
    refine mirrors.answer (Decision.effect_removed absent) ?_ (still _ (by simp))
    rw [Decision.Fits, absent]
    rfl
  | panicked reason => exact mirrors.quiet (still _ (by simp))
  | retry proposal => exact mirrors.quiet (still _ (by simp))
  | committed new unallocated =>
    obtain ⟨current, state, _, _, state', _⟩ := Lifecycle.markUnallocated_propose allowed
    obtain ⟨value, _, present⟩ := mirrors.present valued inside state
      fun q value filling => returned new unallocated rfl q value filling current
    rw [current] at present
    refine ⟨?_, ?_⟩
    · simp [System.removed, Decision.Fits, present]
    · intro i g value
      have gone : new.state ≠ .allocated := by
        rw [state']
        cases unallocated <;> simp
      rw [System.removed, Option.toList_some, entries_snoc, Decision.effect, Entries.set_apply, System.afterMark,
        has_mark gone leaves (by cases unallocated <;> simp), ← mirrors]
      by_cases here : i = idx.index
      · subst here
        refine iff_of_false ?_ fun both => both.1 rfl
        split
        · simp
        · rename_i other
          intro found
          exact other ⟨rfl, ((mirrors ..).mp found).generation.symm.trans current⟩
      · rw [if_neg fun both => here both.1, and_iff_right here]

end Following

end PlatyposSlab.Machine
