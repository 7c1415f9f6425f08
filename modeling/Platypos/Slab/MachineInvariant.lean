import Mathlib.Data.Multiset.Filter
import Platypos.Slab.Machine

namespace PlatyposSlab.Machine

open CasLoop TaggedStack Chain

variable {V P : Type}

/-- The slot in the hands of the processor: taken off a list and not yet in use, or on its way back. -/
def Pc.holding : Pc V → Option Nat
  | .allocLoad _ index => some index
  | .allocStore _ index _ => some index
  | .allocFill _ index => some index
  | .clearLoad index => some index
  | .clearStore index _ => some index
  | .clearTake index => some index
  | .pushLocal index => some index
  | .pushTag index => some index
  | .pushLoad index _ => some index
  | .pushWrite index _ _ => some index
  | .pushSwap index _ _ => some index
  | _ => none

def Pc.target : Pc V → Option Nat
  | .acquire idx _ => some idx.index
  | .release idx _ => some idx.index
  | .mark idx _ => some idx.index
  | _ => none

def Pc.phase : Pc V → Phase Nat
  | .popRead _ oldHead => .loaded oldHead
  | .popSwap _ oldHead newHead => .swapping oldHead newHead
  | .pushLoad index tag => .pending (Entry.pack index tag)
  | .pushWrite index tag _ => .pending (Entry.pack index tag)
  | .pushSwap index tag _ => .pending (Entry.pack index tag)
  | _ => .away

def Pc.Suits (l : Lifecycle) : Pc V → Prop
  | .allocStore _ _ new => l.state = .unallocated ∧ l.refcount = 0 ∧ new.state = .allocated ∧ new.refcount = 0
  | .allocFill _ _ => l.state = .allocated
  | .clearLoad _ => l.state ≠ .allocated ∧ l.refcount = 0
  | .clearStore _ new => l.state ≠ .allocated ∧ l.refcount = 0 ∧ new.state = .unallocated ∧ new.refcount = 0
  | _ => l.state = .unallocated ∧ l.refcount = 0

/-- What the place of a slot says about its lifecycle. -/
def Suited (pc : P → Pc V) (i : Nat) (l : Lifecycle) : Place P → Prop
  | .inUse => l.state = .allocated ∨ (l.state = .zombie ∧ 0 < l.refcount)
  | .held p => (∃ reason, pc p = .panicked reason) ∨ ((pc p).holding = some i ∧ (pc p).Suits l)
  | _ => l.state = .unallocated ∧ l.refcount = 0

def refsAt (refs : Multiset (P × Idx)) (i : Nat) : Multiset Nat :=
  (refs.filter fun r => r.2.index = i).map fun r => r.2.generation

theorem refsAt_cons (r : P × Idx) (refs : Multiset (P × Idx)) (i : Nat) :
    refsAt (r ::ₘ refs) i = if r.2.index = i then r.2.generation ::ₘ refsAt refs i else refsAt refs i := by
  unfold refsAt
  by_cases same : r.2.index = i <;> simp [same]

/-- What holds of one processor. -/
structure Placed (slab : Slab V P) (refs : Multiset (P × Idx)) (place : Nat → Place P) (p : P) (pc : Pc V) : Prop where
  hands : ∀ i, pc.holding = some i → i < slab.size ∧ place i = .held p
  dropping : ∀ idx proposal, pc = .release idx proposal → (p, idx) ∈ refs
  target : ∀ i, pc.target = some i → i < slab.size
  written : ∀ i t old, pc = .pushSwap i t old → slab.next i = old
  ends : ∀ x, pc.phase.seen = some x → x ≠ EMPTY

structure Invariant (s : System V P) (place : Nat → Place P) (cells : List Nat) (locals : P → List Nat) : Prop where
  fits : s.slab.size < 2^18
  shelves : Shelves s.slab.size s.slab.next s.slab.head s.slab.heads place cells locals
  placed : ∀ p, Placed s.slab s.refs place p (s.pc p)
  suited : ∀ i < s.slab.size, Suited s.pc i (s.slab.lifecycle i) (place i)
  counted : ∀ i, (s.slab.lifecycle i).Counted (refsAt s.refs i)
  tagged : Tagged 1 Entry.tag Entry.index s.slab.tag s.slab.next (words s.slab.next s.slab.head cells)
    (Pc.phase ∘ s.pc)

theorem Placed.kept {slab slab' : Slab V P} {refs refs' : Multiset (P × Idx)} {place place' : Nat → Place P} {p : P}
    {pc : Pc V} (placed : Placed slab refs place p pc) (size : slab'.size = slab.size)
    (hands : ∀ i, pc.holding = some i → place i = .held p → place' i = .held p ∧ slab'.next i = slab.next i)
    (held : ∀ idx, (p, idx) ∈ refs → (p, idx) ∈ refs') : Placed slab' refs' place' p pc where
  hands i holding := by
    obtain ⟨inside, here⟩ := placed.hands i holding
    exact ⟨size ▸ inside, (hands i holding here).1⟩
  dropping idx proposal releasing := held idx (placed.dropping idx proposal releasing)
  target i aimed := size ▸ placed.target i aimed
  written i t old swapping := by
    have holding : pc.holding = some i := by rw [swapping]; rfl
    rw [(hands i holding (placed.hands i holding).2).2]
    exact placed.written i t old swapping
  ends := placed.ends

theorem Placed.idle (slab : Slab V P) (refs : Multiset (P × Idx)) (place : Nat → Place P) (p : P) :
    Placed slab refs place p (.idle : Pc V) := by
  constructor <;> simp [Pc.holding, Pc.target, Pc.phase, Phase.seen]

theorem Placed.panicked (slab : Slab V P) (refs : Multiset (P × Idx)) (place : Nat → Place P) (p : P) (reason : Panic) :
    Placed slab refs place p (.panicked reason : Pc V) := by
  constructor <;> simp [Pc.holding, Pc.target, Pc.phase, Phase.seen]

theorem Placed.holder {slab : Slab V P} {refs : Multiset (P × Idx)} {place : Nat → Place P} {p : P} {pc : Pc V}
    {i : Nat} (held : pc.holding = some i) (inside : i < slab.size) (here : place i = .held p)
    (written : ∀ i t old, pc = .pushSwap i t old → slab.next i = old) : Placed slab refs place p pc := by
  refine ⟨?_, ?_, ?_, written, ?_⟩
  · intro j holding
    rw [held, Option.some.injEq] at holding
    exact holding ▸ ⟨inside, here⟩
  · intro idx proposal releasing
    rw [releasing] at held
    cases held
  · intro j aimed
    cases pc <;> simp_all [Pc.holding, Pc.target]
  · intro x seen
    cases pc <;> simp_all [Pc.holding, Pc.phase, Phase.seen]

theorem Pc.phase_ne_pending {pc : Pc V} (free : pc.holding = none) (x : Nat) : pc.phase ≠ .pending x := by
  cases pc <;> simp_all [Pc.holding, Pc.phase]

theorem Pc.calm_of_holding {pc : Pc V} {i : Nat} (held : pc.holding = some i) (reason : Panic) :
    pc ≠ .panicked reason := by
  intro panicked
  rw [panicked] at held
  cases held

theorem Pc.only_holding {pc : Pc V} {i : Nat} (held : pc.holding = some i) (j : Nat) (again : pc.holding = some j) :
    j = i :=
  Option.some.inj (again.symm.trans held)

theorem Pc.Suits.filling {pc : Pc V} {i : Nat} {l : Lifecycle} (suits : pc.Suits l) (held : pc.holding = some i)
    (used : l.state = .allocated ∨ 0 < l.refcount) : ∃ value, pc = .allocFill value i := by
  cases pc <;> simp_all [Pc.holding, Pc.Suits]

section Reading

variable {s : System V P} {place : Nat → Place P} {cells : List Nat} {locals : P → List Nat} {p : P}
  (inv : Invariant s place cells locals)

include inv

theorem Invariant.head_mem (more : s.slab.head ≠ EMPTY) :
    s.slab.head ∈ words s.slab.next s.slab.head cells := by
  cases cells with
  | nil =>
    have ended := inv.shelves.globalLinked
    simp [Linked, globalCell, more] at ended
  | cons i cells => exact List.mem_cons_self

theorem Invariant.index_mem {x : Nat} (member : x ∈ words s.slab.next s.slab.head cells) : Entry.index x ∈ cells := by
  obtain ⟨i, inside, points⟩ := inv.shelves.globalLinked.decode_of_mem_words member
  unfold globalCell at points
  split at points
  · cases points
  · rwa [Option.some.inj points]

theorem Invariant.held {i : Nat} (holding : (s.pc p).holding = some i) : i < s.slab.size ∧ place i = .held p :=
  (inv.placed p).hands i holding

theorem Invariant.unlisted {i : Nat} (holding : (s.pc p).holding = some i) : ¬ (place i).Listed := by
  rw [(inv.held holding).2]
  exact id

theorem Invariant.index_ne {i x : Nat} (holding : (s.pc p).holding = some i)
    (member : x ∈ words s.slab.next s.slab.head cells) : Entry.index x ≠ i := by
  intro same
  exact inv.shelves.notMem_global (inv.unlisted holding) (same ▸ inv.index_mem member)

theorem Invariant.suits {i : Nat} (holding : (s.pc p).holding = some i) : (s.pc p).Suits (s.slab.lifecycle i) := by
  obtain ⟨inside, here⟩ := inv.held holding
  have suited := inv.suited i inside
  rw [here] at suited
  rcases suited with ⟨reason, panicked⟩ | ⟨_, suits⟩
  · exact absurd panicked (Pc.calm_of_holding holding reason)
  · exact suits

theorem Invariant.held_ne {i : Nat} {q : P} (holding : (s.pc p).holding = some i) (differ : q ≠ p) :
    (s.pc q).holding ≠ some i := by
  intro again
  have both := (inv.held holding).2.symm.trans (inv.held again).2
  simp only [Place.held.injEq] at both
  exact differ both.symm

theorem Invariant.counted_update {i : Nat} {l : Lifecycle} {refs : Multiset (P × Idx)}
    (elsewhere : ∀ j, j ≠ i → refsAt refs j = refsAt s.refs j) (mine : l.Counted (refsAt refs i)) (j : Nat) :
    (Function.update s.slab.lifecycle i l j).Counted (refsAt refs j) := by
  by_cases same : j = i
  · subst same
    rwa [Function.update_self]
  · rw [Function.update_of_ne same, elsewhere j same]
    exact inv.counted j

end Reading

theorem Suited.free {pc : P → Pc V} {i : Nat} {l : Lifecycle} {here : Place P} (suited : Suited pc i l here)
    (listed : here.Listed) : l.state = .unallocated ∧ l.refcount = 0 := by
  cases here <;> first | exact suited | exact listed.elim

theorem Suited.used {pc : P → Pc V} {i : Nat} {l : Lifecycle} {here : Place P} (suited : Suited pc i l here)
    (used : l.state = .allocated ∨ 0 < l.refcount) :
    here = .inUse ∨ ∃ q, here = .held q ∧ ((∃ reason, pc q = .panicked reason) ∨
      (∃ value, pc q = .allocFill value i) ∧ l.state = .allocated) := by
  have some : ¬ (l.state = .unallocated ∧ l.refcount = 0) := by
    intro free
    rcases used with state | referenced
    · simp [free.1] at state
    · omega
  cases here with
  | inUse => exact .inl rfl
  | held q =>
    refine .inr ⟨q, rfl, ?_⟩
    rcases suited with panicked | ⟨holding, suits⟩
    · exact .inl panicked
    · obtain ⟨value, filling⟩ := suits.filling holding used
      rw [filling] at suits
      exact .inr ⟨⟨value, filling⟩, suits⟩
  | _ => exact absurd suited some

section Suited

variable [DecidableEq P] {pc : P → Pc V} {i : Nat} {l : Lifecycle} {here : Place P} {p : P} {b : Pc V}

theorem Suited.other (suited : Suited pc i l here) (elsewhere : here ≠ .held p) :
    Suited (Function.update pc p b) i l here := by
  cases here with
  | held q =>
    have differ : q ≠ p := fun same => elsewhere (same ▸ rfl)
    simpa only [Suited, Function.update_of_ne differ] using suited
  | _ => exact suited

theorem Suited.moved (suited : Suited pc i l here) (calm : ∀ reason, pc p ≠ .panicked reason)
    (free : (pc p).holding ≠ some i) : Suited (Function.update pc p b) i l here := by
  apply suited.other
  intro same
  subst same
  rcases suited with ⟨reason, panicked⟩ | ⟨held, _⟩
  · exact calm reason panicked
  · exact free held

end Suited

end PlatyposSlab.Machine
