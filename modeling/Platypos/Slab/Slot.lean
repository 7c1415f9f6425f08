import Mathlib.Algebra.Group.Nat.Defs
import Mathlib.Data.Multiset.MapFold
import Platypos.Library.CasLoop

namespace PlatyposSlab

open CasLoop

inductive State where
  | allocated
  | unallocated
  | zombie
  deriving DecidableEq, Repr

/-- The packed lifecycle word of a slot, by its fields: two words are equal exactly when their fields are. -/
structure Lifecycle where
  state : State
  generation : Nat
  refcount : Nat
  generationFits : generation < 2^46
  refcountFits : refcount < 2^16
  deriving DecidableEq

inductive LifecycleError where
  | wrongGeneration (expected actual : Nat)
  | wrongState (expected actual : State)
  deriving DecidableEq, Repr

inductive Panic where
  | generationOverflow
  | refcountOverflow
  | refcountUnderflow
  | unallocatedReferences
  | clearedReferences
  | releaseFailed
  | indexOutOfBounds
  | indexOverflow
  | tagOverflow
  | uninitialized
  | slabSize
  deriving DecidableEq, Repr

namespace Lifecycle

def acquireReference (expected : Nat) (l : Lifecycle) : Attempt Lifecycle LifecycleError Panic Unit :=
  if l.generation ≠ expected then .refuse (.wrongGeneration expected l.generation)
  else if l.state ≠ .allocated then .refuse (.wrongState .allocated l.state)
  else if fits : l.refcount + 1 < 2^16 then
    .propose { l with refcount := l.refcount + 1, refcountFits := fits } ()
  else .panic .refcountOverflow

def releaseReference (expected : Nat) (l : Lifecycle) : Attempt Lifecycle LifecycleError Panic Bool :=
  if l.generation ≠ expected then .refuse (.wrongGeneration expected l.generation)
  else if l.state = .unallocated then .refuse (.wrongState .allocated .unallocated)
  else if l.refcount = 0 then .panic .refcountUnderflow
  else
    .propose { l with refcount := l.refcount - 1, refcountFits := lt_of_le_of_lt (Nat.sub_le _ _) l.refcountFits }
      (decide (l.state = .zombie ∧ l.refcount - 1 = 0))

def markUnallocated (expected : Nat) (l : Lifecycle) : Attempt Lifecycle LifecycleError Panic Bool :=
  if l.generation ≠ expected ∨ l.state ≠ .allocated then
    if l.generation ≠ expected then .refuse (.wrongGeneration expected l.generation)
    else .refuse (.wrongState .allocated l.state)
  else if 0 < l.refcount then .propose { l with state := .zombie } false
  else .propose { l with state := .unallocated } true

def allocate (debug : Bool) (l : Lifecycle) : Except Panic Lifecycle :=
  if fits : l.generation + 1 < 2^46 then
    if debug = true → l.refcount = 0 then
      .ok { l with generation := l.generation + 1, state := .allocated, generationFits := fits }
    else .error .unallocatedReferences
  else .error .generationOverflow

def clear (debug : Bool) (l : Lifecycle) : Except Panic Lifecycle :=
  if debug = true → l.refcount = 0 then .ok { l with state := .unallocated } else .error .clearedReferences

variable {expected : Nat} {l new : Lifecycle}

theorem acquireReference_propose (proposed : l.acquireReference expected = .propose new ()) :
    l.generation = expected ∧ l.state = .allocated ∧
      new.generation = l.generation ∧ new.state = .allocated ∧ new.refcount = l.refcount + 1 := by
  unfold acquireReference at proposed
  split at proposed
  · cases proposed
  · split at proposed
    · cases proposed
    · split at proposed
      · cases proposed
        simp_all
      · cases proposed

theorem acquireReference_panic {reason : Panic} (panicked : l.acquireReference expected = .panic reason) :
    reason = .refcountOverflow ∧ 2^16 ≤ l.refcount + 1 := by
  unfold acquireReference at panicked
  split at panicked
  · cases panicked
  · split at panicked
    · cases panicked
    · split at panicked
      · cases panicked
      · rename_i full
        cases panicked
        exact ⟨rfl, Nat.le_of_not_lt full⟩

theorem acquireReference_room (current : l.generation = expected) (state : l.state = .allocated)
    (room : l.refcount + 1 < 2^16) : ∃ new, l.acquireReference expected = .propose new () := by
  unfold acquireReference
  rw [if_neg (by simpa using current), if_neg (by simpa using state), dif_pos room]
  exact ⟨_, rfl⟩

theorem acquireReference_full (current : l.generation = expected) (state : l.state = .allocated)
    (full : l.refcount + 1 = 2^16) : l.acquireReference expected = .panic .refcountOverflow := by
  unfold acquireReference
  rw [if_neg (by simpa using current), if_neg (by simpa using state), dif_neg (by omega)]

theorem acquireReference_refuse {error : LifecycleError} (refused : l.acquireReference expected = .refuse error) :
    ¬ (l.state = .allocated ∧ l.generation = expected) := by
  intro valid
  simp only [acquireReference, valid.1, valid.2, ne_eq, not_true_eq_false, if_false] at refused
  split at refused <;> cases refused

theorem releaseReference_propose {last : Bool} (proposed : l.releaseReference expected = .propose new last) :
    l.generation = expected ∧ l.state ≠ .unallocated ∧ new.generation = l.generation ∧ new.state = l.state ∧
      l.refcount = new.refcount + 1 ∧ (last = true ↔ l.state = .zombie ∧ new.refcount = 0) := by
  unfold releaseReference at proposed
  split at proposed
  · cases proposed
  · split at proposed
    · cases proposed
    · split at proposed
      · cases proposed
      · cases proposed
        rename_i generation state positive
        refine ⟨by simpa using generation, state, rfl, rfl, ?_, by simp⟩
        simp only
        omega

theorem releaseReference_counted (current : l.generation = expected) (state : l.state ≠ .unallocated)
    (counted : 0 < l.refcount) : ∃ new last, l.releaseReference expected = .propose new last := by
  unfold releaseReference
  rw [if_neg (by simpa using current), if_neg state, if_neg (by omega)]
  exact ⟨_, _, rfl⟩

theorem markUnallocated_propose {unallocated : Bool}
    (proposed : l.markUnallocated expected = .propose new unallocated) :
    l.generation = expected ∧ l.state = .allocated ∧ new.generation = l.generation ∧ new.refcount = l.refcount ∧
      new.state = (if unallocated then .unallocated else .zombie) ∧ (unallocated = true ↔ l.refcount = 0) := by
  unfold markUnallocated at proposed
  split at proposed
  · split at proposed <;> cases proposed
  · rename_i valid
    rw [not_or, not_not, not_not] at valid
    split at proposed
    · rename_i positive
      cases proposed
      exact ⟨valid.1, valid.2, rfl, rfl, rfl, by simp; omega⟩
    · rename_i zero
      cases proposed
      exact ⟨valid.1, valid.2, rfl, rfl, rfl, by simp; omega⟩

theorem markUnallocated_refuse {error : LifecycleError} (refused : l.markUnallocated expected = .refuse error) :
    ¬ (l.state = .allocated ∧ l.generation = expected) := by
  intro valid
  simp only [markUnallocated, valid.1, valid.2, ne_eq, not_true_eq_false, or_self, if_false] at refused
  split at refused <;> cases refused

theorem markUnallocated_ne_panic {reason : Panic} : l.markUnallocated expected ≠ .panic reason := by
  intro panicked
  unfold markUnallocated at panicked
  split at panicked
  · split at panicked <;> cases panicked
  · split at panicked <;> cases panicked

theorem allocate_ok {debug : Bool} (allocated : l.allocate debug = .ok new) :
    new.generation = l.generation + 1 ∧ new.refcount = l.refcount ∧ new.state = .allocated := by
  unfold allocate at allocated
  split at allocated
  · split at allocated
    · cases allocated
      exact ⟨rfl, rfl, rfl⟩
    · cases allocated
  · cases allocated

theorem allocate_error {debug : Bool} {reason : Panic} (none : l.refcount = 0)
    (failed : l.allocate debug = .error reason) : reason = .generationOverflow ∧ 2^46 ≤ l.generation + 1 := by
  unfold allocate at failed
  split at failed
  · simp [none] at failed
  · rename_i full
    cases failed
    exact ⟨rfl, Nat.le_of_not_lt full⟩

theorem clear_eq {debug : Bool} (none : l.refcount = 0) : l.clear debug = .ok { l with state := .unallocated } := by
  simp [clear, none]

/-- The refcount is the number of live references, and all of them are of the current generation. -/
structure Counted (l : Lifecycle) (refs : Multiset Nat) : Prop where
  count : l.refcount = refs.card
  current : ∀ generation ∈ refs, generation = l.generation

variable {refs : Multiset Nat}

theorem Counted.acquired (counted : l.Counted refs) (proposed : l.acquireReference expected = .propose new ()) :
    new.Counted (expected ::ₘ refs) := by
  obtain ⟨generation, _, same, _, more⟩ := acquireReference_propose proposed
  constructor
  · rw [more, counted.count, Multiset.card_cons]
  · intro g member
    rw [same]
    rcases Multiset.mem_cons.mp member with rfl | member
    · exact generation.symm
    · exact counted.current g member

theorem Counted.released {last : Bool} (counted : l.Counted refs) (held : expected ∈ refs)
    (proposed : l.releaseReference expected = .propose new last) : new.Counted (refs.erase expected) := by
  obtain ⟨_, _, same, _, fewer, _⟩ := releaseReference_propose proposed
  constructor
  · have total := Multiset.card_erase_add_one held
    have count := counted.count
    omega
  · intro g member
    rw [same]
    exact counted.current g (Multiset.mem_of_mem_erase member)

theorem Counted.of_same (counted : l.Counted refs) (generation : new.generation = l.generation)
    (refcount : new.refcount = l.refcount) : new.Counted refs :=
  ⟨refcount.trans counted.count, fun g member => (counted.current g member).trans generation.symm⟩

theorem Counted.eq_zero (counted : l.Counted refs) (none : l.refcount = 0) : refs = 0 := by
  rw [← Multiset.card_eq_zero, ← counted.count, none]

theorem Counted.releasable (counted : l.Counted refs) (held : expected ∈ refs) (state : l.state ≠ .unallocated) :
    ∃ new last, l.releaseReference expected = .propose new last := by
  apply releaseReference_counted (counted.current _ held).symm state
  rw [counted.count]
  exact Multiset.card_pos_iff_exists_mem.mpr ⟨_, held⟩

end Lifecycle

end PlatyposSlab
