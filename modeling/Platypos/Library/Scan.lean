import Mathlib.Data.List.Basic

namespace Scan

universe u v

variable {α β : Type u} {ε : Type v} {p q : α → Prop} {xs : List α} {x y : α}

/-- `x` is the first element of the list with the property. -/
def First (p : α → Prop) (xs : List α) (x : α) : Prop :=
  ∃ front back, xs = front ++ x :: back ∧ p x ∧ ∀ y ∈ front, ¬ p y

theorem First.holds (first : First p xs x) : p x := by
  obtain ⟨_, _, _, holds, _⟩ := first
  exact holds

theorem First.mem (first : First p xs x) : x ∈ xs := by
  obtain ⟨front, back, rfl, _, _⟩ := first
  simp

theorem first_cons_self (holds : p x) : First p (x :: xs) x := ⟨[], xs, rfl, holds, by simp⟩

theorem first_cons_of_not (fails : ¬ p y) : First p (y :: xs) x ↔ First p xs x := by
  constructor
  · intro first
    obtain ⟨front, back, split, holds, earlier⟩ := first
    cases front with
    | nil =>
      rw [List.nil_append, List.cons.injEq] at split
      exact absurd (split.1 ▸ holds) fails
    | cons z front =>
      rw [List.cons_append, List.cons.injEq] at split
      exact ⟨front, back, split.2, holds, fun w member => earlier w (List.mem_cons_of_mem _ member)⟩
  · intro first
    obtain ⟨front, back, rfl, holds, earlier⟩ := first
    refine ⟨y :: front, back, rfl, holds, ?_⟩
    intro w member
    rcases List.mem_cons.mp member with rfl | member
    · exact fails
    · exact earlier w member

theorem First.eq_of_cons (first : First p (y :: xs) x) (holds : p y) : x = y := by
  obtain ⟨front, back, split, _, earlier⟩ := first
  cases front with
  | nil => exact (List.cons.inj split).1.symm
  | cons z front =>
    have same := (List.cons.inj split).1
    exact absurd (same ▸ holds) (earlier z (by simp))

theorem First.unique (left : First p xs x) (right : First p xs y) : x = y := by
  induction xs with
  | nil => exact absurd left.mem (by simp)
  | cons z xs ih =>
    by_cases holds : p z
    · exact (left.eq_of_cons holds).trans (right.eq_of_cons holds).symm
    · rw [first_cons_of_not holds] at left right
      exact ih left right

theorem exists_first (found : ∃ x ∈ xs, p x) : ∃ x, First p xs x := by
  induction xs with
  | nil => simp at found
  | cons z xs ih =>
    by_cases holds : p z
    · exact ⟨z, first_cons_self holds⟩
    · obtain ⟨x, member, holds'⟩ := found
      rcases List.mem_cons.mp member with rfl | member
      · exact absurd holds' holds
      · obtain ⟨x', first⟩ := ih ⟨x, member, holds'⟩
        exact ⟨x', (first_cons_of_not holds).mpr first⟩

section Searching

variable {f : α → Except ε (Option β)} {g : α → β} (hit : ∀ y ∈ xs, p y → f y = .ok (some (g y)))
  (miss : ∀ y ∈ xs, ¬ p y → f y = .ok none)

include miss

theorem findSomeM_none (none : ∀ y ∈ xs, ¬ p y) : xs.findSomeM? f = .ok .none := by
  induction xs with
  | nil => rfl
  | cons z xs ih =>
    rw [List.forall_mem_cons] at miss none
    rw [List.findSomeM?, miss.1 none.1]
    exact ih miss.2 none.2

include hit

theorem findSomeM_first (first : First p xs x) : xs.findSomeM? f = .ok (some (g x)) := by
  induction xs with
  | nil => exact absurd first.mem (by simp)
  | cons z xs ih =>
    rw [List.forall_mem_cons] at hit miss
    by_cases holds : p z
    · rw [List.findSomeM?, hit.1 holds, first.eq_of_cons holds]
      rfl
    · rw [List.findSomeM?, miss.1 holds]
      exact ih hit.2 miss.2 ((first_cons_of_not holds).mp first)

end Searching

end Scan
