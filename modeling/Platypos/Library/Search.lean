import Mathlib.Data.List.Infix

namespace Search

universe u

variable {α : Type u} {pattern text front : List α}

theorem prefix_drop_append {i : Nat} (occurs : pattern <+: text.drop i) (more : List α) :
    pattern <+: (text ++ more).drop i :=
  occurs.trans ((List.prefix_append text more).drop i)

theorem prefix_drop_of_append {more : List α} {i : Nat} (occurs : pattern <+: (text ++ more).drop i)
    (inside : i + pattern.length ≤ text.length) : pattern <+: text.drop i := by
  rw [List.drop_append_of_le_length (by omega)] at occurs
  exact List.prefix_of_prefix_length_le occurs (List.prefix_append _ _) (by rw [List.length_drop]; omega)

variable [DecidableEq α]

def find (pattern : List α) : List α → Option Nat
  | [] => if pattern = [] then some 0 else none
  | a :: text => if pattern <+: a :: text then some 0 else (find pattern text).map (· + 1)

theorem find_of_prefix (here : pattern <+: text) : find pattern text = some 0 := by
  cases text with
  | nil => exact if_pos (List.prefix_nil.mp here)
  | cons a text => exact if_pos here

theorem find_append (absent : ∀ i < front.length, ¬ pattern <+: (front ++ text).drop i) :
    find pattern (front ++ text) = (find pattern text).map (front.length + ·) := by
  induction front with
  | nil => simp
  | cons a front ih =>
    have later : ∀ i < front.length, ¬ pattern <+: (front ++ text).drop i := by
      intro i inside
      exact absent (i + 1) (Nat.succ_lt_succ inside)
    have here : ¬ pattern <+: a :: (front ++ text) := absent 0 (Nat.succ_pos _)
    rw [List.cons_append, find, if_neg here, ih later, Option.map_map]
    congr 1
    funext i
    simp only [Function.comp_apply, List.length_cons]
    omega

theorem find_eq_some (absent : ∀ i < front.length, ¬ pattern <+: (front ++ text).drop i) (here : pattern <+: text) :
    find pattern (front ++ text) = some front.length := by
  rw [find_append absent, find_of_prefix here]
  rfl

theorem find_eq_none : find pattern text = none ↔ ∀ i, ¬ pattern <+: text.drop i := by
  induction text with
  | nil => simp [find]
  | cons a text ih =>
    rw [find]
    split
    · rename_i here
      exact iff_of_false (by simp) fun absent => absent 0 here
    · rename_i here
      rw [Option.map_eq_none_iff, ih]
      constructor
      · intro later i
        cases i with
        | zero => exact here
        | succ i => exact later i
      · intro absent i
        exact absent (i + 1)

end Search
