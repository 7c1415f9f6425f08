import Mathlib.Logic.Function.Basic
import Platypos.Library.Exec

namespace Interleave

open Exec

universe u v w

variable {ι : Type} [DecidableEq ι] {ε : Type v} {α : Type w} {σ β : Type u}

/-- What one owner contributes to an interleaving, in order. -/
def own {γ : Type*} (i : ι) (l : List (ι × γ)) : List γ := (l.filter fun x => x.1 = i).map Prod.snd

theorem own_cons_self {γ : Type*} (i : ι) (c : γ) (l : List (ι × γ)) : own i ((i, c) :: l) = c :: own i l := by
  simp [own]

theorem own_cons_of_ne {γ : Type*} {i j : ι} (other : j ≠ i) (c : γ) (l : List (ι × γ)) :
    own i ((j, c) :: l) = own i l := by
  simp [own, other]

theorem own_append {γ : Type*} (i : ι) (l l' : List (ι × γ)) : own i (l ++ l') = own i l ++ own i l' := by
  simp [own]

theorem own_map_self {γ : Type*} (i : ι) (l : List γ) : own i (l.map (i, ·)) = l := by
  induction l with
  | nil => rfl
  | cons c l ih => rw [List.map_cons, own_cons_self, ih]

theorem own_map_of_ne {γ : Type*} {i j : ι} (other : j ≠ i) (l : List γ) : own i (l.map (j, ·)) = [] := by
  simp [own, other]

theorem mem_own {γ : Type*} {i : ι} {c : γ} {l : List (ι × γ)} : c ∈ own i l ↔ (i, c) ∈ l := by
  simp [own]

/-- If a step of one owner does to the shared state what it does to the owner's own state, and no other owner can
    tell, then a run of the interleaved inputs gives every owner the outputs of its inputs alone. -/
theorem exec_interleaved {step : σ → α → Except ε (β × σ)} {agrees : ι → σ → σ → Prop} {allowed : ι → α → Prop}
    (mine : ∀ i a, allowed i a → ∀ shared alone b alone', agrees i shared alone → step alone a = .ok (b, alone') →
      ∃ shared', step shared a = .ok (b, shared') ∧ agrees i shared' alone')
    (others : ∀ i a, allowed i a → ∀ j, j ≠ i → ∀ shared alone b shared', agrees j shared alone →
      step shared a = .ok (b, shared') → agrees j shared' alone)
    {merged : List (ι × α)} (inputs : ∀ i, ∀ a ∈ own i merged, allowed i a) {shared : σ} {alone : ι → σ}
    (start : ∀ i, agrees i shared (alone i)) (completes : ∀ i, Completes step (alone i) (own i merged)) :
    ∃ outs shared', exec step shared (merged.map Prod.snd) = .ok (outs, shared') ∧
      ∀ i, ∃ final, exec step (alone i) (own i merged) = .ok (own i ((merged.map Prod.fst).zip outs), final) := by
  induction merged generalizing shared alone with
  | nil => exact ⟨[], shared, rfl, fun i => ⟨alone i, rfl⟩⟩
  | cons x merged ih =>
    obtain ⟨i, a⟩ := x
    obtain ⟨outs, final, ran⟩ := completes i
    rw [own_cons_self] at ran
    obtain ⟨b, next, _, first, rest, _⟩ := exec_cons_ok ran
    have permitted : allowed i a := inputs i a (by rw [own_cons_self]; exact List.mem_cons_self)
    obtain ⟨shared', stepped, agree⟩ := mine i a permitted shared (alone i) b next (start i) first
    have inputs' : ∀ j, ∀ c ∈ own j merged, allowed j c := by
      intro j c member
      exact inputs j c (mem_own.mpr (List.mem_cons_of_mem _ (mem_own.mp member)))
    have start' : ∀ j, agrees j shared' (Function.update alone i next j) := by
      intro j
      by_cases same : j = i
      · subst same
        rw [Function.update_self]
        exact agree
      · rw [Function.update_of_ne same]
        exact others i a permitted j same shared (alone j) b shared' (start j) stepped
    have completes' : ∀ j, Completes step (Function.update alone i next j) (own j merged) := by
      intro j
      by_cases same : j = i
      · subst same
        rw [Function.update_self]
        exact ⟨_, _, rest⟩
      · rw [Function.update_of_ne same, ← own_cons_of_ne (Ne.symm same) a merged]
        exact completes j
    obtain ⟨outs, final, ran, alike⟩ := ih inputs' start' completes'
    refine ⟨b :: outs, final, ?_, ?_⟩
    · rw [List.map_cons, exec_cons_of_ok stepped, ran]
      rfl
    · intro j
      obtain ⟨last, same⟩ := alike j
      rw [List.map_cons, List.zip_cons_cons]
      by_cases here : j = i
      · subst here
        rw [Function.update_self] at same
        rw [own_cons_self, own_cons_self, exec_cons_of_ok first, same]
        exact ⟨last, rfl⟩
      · rw [Function.update_of_ne here] at same
        rw [own_cons_of_ne (Ne.symm here), own_cons_of_ne (Ne.symm here)]
        exact ⟨last, same⟩

end Interleave
