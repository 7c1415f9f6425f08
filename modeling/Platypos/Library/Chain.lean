import Mathlib.Data.List.Nodup
import Mathlib.Logic.Function.Basic

namespace Chain

universe u v

variable {W : Type u} {I : Type v} {decode : W → Option I}

/-- The cells reached from a word by following `next`. A word that decodes to no cell ends the chain. -/
def Linked (decode : W → Option I) (next : I → W) : W → List I → Prop
  | w, [] => decode w = none
  | w, i :: cells => decode w = some i ∧ Linked decode next (next i) cells

def words (next : I → W) : W → List I → List W
  | _, [] => []
  | w, i :: cells => w :: words next (next i) cells

theorem Linked.decode_of_mem_words {next : I → W} {w x : W} {cells : List I} (linked : Linked decode next w cells)
    (member : x ∈ words next w cells) : ∃ i ∈ cells, decode x = some i := by
  induction cells generalizing w with
  | nil => simp [words] at member
  | cons i cells ih =>
    rcases List.mem_cons.mp member with rfl | member
    · exact ⟨i, by simp, linked.1⟩
    · obtain ⟨j, inside, points⟩ := ih linked.2 member
      exact ⟨j, by simp [inside], points⟩

theorem Linked.unique {next : I → W} {w : W} {cells cells' : List I} (linked : Linked decode next w cells)
    (linked' : Linked decode next w cells') : cells = cells' := by
  induction cells generalizing w cells' with
  | nil =>
    cases cells' with
    | nil => rfl
    | cons j cells' => exact absurd (linked.symm.trans linked'.1) nofun
  | cons i cells ih =>
    cases cells' with
    | nil => exact absurd (linked'.symm.trans linked.1) nofun
    | cons j cells' =>
      obtain rfl : i = j := Option.some.inj (linked.1.symm.trans linked'.1)
      rw [ih linked.2 linked'.2]

variable [DecidableEq I]

theorem Linked.write {next : I → W} {w x : W} {cells : List I} {i : I} (linked : Linked decode next w cells)
    (outside : i ∉ cells) : Linked decode (Function.update next i x) w cells := by
  induction cells generalizing w with
  | nil => exact linked
  | cons j cells ih =>
    rw [List.mem_cons, not_or] at outside
    refine ⟨linked.1, ?_⟩
    rw [Function.update_of_ne (Ne.symm outside.1)]
    exact ih linked.2 outside.2

theorem words_write {next : I → W} {w x : W} {cells : List I} {i : I} (outside : i ∉ cells) :
    words (Function.update next i x) w cells = words next w cells := by
  induction cells generalizing w with
  | nil => rfl
  | cons j cells ih =>
    rw [List.mem_cons, not_or] at outside
    rw [words, words, Function.update_of_ne (Ne.symm outside.1), ih outside.2]

end Chain
