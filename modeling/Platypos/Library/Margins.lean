import Mathlib.Data.List.Basic
import Platypos.Library.Digits

namespace Margins

/-- Every line of the text but the first starts with the margin. -/
def Hangs (margin text : List Char) : Prop := ∀ before after, text = before ++ '\n' :: after → margin <+: after

section Hangs

variable {margin text : List Char}

theorem hangs_of_flat (flat : '\n' ∉ text) : Hangs margin text := by
  intro before after split
  rw [split] at flat
  exact absurd (List.mem_append_right before List.mem_cons_self) flat

theorem Hangs.append {text' : List Char} (hangs : Hangs margin text) (hangs' : Hangs margin text') :
    Hangs margin (text ++ text') := by
  intro before after split
  rcases List.append_eq_append_iff.mp split with ⟨more, rfl, second⟩ | ⟨more, first, second⟩
  · exact hangs' more after second
  · cases more with
    | nil => exact hangs' [] after second.symm
    | cons c more =>
      obtain ⟨rfl, rfl⟩ := List.cons.inj second
      exact (hangs before more first).trans (List.prefix_append _ _)

/-- A new line that starts with the margin. -/
theorem Hangs.newline (hangs : Hangs margin text) (starts : margin <+: text) : Hangs margin ('\n' :: text) := by
  intro before after split
  cases before with
  | nil =>
    obtain ⟨_, rfl⟩ := List.cons.inj split
    exact starts
  | cons c before =>
    obtain ⟨_, rest⟩ := List.cons.inj split
    exact hangs before after rest

theorem Hangs.mono {margin' : List Char} (hangs : Hangs margin text) (less : margin' <+: margin) :
    Hangs margin' text :=
  fun before after split => less.trans (hangs before after split)

end Hangs

/-- The pieces of a text, each with the newline that ends it. -/
def splitInclusive : List Char → List (List Char)
  | [] => []
  | c :: cs =>
    if c = '\n' then [c] :: splitInclusive cs
    else match splitInclusive cs with
      | [] => [[c]]
      | piece :: pieces => (c :: piece) :: pieces

def stripLine (piece : List Char) : List Char :=
  if piece.getLast? = some '\n' then
    if piece.dropLast.getLast? = some '\r' then piece.dropLast.dropLast else piece.dropLast
  else piece

/-- The lines of a text, which end in a newline or in a carriage return and a newline. The last one may end without. -/
def lines (text : List Char) : List (List Char) := (splitInclusive text).map stripLine

theorem splitInclusive_flat (text : List Char) : ∀ piece ∈ splitInclusive text, '\n' ∉ piece.dropLast ∧ piece ≠ [] := by
  induction text with
  | nil => simp [splitInclusive]
  | cons c cs ih =>
    rw [splitInclusive]
    split
    · intro piece member
      rcases List.mem_cons.mp member with rfl | member
      · simp
      · exact ih piece member
    · rename_i other
      cases later : splitInclusive cs with
      | nil => simp
      | cons first pieces =>
        rw [later] at ih
        intro piece member
        rcases List.mem_cons.mp member with rfl | member
        · obtain ⟨flat, some⟩ := ih first List.mem_cons_self
          rw [List.dropLast_cons_of_ne_nil some, List.mem_cons, not_or]
          exact ⟨⟨Ne.symm other, flat⟩, List.cons_ne_nil _ _⟩
        · exact ih piece (List.mem_cons_of_mem _ member)

theorem lines_flat {text line : List Char} (member : line ∈ lines text) : '\n' ∉ line := by
  obtain ⟨piece, listed, rfl⟩ := List.mem_map.mp member
  obtain ⟨flat, some⟩ := splitInclusive_flat text piece listed
  rw [stripLine]
  split
  · split
    · intro found
      exact flat (List.dropLast_subset _ found)
    · exact flat
  · rename_i other
    rw [← List.dropLast_append_getLast some, List.mem_append, List.mem_singleton, not_or]
    refine ⟨flat, ?_⟩
    intro last
    exact other (by rw [List.getLast?_eq_getLast_of_ne_nil some, ← last])

theorem toDigits_flat (base n : Nat) : '\n' ∉ Nat.toDigits base n :=
  Digits.notMem_toDigits (fun _ => Nat.digitChar_ne '\n' (by decide)) n

/-- A text can be cut at the first `c` in one way only. -/
theorem cut_unique {c : Char} {front front' back back' : List Char} (absent : c ∉ front) (absent' : c ∉ front')
    (same : front ++ c :: back = front' ++ c :: back') : front = front' ∧ back = back' := by
  induction front generalizing front' with
  | nil =>
    cases front' with
    | nil => exact ⟨rfl, (List.cons.inj same).2⟩
    | cons d front' => exact absurd (by simp [(List.cons.inj same).1]) absent'
  | cons d front ih =>
    cases front' with
    | nil => exact absurd (by simp [(List.cons.inj same).1]) absent
    | cons e front' =>
      obtain ⟨rfl, rest⟩ := List.cons.inj same
      obtain ⟨rfl, rfl⟩ := ih (List.not_mem_of_not_mem_cons absent) (List.not_mem_of_not_mem_cons absent') rest
      exact ⟨rfl, rfl⟩

end Margins
