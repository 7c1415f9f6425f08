import Mathlib.Data.List.Basic

namespace Utf8

/-- The bytes of a text in UTF-8. -/
def byteLength : List Char → Nat
  | [] => 0
  | ch :: s => ch.utf8Size + byteLength s

@[simp] theorem byteLength_nil : byteLength [] = 0 := rfl

@[simp] theorem byteLength_cons (ch : Char) (s : List Char) : byteLength (ch :: s) = ch.utf8Size + byteLength s := rfl

@[simp] theorem byteLength_append (a b : List Char) : byteLength (a ++ b) = byteLength a + byteLength b := by
  induction a with
  | nil => simp
  | cons ch a ih => simp [ih, Nat.add_assoc]

theorem byteLength_pos {s : List Char} : 0 < byteLength s ↔ s ≠ [] := by
  cases s with
  | nil => simp
  | cons ch s => simp [Nat.add_pos_left (Char.utf8Size_pos ch)]

/-- The characters with the byte offsets at which they start. -/
def charIndices (offset : Nat) : List Char → List (Nat × Char)
  | [] => []
  | ch :: s => (offset, ch) :: charIndices (offset + ch.utf8Size) s

/-- The text before and after a byte offset, if that is a boundary of a character. -/
def splitBytes : List Char → Nat → Option (List Char × List Char)
  | [], offset => if offset = 0 then some ([], []) else none
  | ch :: s, offset =>
    if offset = 0 then some ([], ch :: s)
    else if ch.utf8Size ≤ offset then (splitBytes s (offset - ch.utf8Size)).map fun parts => (ch :: parts.1, parts.2)
    else none

theorem splitBytes_append (a b : List Char) : splitBytes (a ++ b) (byteLength a) = some (a, b) := by
  induction a with
  | nil => cases b <;> rfl
  | cons ch a ih =>
    have positive := Char.utf8Size_pos ch
    have some : ch.utf8Size + byteLength a ≠ 0 := by omega
    rw [List.cons_append, byteLength_cons, splitBytes, if_neg some, if_pos (Nat.le_add_right _ _),
      Nat.add_sub_cancel_left, ih]
    rfl

/-- The text from one byte offset to another, if they are boundaries in this order. -/
def slice (s : List Char) (start stop : Nat) : Option (List Char) :=
  if start ≤ stop then do
    let (_, rest) ← splitBytes s start
    let (text, _) ← splitBytes rest (stop - start)
    return text
  else none

theorem slice_append (a b c : List Char) :
    slice (a ++ (b ++ c)) (byteLength a) (byteLength a + byteLength b) = some b := by
  simp [slice, splitBytes_append]

end Utf8
