import Platypos.Console.Calls

namespace Platypos.Console

open Display

/-- How many more characters the width counted so far allows on the line. -/
def room (width count : Nat) : Nat := (width - 1 - count) / 10

def nextRow (height y : Nat) : Nat := if height < y + 20 then 25 else y + 20

/-- A line of `n` characters of the text: those that are drawn in the row of the pen, and those that are wrapped. -/
structure LineFits (size : Size) (pen : Pen) (n : Nat) : Prop where
  first : 0 < min n (room size.width pen.count) →
    pen.x + 10 * min n (room size.width pen.count) ≤ size.width ∧ pen.y + 5 ≤ size.height
  wrapped : room size.width pen.count < n →
    n - room size.width pen.count ≤ (size.width - 5) / 10 ∧ nextRow size.height pen.y + 5 ≤ size.height

/-- The lines of a text, by their lengths. A line that fits is wrapped at most once. -/
def LinesFit (size : Size) : Pen → List Nat → Prop
  | _, [] => True
  | pen, n :: lines =>
    LineFits size pen n ∧
      LinesFit size ⟨0, 5, nextRow size.height
        (if room size.width pen.count < n then nextRow size.height pen.y else pen.y)⟩ lines

def lineLengths (s : List Char) : List Nat := (s.splitOn '\n').map List.length

theorem lineLengths_newline (s : List Char) : lineLengths ('\n' :: s) = 0 :: lineLengths s := by
  rw [lineLengths, List.splitOn, List.splitOnP_cons_eq_if_modifyHead]
  rfl

theorem lineLengths_cons {ch : Char} (plain : ch ≠ '\n') (s : List Char) :
    ∃ n lines, lineLengths s = n :: lines ∧ lineLengths (ch :: s) = (n + 1) :: lines := by
  unfold lineLengths
  simp only [List.splitOn]
  rw [List.splitOnP_cons_eq_if_modifyHead, if_neg (by simpa using plain)]
  cases split : List.splitOnP (fun x => x == '\n') s with
  | nil => exact absurd split (List.splitOnP_ne_nil _ s)
  | cons line lines => exact ⟨line.length, lines.map List.length, rfl, rfl⟩

variable {size : Size} {pen : Pen} {n : Nat}

theorem feed_nextRow (size : Size) (pen : Pen) : (feed size pen).2 = ⟨0, 5, nextRow size.height pen.y⟩ := by
  unfold feed nextRow
  split <;> rfl

theorem lineFits_zero (size : Size) (pen : Pen) : LineFits size pen 0 :=
  ⟨fun some => absurd some (by simp), fun wrap => absurd wrap (Nat.not_lt_zero _)⟩

theorem room_step {width count : Nat} (more : count + 10 < width) : room width count = room width (count + 10) + 1 := by
  unfold room
  omega

theorem room_full {width count : Nat} (full : width ≤ count + 10) : room width count = 0 := by
  unfold room
  omega

theorem lineFits_more (more : pen.count + 10 < size.width) :
    LineFits size pen (n + 1) ↔ (pen.x + 10 ≤ size.width ∧ pen.y + 5 ≤ size.height) ∧
      LineFits size ⟨pen.count + 10, pen.x + 10, pen.y⟩ n := by
  have step := room_step more
  constructor
  · rintro ⟨first, wrapped⟩
    rw [step] at first wrapped
    have here := first (by omega)
    refine ⟨⟨by omega, here.2⟩, ?_, ?_⟩
    · intro some
      exact ⟨by simp only; omega, here.2⟩
    · intro wrap
      have both := wrapped (by simp only at wrap; omega)
      exact ⟨by simp only; omega, both.2⟩
  · rintro ⟨⟨fits, low⟩, first, wrapped⟩
    simp only at first wrapped
    refine ⟨?_, ?_⟩
    · intro _
      rw [step]
      refine ⟨?_, low⟩
      by_cases some : 0 < min n (room size.width (pen.count + 10))
      · have here := (first some).1
        omega
      · omega
    · intro wrap
      rw [step] at wrap ⊢
      have both := wrapped (by omega)
      exact ⟨by omega, both.2⟩

theorem lineFits_wrap (full : size.width ≤ pen.count + 10) :
    LineFits size pen (n + 1) ↔ n + 1 ≤ (size.width - 5) / 10 ∧ nextRow size.height pen.y + 5 ≤ size.height := by
  have none := room_full full
  constructor
  · rintro ⟨_, wrapped⟩
    rw [none] at wrapped
    exact wrapped (Nat.succ_pos n)
  · intro both
    refine ⟨?_, ?_⟩
    · rw [none]
      intro some
      exact absurd some (by simp)
    · rw [none]
      intro _
      exact both

theorem lineFits_wrapped (wide : 20 < size.width) (y : Nat) :
    (15 ≤ size.width ∧ y + 5 ≤ size.height) ∧ LineFits size ⟨0, 15, y⟩ n ↔
      n + 1 ≤ (size.width - 5) / 10 ∧ y + 5 ≤ size.height := by
  have whole : room size.width 0 = (size.width - 1) / 10 := rfl
  constructor
  · rintro ⟨⟨_, low⟩, first, _⟩
    rw [whole] at first
    refine ⟨?_, low⟩
    by_cases some : 0 < min n ((size.width - 1) / 10)
    · have here := (first some).1
      simp only at here
      omega
    · omega
  · rintro ⟨short, low⟩
    refine ⟨⟨by omega, low⟩, ?_, ?_⟩
    · intro _
      rw [whole]
      exact ⟨by simp only; omega, low⟩
    · intro wrap
      rw [whole] at wrap
      exact absurd wrap (by omega)

variable {lines : List Nat}

theorem linesFit_more (more : pen.count + 10 < size.width) :
    LinesFit size pen ((n + 1) :: lines) ↔ (pen.x + 10 ≤ size.width ∧ pen.y + 5 ≤ size.height) ∧
      LinesFit size ⟨pen.count + 10, pen.x + 10, pen.y⟩ (n :: lines) := by
  simp only [LinesFit, lineFits_more more, room_step more, Nat.add_lt_add_iff_right, and_assoc]

theorem linesFit_wrap (wide : 20 < size.width) (full : size.width ≤ pen.count + 10) :
    LinesFit size pen ((n + 1) :: lines) ↔ (15 ≤ size.width ∧ nextRow size.height pen.y + 5 ≤ size.height) ∧
      LinesFit size ⟨0, 15, nextRow size.height pen.y⟩ (n :: lines) := by
  rw [LinesFit, LinesFit, ← and_assoc, lineFits_wrapped wide, lineFits_wrap full, room_full full,
    if_pos (Nat.succ_pos n)]
  refine and_congr_right fun fits => ?_
  have once : ¬ room size.width 0 < n := by
    have whole : room size.width 0 = (size.width - 1) / 10 := rfl
    omega
  rw [if_neg once]

end Platypos.Console
