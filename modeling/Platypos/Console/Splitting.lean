import Mathlib.Data.List.DropRight
import Platypos.Console.Layout

namespace Platypos.Console

open Display Outcome Exec

/-- The width counted after `n` characters, if it was `count` before them. -/
def countAfter (width count n : Nat) : Nat :=
  if n ≤ room width count then count + 10 * n else 10 * ((n - room width count - 1) % (room width 0 + 1))

/-- The column after `n` characters from column `x`. -/
def columnAfter (width count x n : Nat) : Nat :=
  if n ≤ room width count then x + 10 * n else 15 + 10 * ((n - room width count - 1) % (room width 0 + 1))

def lastLine (s : List Char) : List Char := s.rtakeWhile (· ≠ '\n')

def firstLine (s : List Char) : List Char := s.takeWhile (· ≠ '\n')

/-- After the first text, the width counted for its last line allows as many characters as the column of the cursor
    does, or those of the second text up to its first newline fit by either. -/
def SplitAgrees (width x : Nat) (s s' : List Char) : Prop :=
  let count := if '\n' ∈ s then 0 else x
  let column := if '\n' ∈ s then 5 else x
  let n := (lastLine s).length
  room width (countAfter width count n) = room width (columnAfter width count column n) ∨
    (firstLine s').length ≤ room width (columnAfter width count column n)

section Counts

variable {width count x n : Nat}

theorem mod_succ (k m : Nat) : (k + 1) % (m + 1) = if k % (m + 1) < m then k % (m + 1) + 1 else 0 := by
  have whole := Nat.div_add_mod k (m + 1)
  have below : k % (m + 1) < m + 1 := Nat.mod_lt k (Nat.succ_pos m)
  have split : k + 1 = (m + 1) * (k / (m + 1)) + (k % (m + 1) + 1) := by omega
  rw [split, Nat.mul_add_mod]
  split
  · exact Nat.mod_eq_of_lt (by omega)
  · have last : k % (m + 1) + 1 = m + 1 := by omega
    rw [last, Nat.mod_self]

theorem room_lt (more : n < room width count) : count + 10 * n + 10 < width := by
  unfold room at more
  omega

theorem room_le (full : room width count ≤ n) : width ≤ count + 10 * n + 10 := by
  unfold room at full
  omega

/-- One more character. -/
theorem after_succ (width count x n : Nat) :
    (countAfter width count n + 10 < width ∧ countAfter width count (n + 1) = countAfter width count n + 10 ∧
      columnAfter width count x (n + 1) = columnAfter width count x n + 10) ∨
    (width ≤ countAfter width count n + 10 ∧ countAfter width count (n + 1) = 0 ∧
      columnAfter width count x (n + 1) = 15) := by
  unfold countAfter columnAfter
  rcases Nat.lt_trichotomy n (room width count) with more | here | past
  · left
    rw [if_pos (by omega), if_pos (by omega), if_pos (by omega), if_pos (by omega)]
    have fits := room_lt more
    omega
  · right
    have first : n + 1 - room width count - 1 = 0 := by omega
    rw [if_pos (by omega), if_neg (by omega), if_neg (by omega), first, Nat.zero_mod]
    have full := room_le (le_of_eq here.symm)
    omega
  · have next : n + 1 - room width count - 1 = n - room width count - 1 + 1 := by omega
    rw [if_neg (by omega), if_neg (by omega), if_neg (by omega), if_neg (by omega), next, mod_succ]
    by_cases more : (n - room width count - 1) % (room width 0 + 1) < room width 0
    · left
      have fits := room_lt more
      rw [if_pos more]
      omega
    · right
      have full := room_le (Nat.le_of_not_lt more)
      rw [if_neg more]
      omega

end Counts

section Pens

variable {size : Size}

theorem place_after {pen : Pen} {width count x n : Nat} (same : size.width = width)
    (counted : pen.count = countAfter width count n) (column : pen.x = columnAfter width count x n) {ch : Char}
    (plain : ch ≠ '\n') :
    (place size pen ch).2.count = countAfter width count (n + 1) ∧
      (place size pen ch).2.x = columnAfter width count x (n + 1) := by
  rcases after_succ width count x n with ⟨more, nextCount, nextColumn⟩ | ⟨full, nextCount, nextColumn⟩
  · rw [place_more plain (by omega), nextCount, nextColumn, counted, column]
    exact ⟨rfl, rfl⟩
  · rw [place_wrap plain (by omega), nextCount, nextColumn]
    exact ⟨rfl, rfl⟩

/-- The pen after a text, by the length of its last line. -/
theorem typeset_after (pen : Pen) (s : List Char) :
    (typeset size pen s).2.count =
        countAfter size.width (if '\n' ∈ s then 0 else pen.count) (lastLine s).length ∧
      (typeset size pen s).2.x =
        columnAfter size.width (if '\n' ∈ s then 0 else pen.count) (if '\n' ∈ s then 5 else pen.x)
          (lastLine s).length := by
  induction s using List.reverseRecOn with
  | nil => simp [typeset, lastLine, countAfter, columnAfter]
  | append_singleton s ch ih =>
    rw [typeset_append]
    by_cases newline : ch = '\n'
    · subst newline
      have ended : lastLine (s ++ ['\n']) = [] := by simp [lastLine]
      have member : '\n' ∈ s ++ ['\n'] := by simp
      simp only [typeset, place_newline, feed_nextRow, ended, if_pos member]
      simp [countAfter, columnAfter]
    · have longer : lastLine (s ++ [ch]) = lastLine s ++ [ch] := by simp [lastLine, newline]
      have member : '\n' ∈ s ++ [ch] ↔ '\n' ∈ s := by simp [Ne.symm newline]
      simp only [longer, member, List.length_append, List.length_singleton]
      exact place_after rfl ih.1 ih.2 newline

/-- Texts are typeset in the same way. -/
def SameLayout (size : Size) (pen pen' : Pen) (s : List Char) : Prop :=
  (typeset size pen s).1 = (typeset size pen' s).1 ∧ (typeset size pen s).2.cursor = (typeset size pen' s).2.cursor

theorem sameLayout_cons {pen pen' : Pen} {ch : Char} {s : List Char}
    (marks : (place size pen ch).1 = (place size pen' ch).1) :
    SameLayout size pen pen' (ch :: s) ↔ SameLayout size (place size pen ch).2 (place size pen' ch).2 s := by
  rw [SameLayout, typeset, typeset, marks, List.append_cancel_left_eq]
  rfl

/-- Two pens in the same place differ in the width counted so far: it matters if one of them breaks the line before the
    other does. -/
theorem sameLayout_iff {count count' : Nat} (behind : count ≤ count') (x y : Nat) (s : List Char) :
    SameLayout size ⟨count, x, y⟩ ⟨count', x, y⟩ s ↔
      room size.width count = room size.width count' ∨ (firstLine s).length ≤ room size.width count' := by
  induction s generalizing count count' x with
  | nil => exact iff_of_true ⟨rfl, rfl⟩ (Or.inr (Nat.zero_le _))
  | cons ch s ih =>
    by_cases newline : ch = '\n'
    · subst newline
      have same : feed size ⟨count, x, y⟩ = feed size ⟨count', x, y⟩ := rfl
      have none : firstLine ('\n' :: s) = [] := by simp [firstLine]
      rw [sameLayout_cons (by rw [place_newline, place_newline, same]), place_newline, place_newline, same, none]
      exact iff_of_true ⟨rfl, rfl⟩ (Or.inr (Nat.zero_le _))
    · have longer : (firstLine (ch :: s)).length = (firstLine s).length + 1 := by simp [firstLine, newline]
      have same : feed size ⟨count, x, y⟩ = feed size ⟨count', x, y⟩ := rfl
      rw [longer]
      by_cases full : size.width ≤ count + 10
      · have full' : size.width ≤ count' + 10 := by omega
        rw [sameLayout_cons (by rw [place_wrap newline full, place_wrap newline full', same]), place_wrap newline full,
          place_wrap newline full', same, room_full full, room_full full']
        exact iff_of_true ⟨rfl, rfl⟩ (Or.inl rfl)
      · have more : count + 10 < size.width := Nat.lt_of_not_le full
        by_cases full' : size.width ≤ count' + 10
        · rw [room_step more, room_full full']
          refine iff_of_false ?_ (by omega)
          rintro ⟨marks, _⟩
          rw [typeset, typeset, place_more newline more, place_wrap newline full', feed] at marks
          -- one pen goes on in its row, and the other clears the screen or goes on below
          split at marks
          · simp at marks
          · simp only [List.nil_append, List.singleton_append, List.cons.injEq, Mark.glyph.injEq, Pen.cursor,
              Point.mk.injEq] at marks
            omega
        · have more' : count' + 10 < size.width := Nat.lt_of_not_le full'
          rw [sameLayout_cons (by rw [place_more newline more, place_more newline more']; rfl), place_more newline more,
            place_more newline more', ih (Nat.add_le_add_right behind 10) (x + 10), room_step more, room_step more',
            Nat.add_le_add_iff_right, Nat.add_right_cancel_iff]

theorem sameLayout_resume {pen : Pen} (placed : pen.Placed size) (s : List Char) :
    SameLayout size pen pen.resume s ↔
      room size.width pen.count = room size.width pen.x ∨ (firstLine s).length ≤ room size.width pen.x :=
  sameLayout_iff placed.behind pen.x pen.y s

end Pens

section Blank

variable {size : Size} {console : Console (Unit × List Mark)} {pen : Pen}

theorem foldlM_blank (marks : List Mark) : marks.foldlM (Canvas.blank size).perform () = .ok () := by
  induction marks with
  | nil => rfl
  | cons mark marks ih => cases mark <;> exact ih

theorem put_blank (marks : List Mark) (cursor : Point) :
    put (Canvas.blank size).recording console marks cursor =
      .ok ⟨cursor, console.origin, ((), console.display.2 ++ marks)⟩ := by
  rw [put, Canvas.foldlM_recording (Canvas.blank size) console.display.1 console.display.2, foldlM_blank]
  rfl

theorem write_blank (moderate : Moderate size) (here : At console pen) (placed : pen.Placed size) (s : List Char) :
    console.write (Canvas.blank size).recording.target s = .ok ⟨(typeset size pen.resume s).2.cursor, console.origin,
      ((), console.display.2 ++ (typeset size pen.resume s).1)⟩ :=
  (write_at (Canvas.blank size).recording moderate here placed s).trans (put_blank _ _)

theorem reached_at (wide : 20 < size.width) (moderate : Moderate size) {console₀ : Console (Unit × List Mark)}
    (constructed : Console.new (Canvas.blank size).recording.target ((), []) = .ok console₀) {calls : List Call}
    {outs : List Unit}
    (reached : exec (step (Canvas.blank size).recording.target) console₀ calls = .ok (outs, console)) :
    ∃ pen, At console pen ∧ pen.Placed size := by
  obtain ⟨start, _⟩ := new_at _ constructed
  have positive : 0 < size.width := by omega
  have placed : (⟨0, 5, 25⟩ : Pen).Placed size := start_placed positive
  rw [exec_put (Canvas.blank size).recording moderate positive start placed] at reached
  obtain ⟨final, done, same⟩ := map_eq_ok.mp reached
  cases same
  exact ⟨_, (put_at _ start _ done).1, typesetCalls_placed positive moderate.height placed calls⟩

/-- A text written in two parts is laid out as in one exactly if the width counted for the line at the split agrees with
    the column there, as far as the second part can tell. -/
theorem split_write_agrees (wide : 20 < size.width) (moderate : Moderate size) {console₀ : Console (Unit × List Mark)}
    (constructed : Console.new (Canvas.blank size).recording.target ((), []) = .ok console₀) {calls : List Call}
    {outs : List Unit} (reached : exec (step (Canvas.blank size).recording.target) console₀ calls = .ok (outs, console))
    (s s' : List Char) :
    ∃ once between twice, console.write (Canvas.blank size).recording.target (s ++ s') = .ok once ∧
      console.write (Canvas.blank size).recording.target s = .ok between ∧
      between.write (Canvas.blank size).recording.target s' = .ok twice ∧
      (once.display.2 = twice.display.2 ∧ once.cursor = twice.cursor ↔
        SplitAgrees size.width console.cursor.x.toNat s s') := by
  obtain ⟨pen, here, placed⟩ := reached_at wide moderate constructed reached
  have placed' := typeset_placed (by omega) moderate.height placed.resume s
  obtain ⟨counted, column⟩ := @typeset_after size pen.resume s
  have start : console.cursor.x.toNat = pen.x := by
    rw [here.cursor]
    rfl
  have there : At (D := Unit × List Mark) ⟨(typeset size pen.resume s).2.cursor, console.origin,
      ((), console.display.2 ++ (typeset size pen.resume s).1)⟩ (typeset size pen.resume s).2 := ⟨rfl, here.origin⟩
  refine ⟨_, _, _, write_blank moderate here placed (s ++ s'), write_blank moderate here placed s,
    write_blank moderate there placed' s', ?_⟩
  have layout : SameLayout size (typeset size pen.resume s).2 (typeset size pen.resume s).2.resume s' ↔
      SplitAgrees size.width console.cursor.x.toNat s s' := by
    rw [sameLayout_resume placed', counted, column, start]
    rfl
  rw [← layout, typeset_append, ← List.append_assoc, List.append_cancel_left_eq]
  rfl

end Blank

theorem split_write_agrees_second_line :
    ∃ console once between twice,
      Console.new (Canvas.blank ⟨60, 60⟩).recording.target ((), []) = .ok console ∧
      console.write (Canvas.blank ⟨60, 60⟩).recording.target "a\nbcd".toList = .ok once ∧
      console.write (Canvas.blank ⟨60, 60⟩).recording.target "a\nb".toList = .ok between ∧
      between.write (Canvas.blank ⟨60, 60⟩).recording.target "cd".toList = .ok twice ∧
      once.display.2 = twice.display.2 ∧ once.cursor = twice.cursor := by
  have constructed := new_eq (Canvas.blank ⟨60, 60⟩).recording ((), [])
  have reached : exec (step (Canvas.blank ⟨60, 60⟩).recording.target) ⟨⟨5, 25⟩, ⟨5, 25⟩, ((), [])⟩ [] =
      .ok ([], ⟨⟨5, 25⟩, ⟨5, 25⟩, ((), [])⟩) := rfl
  obtain ⟨once, between, twice, whole, first, second, same⟩ := split_write_agrees (by decide) ⟨by decide, by decide⟩
    constructed reached "a\nb".toList "cd".toList
  exact ⟨_, once, between, twice, constructed, whole, first, second, same.mpr (Or.inl (by decide))⟩

/-- After a newline `write` has counted 5 columns less than a new call finds at the cursor, so that the second call
    breaks the line where the single one goes on. -/
theorem split_write_differs :
    ∃ console once between twice,
      Console.new (Canvas.blank ⟨21, 50⟩).recording.target ((), []) = .ok console ∧
      console.write (Canvas.blank ⟨21, 50⟩).recording.target "\nab".toList = .ok once ∧
      console.write (Canvas.blank ⟨21, 50⟩).recording.target "\na".toList = .ok between ∧
      between.write (Canvas.blank ⟨21, 50⟩).recording.target "b".toList = .ok twice ∧
      once.display.2 = [.glyph 'a' ⟨5, 45⟩, .glyph 'b' ⟨15, 45⟩] ∧
      twice.display.2 = [.glyph 'a' ⟨5, 45⟩, .clear, .glyph 'b' ⟨5, 25⟩] :=
  ⟨_, _, _, _, new_eq _ _, rfl, rfl, rfl, rfl, rfl⟩

end Platypos.Console
