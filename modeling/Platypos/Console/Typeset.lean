import Platypos.Console.Slicing

namespace Platypos.Console

open Display Outcome

variable {D ε : Type}

/-- What a display is asked to do: a glyph at a position of the cursor, or to be cleared. -/
inductive Mark where
  | glyph (ch : Char) (position : Point)
  | clear
  deriving DecidableEq

namespace Canvas

def perform (canvas : Canvas D ε) (d : D) : Mark → Except ε D
  | .glyph ch position => canvas.drawGlyph d ch position
  | .clear => canvas.clear d

end Canvas

/-- The console after the marks, with its cursor set. -/
def put (canvas : Canvas D ε) (console : Console D) (marks : List Mark) (cursor : Point) :
    Except (Panic ε) (Console D) := do
  let display ← (marks.foldlM canvas.perform console.display).mapError .draw
  return { console with cursor := cursor, display := display }

/-- Where the next character goes, and the width that `write` has counted for the line. -/
structure Pen where
  count : Nat
  x : Nat
  y : Nat
  deriving DecidableEq

def Pen.cursor (pen : Pen) : Point := ⟨pen.x, pen.y⟩

def feed (size : Size) (pen : Pen) : List Mark × Pen :=
  if size.height < pen.y + 20 then ([.clear], ⟨0, 5, 25⟩) else ([], ⟨0, 5, pen.y + 20⟩)

/-- One character. After a line break that it forces, the character itself is not counted. -/
def place (size : Size) (pen : Pen) (ch : Char) : List Mark × Pen :=
  if ch = '\n' then feed size pen
  else if pen.count + 10 < size.width then ([.glyph ch pen.cursor], ⟨pen.count + 10, pen.x + 10, pen.y⟩)
  else ((feed size pen).1 ++ [.glyph ch (feed size pen).2.cursor], ⟨0, 15, (feed size pen).2.y⟩)

section Place

variable {size : Size} {pen : Pen} {ch : Char}

theorem place_newline : place size pen '\n' = feed size pen := if_pos rfl

theorem place_more (plain : ch ≠ '\n') (more : pen.count + 10 < size.width) :
    place size pen ch = ([.glyph ch pen.cursor], ⟨pen.count + 10, pen.x + 10, pen.y⟩) := by
  rw [place, if_neg plain, if_pos more]

theorem place_wrap (plain : ch ≠ '\n') (full : size.width ≤ pen.count + 10) :
    place size pen ch =
      ((feed size pen).1 ++ [.glyph ch (feed size pen).2.cursor], ⟨0, 15, (feed size pen).2.y⟩) := by
  rw [place, if_neg plain, if_neg (Nat.not_lt.mpr full)]

end Place

def typeset (size : Size) : Pen → List Char → List Mark × Pen
  | pen, [] => ([], pen)
  | pen, ch :: rest =>
    ((place size pen ch).1 ++ (typeset size (place size pen ch).2 rest).1, (typeset size (place size pen ch).2 rest).2)

theorem typeset_append (size : Size) (pen : Pen) (s s' : List Char) :
    typeset size pen (s ++ s') =
      ((typeset size pen s).1 ++ (typeset size (typeset size pen s).2 s').1,
        (typeset size (typeset size pen s).2 s').2) := by
  induction s generalizing pen with
  | nil => rfl
  | cons ch s ih => simp only [List.cons_append, typeset, ih, List.append_assoc]

/-- The marks of a text without line breaks. -/
def lineMarks : List Char → Nat → Nat → List Mark
  | [], _, _ => []
  | ch :: text, x, y => .glyph ch ⟨x, y⟩ :: lineMarks text (x + 10) y

theorem lineMarks_concat (text : List Char) (ch : Char) (x y : Nat) :
    lineMarks (text ++ [ch]) x y = lineMarks text x y ++ [.glyph ch ⟨(x + 10 * text.length : Nat), y⟩] := by
  induction text generalizing x with
  | nil => rfl
  | cons first text ih =>
    have moved : x + 10 + 10 * text.length = x + 10 * (text.length + 1) := by omega
    rw [List.cons_append, lineMarks, ih, lineMarks, List.cons_append, List.length_cons, moved]

section Put

variable (canvas : Canvas D ε)

theorem put_bind {console : Console D} {marks marks' : List Mark} {cursor cursor' : Point}
    {next : Console D → Except (Panic ε) (Console D)}
    (rest : ∀ d, next { console with cursor := cursor, display := d } =
      put canvas { console with cursor := cursor, display := d } marks' cursor') :
    put canvas console marks cursor >>= next = put canvas console (marks ++ marks') cursor' := by
  unfold put at *
  rw [List.foldlM_append, mapError_bind, bind_assoc, bind_assoc]
  congr 1
  funext d
  rw [pure_bind, rest d]

theorem put_append (console : Console D) (marks marks' : List Mark) (cursor cursor' : Point) :
    put canvas console (marks ++ marks') cursor' =
      put canvas console marks cursor >>= fun console => put canvas console marks' cursor' :=
  (put_bind canvas fun _ => rfl).symm

theorem draw_put {console : Console D} {x y : Nat} (cursor : console.cursor = ⟨x, y⟩) (text : List Char) :
    console.draw canvas.target text =
      put canvas console (lineMarks text x y) ⟨(x + 10 * text.length : Nat), y⟩ := by
  have drawn : ∀ d, canvas.drawText d text ⟨x, y⟩ =
      (lineMarks text x y).foldlM canvas.perform d >>= fun d => pure (⟨(x + 10 * text.length : Nat), y⟩, d) := by
    intro d
    clear cursor
    induction text generalizing x d with
    | nil => rfl
    | cons ch text ih =>
      have moved : x + 10 + 10 * text.length = x + 10 * (text.length + 1) := by omega
      rw [Canvas.drawText, lineMarks, List.foldlM_cons, bind_assoc]
      congr 1
      funext d'
      have next := ih (x := x + 10) (d := d')
      rw [moved] at next
      exact next
  rw [draw, cursor, put]
  have same : canvas.target.drawText console.display text ⟨x, y⟩ = canvas.drawText console.display text ⟨x, y⟩ := rfl
  rw [same, drawn, mapError_bind, bind_assoc]
  rfl

theorem finish_put {console : Console D} {x y : Nat} (cursor : console.cursor = ⟨x, y⟩) (line : List Char) :
    finish canvas.target line console =
      put canvas console (lineMarks line x y) ⟨(x + 10 * line.length : Nat), y⟩ := by
  unfold finish
  split
  · rename_i empty
    subst empty
    simp only [put, lineMarks, List.foldlM_nil, List.length_nil, Nat.mul_zero, Nat.add_zero, ← cursor]
    rfl
  · exact draw_put canvas cursor line

theorem clear_put {console : Console D} : console.clear canvas.target = put canvas console [.clear] console.origin := by
  simp only [clear, put, List.foldlM_cons, List.foldlM_nil, bind_pure]
  rfl

theorem newline_put (height : canvas.size.height + 20 < 2^31) (console : Console D) (pen : Pen)
    (cursor : console.cursor = pen.cursor) (origin : console.origin = ⟨5, 25⟩) (row : pen.y + 20 < 2^31) :
    console.newline canvas.target = put canvas console (feed canvas.size pen).1 (feed canvas.size pen).2.cursor := by
  have line : lineHeight canvas.target = 20 := rfl
  have added : i32 (.overflow : Panic ε) (console.cursor.y + lineHeight canvas.target) =
      pure ((pen.y + 20 : Nat) : Int) := by
    rw [cursor, line]
    exact i32_natCast _ row
  have bottom : saturatingI32 canvas.target.size.height < ((pen.y + 20 : Nat) : Int) ↔
      canvas.size.height < pen.y + 20 := by
    simp only [saturatingI32, Canvas.target]
    omega
  rw [newline, added, pure_bind]
  by_cases past : canvas.size.height < pen.y + 20
  · rw [if_pos (bottom.mpr past), feed, if_pos past, clear_put, origin]
    rfl
  · rw [if_neg (fun low => past (bottom.mp low)), feed, if_neg past]
    rfl

theorem feed_eq {size : Size} (height : size.height + 20 < 2^31) (pen : Pen) :
    ∃ marks row, feed size pen = (marks, ⟨0, 5, row⟩) ∧ row + 20 < 2^31 := by
  unfold feed
  split
  · exact ⟨_, _, rfl, by decide⟩
  · exact ⟨_, _, rfl, by omega⟩

/-- A line break draws the line before it. -/
theorem break_put (height : canvas.size.height + 20 < 2^31) {console : Console D} {x y : Nat}
    (cursor : console.cursor = ⟨x, y⟩) (origin : console.origin = ⟨5, 25⟩) (row : y + 20 < 2^31) (line : List Char)
    {count : Nat} {fed : List Mark × Pen} (feeds : feed canvas.size ⟨count, x + 10 * line.length, y⟩ = fed)
    {next : Console D → Except (Panic ε) (Console D)} {marks : List Mark} {last : Point}
    (rest : ∀ d, next ⟨fed.2.cursor, console.origin, d⟩ = put canvas ⟨fed.2.cursor, console.origin, d⟩ marks last) :
    (console.draw canvas.target line >>= fun console => console.newline canvas.target >>= next) =
      put canvas console (lineMarks line x y ++ (fed.1 ++ marks)) last := by
  subst feeds
  rw [draw_put canvas cursor]
  apply put_bind
  intro d
  rw [newline_put canvas height ⟨_, console.origin, d⟩ ⟨count, x + 10 * line.length, y⟩ rfl origin row]
  apply put_bind
  exact rest

/-- After the loop and the last line, every character has been drawn where it is typeset. -/
theorem lay_put (width : canvas.size.width + 10 < 2^32) (height : canvas.size.height + 20 < 2^31) {console : Console D}
    {x y count : Nat} (cursor : console.cursor = ⟨x, y⟩) (origin : console.origin = ⟨5, 25⟩)
    (counted : count + 10 < 2^32) (row : y + 20 < 2^31) (line rest : List Char) :
    lay canvas.target console line count rest >>= (fun r => finish canvas.target r.1 r.2) =
      put canvas console
        (lineMarks line x y ++ (typeset canvas.size ⟨count, x + 10 * line.length, y⟩ rest).1)
        (typeset canvas.size ⟨count, x + 10 * line.length, y⟩ rest).2.cursor := by
  induction rest generalizing console x y count line with
  | nil =>
    rw [lay, pure_bind, finish_put canvas cursor, typeset, List.append_nil]
    rfl
  | cons ch rest ih =>
    obtain ⟨marks, row', feeds, low⟩ := feed_eq height ⟨count, x + 10 * line.length, y⟩
    -- what follows a line break, with the text of the line that it starts
    have after : ∀ line' d, lay canvas.target ⟨⟨(5 : Nat), row'⟩, console.origin, d⟩ line' 0 rest >>=
        (fun r => finish canvas.target r.1 r.2) = put canvas ⟨⟨(5 : Nat), row'⟩, console.origin, d⟩
          (lineMarks line' 5 row' ++ (typeset canvas.size ⟨0, 5 + 10 * line'.length, row'⟩ rest).1)
          (typeset canvas.size ⟨0, 5 + 10 * line'.length, row'⟩ rest).2.cursor := by
      intro line' d
      exact @ih ⟨⟨(5 : Nat), row'⟩, console.origin, d⟩ 5 row' 0 rfl origin (by decide) low line'
    rw [lay, bind_assoc, typeset]
    by_cases newline : ch = '\n'
    · subst newline
      have tested : breaks canvas.target console count '\n' = pure (true, count) := if_pos rfl
      rw [tested, pure_bind, place_newline, feeds]
      simp only [if_true, bind_assoc]
      exact break_put canvas height cursor origin row line feeds (after [])
    · have tested : breaks canvas.target console count ch =
          pure (decide (canvas.size.width ≤ count + 10), count + 10) := by
        have sum : u32 (.overflow : Panic ε) (count + canvas.target.measureString [ch] console.cursor) =
            pure (count + 10) := if_pos counted
        rw [breaks, if_neg newline, sum, pure_bind]
        rfl
      rw [tested, pure_bind]
      by_cases full : canvas.size.width ≤ count + 10
      · rw [place_wrap newline full, decide_eq_true full, feeds]
        simp only [if_true, if_neg newline, bind_assoc]
        rw [List.append_assoc]
        exact break_put canvas height cursor origin row line feeds (after [ch])
      · have more : count + 10 < canvas.size.width := Nat.lt_of_not_le full
        have moved : x + 10 * line.length + 10 = x + 10 * (line ++ [ch]).length := by
          rw [List.length_append, List.length_singleton]
          omega
        rw [place_more newline more, decide_eq_false full, moved]
        simp only [Bool.false_eq_true, if_false]
        rw [ih cursor origin (by omega) row (line ++ [ch]), lineMarks_concat, List.append_assoc]
        rfl

/-- `write` draws the text as it is typeset from the cursor. -/
theorem write_put (width : canvas.size.width + 10 < 2^32) (height : canvas.size.height + 20 < 2^31)
    {console : Console D} {x y : Nat} (cursor : console.cursor = ⟨x, y⟩) (origin : console.origin = ⟨5, 25⟩)
    (counted : x + 10 < 2^32) (row : y + 20 < 2^31) (s : List Char) :
    console.write canvas.target s = put canvas console (typeset canvas.size ⟨x, x, y⟩ s).1
      (typeset canvas.size ⟨x, x, y⟩ s).2.cursor := by
  have start : saturatingU32 console.cursor.x = x := by
    rw [cursor, saturatingU32]
    simp only
    omega
  rw [write_eq, start, lay_put canvas width height cursor origin counted row]
  rfl

end Put

end Platypos.Console
