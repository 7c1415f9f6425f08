import Platypos.Console.Typeset

namespace Platypos.Console

open Display Outcome Exec

variable {D ε : Type}

/-- A new call counts the width from the cursor. -/
def Pen.resume (pen : Pen) : Pen := ⟨pen.x, pen.x, pen.y⟩

def Call.typeset (size : Size) (pen : Pen) : Call → List Mark × Pen
  | .write s => Console.typeset size pen.resume s
  | .newline => feed size pen
  | .clear => ([.clear], ⟨0, 5, 25⟩)

def typesetCalls (size : Size) : Pen → List Call → List Mark × Pen
  | pen, [] => ([], pen)
  | pen, call :: calls =>
    ((call.typeset size pen).1 ++ (typesetCalls size (call.typeset size pen).2 calls).1,
      (typesetCalls size (call.typeset size pen).2 calls).2)

/-- What holds of the pen at any time. -/
structure Pen.Placed (size : Size) (pen : Pen) : Prop where
  behind : pen.count ≤ pen.x
  counted : pen.x ≤ pen.count + 15
  column : pen.x < size.width + 15
  top : 25 ≤ pen.y
  bottom : pen.y + 20 < 2^31

section Placed

variable {size : Size} {pen : Pen}

theorem Pen.Placed.resume (placed : pen.Placed size) : pen.resume.Placed size :=
  ⟨Nat.le_refl _, Nat.le_add_right _ _, placed.column, placed.top, placed.bottom⟩

theorem feed_placed (height : size.height + 20 < 2^31) (placed : pen.Placed size) : (feed size pen).2.Placed size := by
  have top := placed.top
  unfold feed
  split
  · refine ⟨?_, ?_, ?_, ?_, ?_⟩ <;> simp only <;> omega
  · refine ⟨?_, ?_, ?_, ?_, ?_⟩ <;> simp only <;> omega

theorem place_placed (width : 0 < size.width) (height : size.height + 20 < 2^31) (placed : pen.Placed size)
    (ch : Char) : (place size pen ch).2.Placed size := by
  have fed := feed_placed height placed
  by_cases newline : ch = '\n'
  · rw [newline, place_newline]
    exact fed
  · have behind := placed.behind
    have counted := placed.counted
    by_cases full : size.width ≤ pen.count + 10
    · rw [place_wrap newline full]
      exact ⟨Nat.zero_le _, Nat.le_refl _, by simp only; omega, fed.top, fed.bottom⟩
    · rw [place_more newline (Nat.lt_of_not_le full)]
      exact ⟨by simp only; omega, by simp only; omega, by simp only; omega, placed.top, placed.bottom⟩

theorem typeset_placed (width : 0 < size.width) (height : size.height + 20 < 2^31) (placed : pen.Placed size)
    (s : List Char) : (typeset size pen s).2.Placed size := by
  induction s generalizing pen with
  | nil => exact placed
  | cons ch s ih => exact ih (place_placed width height placed ch)

theorem start_placed (width : 0 < size.width) : (⟨0, 5, 25⟩ : Pen).Placed size :=
  ⟨by decide, by decide, by simp only; omega, by decide, by decide⟩

theorem Call.typeset_placed (width : 0 < size.width) (height : size.height + 20 < 2^31) (placed : pen.Placed size)
    (call : Call) : (call.typeset size pen).2.Placed size := by
  cases call with
  | write s => exact Console.typeset_placed width height placed.resume s
  | newline => exact feed_placed height placed
  | clear => exact start_placed width

theorem typesetCalls_placed (width : 0 < size.width) (height : size.height + 20 < 2^31) (placed : pen.Placed size)
    (calls : List Call) : (typesetCalls size pen calls).2.Placed size := by
  induction calls generalizing pen with
  | nil => exact placed
  | cons call calls ih => exact ih (call.typeset_placed width height placed)

end Placed

/-- The sums that the console computes for a display of this size are in range. -/
structure Moderate (size : Size) : Prop where
  width : size.width + 25 < 2^31
  height : size.height + 20 < 2^31

/-- The console is ready to draw where the pen is. -/
structure At (console : Console D) (pen : Pen) : Prop where
  cursor : console.cursor = pen.cursor
  origin : console.origin = ⟨5, 25⟩

section Runs

variable (canvas : Canvas D ε) {console : Console D} {pen : Pen}

theorem new_eq (display : D) : Console.new canvas.target display = .ok ⟨⟨5, 25⟩, ⟨5, 25⟩, display⟩ := by
  have sum : MARGIN + lineHeight canvas.target = (25 : Nat) := rfl
  rw [new, sum, i32_natCast _ (by decide)]
  rfl

theorem new_at {display : D} (constructed : Console.new canvas.target display = .ok console) :
    At console ⟨0, 5, 25⟩ ∧ console.display = display := by
  cases (new_eq canvas display).symm.trans constructed
  exact ⟨⟨rfl, rfl⟩, rfl⟩

theorem write_at (moderate : Moderate canvas.size) (here : At console pen) (placed : pen.Placed canvas.size)
    (s : List Char) :
    console.write canvas.target s = put canvas console (typeset canvas.size pen.resume s).1
      (typeset canvas.size pen.resume s).2.cursor := by
  have width := moderate.width
  have column := placed.column
  exact write_put canvas (by omega) moderate.height here.cursor here.origin (by omega) placed.bottom s

theorem step_put (moderate : Moderate canvas.size) (here : At console pen) (placed : pen.Placed canvas.size)
    (call : Call) :
    console.step canvas.target call = (put canvas console (call.typeset canvas.size pen).1
      (call.typeset canvas.size pen).2.cursor).map fun console => ((), console) := by
  cases call with
  | write s =>
    rw [step, write_at canvas moderate here placed]
    rfl
  | newline =>
    rw [step, newline_put canvas moderate.height console pen here.cursor here.origin placed.bottom]
    rfl
  | clear =>
    rw [step, clear_put, here.origin]
    rfl

theorem put_at (here : At console pen) (marks : List Mark) {pen' : Pen} {console' : Console D}
    (done : put canvas console marks pen'.cursor = .ok console') :
    At console' pen' ∧ marks.foldlM canvas.perform console.display = .ok console'.display := by
  unfold put at done
  cases performed : marks.foldlM canvas.perform console.display with
  | error reason =>
    rw [performed] at done
    cases done
  | ok display =>
    rw [performed] at done
    cases done
    exact ⟨⟨rfl, here.origin⟩, rfl⟩

/-- A run of calls is a run of the display through what they typeset. -/
theorem exec_put (moderate : Moderate canvas.size) (positive : 0 < canvas.size.width) (here : At console pen)
    (placed : pen.Placed canvas.size) (calls : List Call) :
    exec (step canvas.target) console calls = (put canvas console (typesetCalls canvas.size pen calls).1
      (typesetCalls canvas.size pen calls).2.cursor).map fun console => (calls.map fun _ => (), console) := by
  induction calls generalizing console pen with
  | nil =>
    rw [typesetCalls, put, ← here.cursor]
    rfl
  | cons call calls ih =>
    have next := call.typeset_placed positive moderate.height placed
    rw [exec, step_put canvas moderate here placed, typesetCalls,
      put_append canvas console _ _ (call.typeset canvas.size pen).2.cursor]
    cases done : put canvas console (call.typeset canvas.size pen).1 (call.typeset canvas.size pen).2.cursor with
    | error reason => rfl
    | ok console' =>
      obtain ⟨there, _⟩ := put_at canvas here _ done
      simp only [Except.map, Bind.bind, Except.bind, ih there next]
      cases put canvas console' (typesetCalls canvas.size (call.typeset canvas.size pen).2 calls).1
        (typesetCalls canvas.size (call.typeset canvas.size pen).2 calls).2.cursor <;> rfl

end Runs

namespace Canvas

/-- The canvas with the marks that were made on it. -/
def recording (canvas : Canvas D ε) : Canvas (D × List Mark) ε where
  size := canvas.size
  drawGlyph d ch position := (canvas.drawGlyph d.1 ch position).map fun d' => (d', d.2 ++ [.glyph ch position])
  clear d := (canvas.clear d.1).map fun d' => (d', d.2 ++ [.clear])

theorem perform_recording (canvas : Canvas D ε) (d : D × List Mark) (mark : Mark) :
    canvas.recording.perform d mark = (canvas.perform d.1 mark).map fun d' => (d', d.2 ++ [mark]) := by
  cases mark <;> rfl

theorem foldlM_recording (canvas : Canvas D ε) (d : D) (log marks : List Mark) :
    marks.foldlM canvas.recording.perform (d, log) =
      (marks.foldlM canvas.perform d).map fun d' => (d', log ++ marks) := by
  induction marks generalizing d log with
  | nil =>
    rw [List.append_nil]
    rfl
  | cons mark marks ih =>
    rw [List.foldlM_cons, List.foldlM_cons, perform_recording]
    cases canvas.perform d mark with
    | error reason => rfl
    | ok d' =>
      simp only [Except.map, Bind.bind, Except.bind, ih, List.append_assoc, List.singleton_append]

end Canvas

theorem put_log {canvas : Canvas D ε} {console console' : Console (D × List Mark)} {pen : Pen} (here : At console pen)
    {marks : List Mark} {pen' : Pen} (done : put canvas.recording console marks pen'.cursor = .ok console') :
    console'.display.2 = console.display.2 ++ marks := by
  obtain ⟨_, performed⟩ := put_at _ here _ done
  rw [Canvas.foldlM_recording canvas console.display.1 console.display.2] at performed
  obtain ⟨_, _, whole⟩ := map_eq_ok.mp performed
  rw [← whole]

end Platypos.Console
