import Platypos.Console.Layout

namespace Platypos.Console

open Display Outcome Exec

variable {D ε : Type}

def FG_COLOR : Color := ⟨0, 255, 0⟩

def BG_COLOR : Color := ⟨0, 0, 0⟩

/-- A pixel of the cell of a glyph: columns `x..x + 9` and rows `y - 15..y + 4` for the cursor `(x, y)`. -/
def cellPixel (position : Point) (column : Fin 10) (row : Fin 20) : Point :=
  ⟨position.x + column.val, position.y - 15 + row.val⟩

def points (size : Size) : List Point :=
  (List.range size.height).flatMap fun (y : Nat) => (List.range size.width).map fun (x : Nat) => ⟨x, y⟩

namespace Canvas

/-- The display of the kernel. The font gives the pixels that are set in the cell of a character. -/
def frameBuffer (info : FrameBufferInfo) (font : Char → List (Fin 10 × Fin 20)) :
    Canvas (List UInt8) Display.Panic where
  size := Display.size info
  drawGlyph buffer ch position :=
    drawIter info buffer ((font ch).map fun p => (cellPixel position p.1 p.2, FG_COLOR))
  clear buffer := drawIter info buffer ((points (Display.size info)).map fun p => (p, BG_COLOR))

end Canvas

/-- The whole cell of the glyph is on the display. -/
def Mark.Inside (info : FrameBufferInfo) : Mark → Prop
  | .glyph _ position => ∀ column row, info.Contains (cellPixel position column row)
  | .clear => True

section Inside

variable {info : FrameBufferInfo}

theorem inside_glyph {size : Size} (width : size.width = info.width) (height : size.height = info.height)
    {x y : Nat} (top : 25 ≤ y) (ch : Char) :
    Mark.Inside info (.glyph ch ⟨x, y⟩) ↔ x + 10 ≤ size.width ∧ y + 5 ≤ size.height := by
  constructor
  · intro inside
    have corner := inside 9 19
    have right := corner.right
    have bottom := corner.bottom
    simp only [cellPixel] at right bottom
    change (x : Int) + 9 < info.width at right
    change (y : Int) - 15 + 19 < info.height at bottom
    omega
  · rintro ⟨right, bottom⟩ column row
    have narrow := column.isLt
    have low := row.isLt
    refine ⟨?_, ?_, ?_, ?_⟩ <;> simp only [cellPixel] <;> omega

theorem feed_inside (size : Size) (pen : Pen) : ∀ mark ∈ (feed size pen).1, mark.Inside info := by
  unfold feed
  split <;> simp [Mark.Inside]

/-- The cells of a text are on the display exactly if its lines fit. -/
theorem typeset_inside {size : Size} (width : size.width = info.width) (height : size.height = info.height)
    (wide : 20 < size.width) (moderate : size.height + 20 < 2^31) {pen : Pen} (placed : pen.Placed size)
    (s : List Char) :
    (∀ mark ∈ (typeset size pen s).1, mark.Inside info) ↔ LinesFit size pen (lineLengths s) := by
  induction s generalizing pen with
  | nil => exact iff_of_true (by simp [typeset]) ⟨lineFits_zero size pen, trivial⟩
  | cons ch s ih =>
    have next := ih (place_placed (by omega) moderate placed ch)
    rw [typeset, List.forall_mem_append, next]
    by_cases newline : ch = '\n'
    · subst newline
      rw [place_newline, lineLengths_newline, feed_nextRow, LinesFit, if_neg (Nat.not_lt_zero _)]
      exact and_congr (iff_of_true (feed_inside size pen) (lineFits_zero size pen)) Iff.rfl
    · obtain ⟨n, lines, before, after⟩ := lineLengths_cons newline s
      rw [before, after]
      by_cases full : size.width ≤ pen.count + 10
      · have fed := feed_placed moderate placed
        rw [place_wrap newline full, linesFit_wrap wide full, List.forall_mem_append, List.forall_mem_singleton,
          feed_nextRow, and_iff_right (feed_inside size pen)]
        rw [feed_nextRow] at fed
        exact and_congr (inside_glyph width height fed.top ch) Iff.rfl
      · have more := Nat.lt_of_not_le full
        rw [place_more newline more, linesFit_more more, List.forall_mem_singleton]
        exact and_congr (inside_glyph width height placed.top ch) Iff.rfl

end Inside

/-- The lines of a text that is written fit on the display, from where the cursor is. -/
def Fits (info : FrameBufferInfo) (console : Console D) : Call → Prop
  | .write s => LinesFit (Display.size info)
      ⟨console.cursor.x.toNat, console.cursor.x.toNat, console.cursor.y.toNat⟩ (lineLengths s)
  | .newline => True
  | .clear => True

section Drawing

variable {info : FrameBufferInfo} (font : Char → List (Fin 10 × Fin 20))

theorem perform_ok {buffer : List UInt8} (describes : info.Describes buffer) (fit : info.OffsetsFit) {mark : Mark}
    (inside : mark.Inside info) :
    ∃ buffer', (Canvas.frameBuffer info font).perform buffer mark = .ok buffer' ∧ info.Describes buffer' := by
  cases mark with
  | glyph ch position =>
    apply drawIter_ok describes fit
    intro pixel member
    obtain ⟨p, _, rfl⟩ := List.mem_map.mp member
    exact inside p.1 p.2
  | clear =>
    apply drawIter_ok describes fit
    intro pixel member
    obtain ⟨point, listed, rfl⟩ := List.mem_map.mp member
    obtain ⟨y, row, listed⟩ := List.mem_flatMap.mp listed
    obtain ⟨x, column, rfl⟩ := List.mem_map.mp listed
    have right : x < info.width := Nat.lt_of_lt_of_le (List.mem_range.mp column) (Nat.mod_le _ _)
    have bottom : y < info.height := Nat.lt_of_lt_of_le (List.mem_range.mp row) (Nat.mod_le _ _)
    exact ⟨by simp only; omega, by simp only; omega, by simp only; omega, by simp only; omega⟩

theorem put_ok {console : Console (List UInt8 × List Mark)} {pen : Pen} (pen' : Pen) (here : At console pen)
    (describes : info.Describes console.display.1) (fit : info.OffsetsFit) {marks : List Mark}
    (inside : ∀ mark ∈ marks, mark.Inside info) :
    ∃ console', put (Canvas.frameBuffer info font).recording console marks pen'.cursor = .ok console' ∧
      At console' pen' ∧ info.Describes console'.display.1 := by
  obtain ⟨buffer', performed, describes'⟩ : ∃ buffer',
      marks.foldlM (Canvas.frameBuffer info font).perform console.display.1 = .ok buffer' ∧ info.Describes buffer' := by
    apply foldlM_ok _ describes
    intro mark member buffer described
    exact perform_ok font described fit (inside mark member)
  refine ⟨{ console with cursor := pen'.cursor, display := (buffer', console.display.2 ++ marks) }, ?_,
    ⟨rfl, here.origin⟩, describes'⟩
  rw [put, Canvas.foldlM_recording, performed]
  rfl

theorem size_moderate (wide : 20 < info.width) (tall : 30 ≤ info.height) (columns : info.width ≤ info.stride)
    (fit : info.OffsetsFit) :
    (Display.size info).width = info.width ∧ (Display.size info).height = info.height ∧
      Moderate (Display.size info) := by
  have last := fit.2
  have rows : 29 * info.stride ≤ (info.height - 1) * info.stride := Nat.mul_le_mul_right _ (by omega)
  have strides : (info.height - 1) * 21 ≤ (info.height - 1) * info.stride := Nat.mul_le_mul_left _ (by omega)
  have width : info.width % 2^32 = info.width := Nat.mod_eq_of_lt (by omega)
  have height : info.height % 2^32 = info.height := Nat.mod_eq_of_lt (by omega)
  refine ⟨width, height, ?_, ?_⟩ <;> simp only [Display.size, width, height] <;> omega

theorem fits_iff {console : Console D} {pen : Pen} (wide : 20 < info.width) (tall : 30 ≤ info.height)
    (columns : info.width ≤ info.stride) (fit : info.OffsetsFit) (here : At console pen)
    (placed : pen.Placed (Display.size info)) (call : Call) :
    Fits info console call ↔ ∀ mark ∈ (call.typeset (Display.size info) pen).1, mark.Inside info := by
  obtain ⟨width, height, moderate⟩ := size_moderate wide tall columns fit
  cases call with
  | write s =>
    have same : (⟨console.cursor.x.toNat, console.cursor.x.toNat, console.cursor.y.toNat⟩ : Pen) = pen.resume := by
      rw [here.cursor]
      rfl
    rw [Fits, same]
    exact (typeset_inside width height (by omega) moderate.height placed.resume s).symm
  | newline => exact iff_of_true trivial (feed_inside _ pen)
  | clear => exact iff_of_true trivial (by simp [Call.typeset, Mark.Inside])

/-- All that a run of calls draws is on the display exactly if each text fits when it is written. -/
theorem inside_iff_meets (wide : 20 < info.width) (tall : 30 ≤ info.height) (columns : info.width ≤ info.stride)
    (fit : info.OffsetsFit) {console : Console (List UInt8 × List Mark)} {pen : Pen} (here : At console pen)
    (placed : pen.Placed (Display.size info)) (describes : info.Describes console.display.1) (calls : List Call) :
    (∀ mark ∈ (typesetCalls (Display.size info) pen calls).1, mark.Inside info) ↔
      Meets (step (Canvas.frameBuffer info font).recording.target) (Fits info) console calls := by
  obtain ⟨width, height, moderate⟩ := size_moderate wide tall columns fit
  induction calls generalizing console pen with
  | nil => exact iff_of_true (by simp [typesetCalls]) trivial
  | cons call calls ih =>
    have decided := fits_iff wide tall columns fit here placed call
    rw [typesetCalls, List.forall_mem_append]
    by_cases inside : ∀ mark ∈ (call.typeset (Display.size info) pen).1, mark.Inside info
    · obtain ⟨console', done, there, describes'⟩ :=
        put_ok font (call.typeset (Display.size info) pen).2 here describes fit inside
      have placed' := call.typeset_placed (by omega) moderate.height placed
      have stepped : console.step (Canvas.frameBuffer info font).recording.target call = .ok ((), console') := by
        rw [step_put (Canvas.frameBuffer info font).recording moderate here placed call]
        exact congrArg (Except.map fun console => ((), console)) done
      rw [meets_cons_of_ok stepped, decided, ih there placed' describes']
    · exact iff_of_false (fun both => inside both.1) fun meets => inside (decided.mp meets.1)

/-- Text stays on the screen exactly if every text that is written fits: then no call panics, every cell is on the
    display, and every pixel of it is stored in its own row. -/
theorem text_stays_on_screen (wide : 20 < info.width) (tall : 30 ≤ info.height) {buffer : List UInt8}
    (describes : info.Describes buffer) (fit : info.OffsetsFit) {console : Console (List UInt8 × List Mark)}
    (constructed : Console.new (Canvas.frameBuffer info font).recording.target (buffer, []) = .ok console)
    (calls : List Call) :
    ((∃ outs console',
      exec (step (Canvas.frameBuffer info font).recording.target) console calls = .ok (outs, console') ∧
      ∀ mark ∈ console'.display.2, mark.Inside info) ↔
        Meets (step (Canvas.frameBuffer info font).recording.target) (Fits info) console calls) ∧
    ∀ ch position, Mark.Inside info (.glyph ch position) → ∀ column row, ∃ offset : Nat,
      pixelOffset info.stride (cellPixel position column row) = .ok offset ∧ offset < info.stride * info.height ∧
        offset / info.stride = (cellPixel position column row).y.toNat ∧
        offset % info.stride = (cellPixel position column row).x.toNat := by
  obtain ⟨width, height, moderate⟩ := size_moderate wide tall describes.columns fit
  obtain ⟨here, display⟩ := new_at _ constructed
  have placed : (⟨0, 5, 25⟩ : Pen).Placed (Display.size info) := start_placed (by omega)
  have describes' : info.Describes console.display.1 := by rw [display]; exact describes
  refine ⟨?_, ?_⟩
  · have positive : 0 < (Display.size info).width := by omega
    rw [exec_put (Canvas.frameBuffer info font).recording moderate positive here placed,
      ← inside_iff_meets font wide tall describes.columns fit here placed describes']
    constructor
    · rintro ⟨outs, console', ran, inside⟩
      obtain ⟨final, done, same⟩ := map_eq_ok.mp ran
      cases same
      rw [put_log here done, display] at inside
      exact inside
    · intro inside
      obtain ⟨console', done, _, _⟩ :=
        put_ok font (typesetCalls (Display.size info) ⟨0, 5, 25⟩ calls).2 here describes' fit inside
      refine ⟨calls.map fun _ => (), console', congrArg (Except.map fun console => (_, console)) done, ?_⟩
      rw [put_log here done, display]
      exact inside
  · intro ch position inside column row
    exact pixelOffset_of_contains describes.columns fit (inside column row)

end Drawing

theorem text_stays_on_screen_two_lines :
    ∃ console outs console',
      Console.new (Canvas.frameBuffer ⟨60, 60, 64, 4, .bgr⟩ fun _ => [(0, 15)]).recording.target
        (List.replicate 15360 0, []) = .ok console ∧
      exec (step (Canvas.frameBuffer ⟨60, 60, 64, 4, .bgr⟩ fun _ => [(0, 15)]).recording.target) console
        [.write "hello\nworld".toList] = .ok (outs, console') ∧
      ∀ mark ∈ console'.display.2, mark.Inside ⟨60, 60, 64, 4, .bgr⟩ := by
  have describes : FrameBufferInfo.Describes ⟨60, 60, 64, 4, .bgr⟩ (List.replicate 15360 0) :=
    ⟨by decide, List.length_replicate, by decide, .inr rfl, by rw [List.length_replicate]; decide⟩
  have constructed := new_eq (Canvas.frameBuffer ⟨60, 60, 64, 4, .bgr⟩ fun _ => [(0, 15)]).recording
    (List.replicate 15360 0, [])
  have lines : LinesFit ⟨60, 60⟩ ⟨5, 5, 25⟩ [5, 5] :=
    ⟨⟨fun _ => by decide, fun wrap => absurd wrap (by decide)⟩,
      ⟨fun _ => by decide, fun wrap => absurd wrap (by decide)⟩, trivial⟩
  obtain ⟨outs, console', ran, inside⟩ := (text_stays_on_screen (fun _ => [(0, 15)]) (by decide) (by decide) describes
    ⟨by decide, by decide⟩ constructed [.write "hello\nworld".toList]).1.mpr ⟨lines, fun _ _ _ => trivial⟩
  exact ⟨_, outs, console', constructed, ran, inside⟩

/-- A wrapped line starts in column 5, but its width is counted from 0 and without the character that was wrapped. -/
theorem wrapped_line_drawn {buffer : List UInt8} (describes : FrameBufferInfo.Describes ⟨21, 50, 21, 3, .rgb⟩ buffer) :
    ∃ outs console',
      exec (step (Canvas.frameBuffer ⟨21, 50, 21, 3, .rgb⟩ fun _ => [(9, 15)]).recording.target)
        ⟨⟨5, 25⟩, ⟨5, 25⟩, (buffer, [])⟩ [.write "abc".toList] = .ok (outs, console') ∧
      console'.display.2 = [.glyph 'a' ⟨5, 25⟩, .glyph 'b' ⟨5, 45⟩, .glyph 'c' ⟨15, 45⟩] := by
  have drawn : ∀ buffer, FrameBufferInfo.Describes ⟨21, 50, 21, 3, .rgb⟩ buffer → ∀ ch position, ∀ offset : Nat,
      pixelOffset 21 (cellPixel position 9 15) = .ok offset → offset < 21 * 50 →
      ∃ buffer', (Canvas.frameBuffer ⟨21, 50, 21, 3, .rgb⟩ fun _ => [(9, 15)]).perform buffer (.glyph ch position) =
        .ok buffer' ∧ FrameBufferInfo.Describes ⟨21, 50, 21, 3, .rgb⟩ buffer' := by
    intro buffer described ch position offset found inside
    obtain ⟨buffer', stored, described'⟩ := drawPixel_stored described FG_COLOR found inside
    refine ⟨buffer', ?_, described'⟩
    simp only [Canvas.perform, Canvas.frameBuffer, drawIter, List.map_cons, List.map_nil, List.foldlM_cons,
      List.foldlM_nil, stored]
    rfl
  obtain ⟨buffer₁, first, described₁⟩ := drawn _ describes 'a' ⟨5, 25⟩ 539 rfl (by decide)
  obtain ⟨buffer₂, second, described₂⟩ := drawn _ described₁ 'b' ⟨5, 45⟩ 959 rfl (by decide)
  obtain ⟨buffer₃, third, _⟩ := drawn _ described₂ 'c' ⟨15, 45⟩ 969 rfl (by decide)
  have laid : typesetCalls ⟨21, 50⟩ ⟨0, 5, 25⟩ [.write "abc".toList] =
      ([.glyph 'a' ⟨5, 25⟩, .glyph 'b' ⟨5, 45⟩, .glyph 'c' ⟨15, 45⟩], ⟨10, 25, 45⟩) := by decide
  have performed : [.glyph 'a' ⟨5, 25⟩, .glyph 'b' ⟨5, 45⟩, .glyph 'c' ⟨15, 45⟩].foldlM
      (Canvas.frameBuffer ⟨21, 50, 21, 3, .rgb⟩ fun _ => [(9, 15)]).perform buffer = .ok buffer₃ := by
    simp only [List.foldlM_cons, List.foldlM_nil, first, second, third, Bind.bind, Except.bind]
    rfl
  refine ⟨[()], ⟨⟨25, 45⟩, ⟨5, 25⟩, (buffer₃, _)⟩, ?_, rfl⟩
  rw [exec_put (Canvas.frameBuffer ⟨21, 50, 21, 3, .rgb⟩ fun _ => [(9, 15)]).recording ⟨by decide, by decide⟩
    (by decide) ⟨rfl, rfl⟩ (start_placed (by decide)), put, Canvas.foldlM_recording]
  change Except.map _ ((Except.map _ ((typesetCalls ⟨21, 50⟩ ⟨0, 5, 25⟩ [.write "abc".toList]).1.foldlM _ _)).mapError
    _ >>= _) = _
  rw [laid, performed]
  rfl

/-- On a display of 21 columns the second character of the second line takes the columns 15 to 24, and column 24 is
    painted into the row below. -/
theorem wrapped_line_leaves_screen :
    ∃ console outs console',
      FrameBufferInfo.Describes ⟨21, 50, 21, 3, .rgb⟩ (List.replicate 3150 0) ∧
      Console.new (Canvas.frameBuffer ⟨21, 50, 21, 3, .rgb⟩ fun _ => [(9, 15)]).recording.target
        (List.replicate 3150 0, []) = .ok console ∧
      exec (step (Canvas.frameBuffer ⟨21, 50, 21, 3, .rgb⟩ fun _ => [(9, 15)]).recording.target) console
        [.write "abc".toList] = .ok (outs, console') ∧
      console'.display.2 = [.glyph 'a' ⟨5, 25⟩, .glyph 'b' ⟨5, 45⟩, .glyph 'c' ⟨15, 45⟩] ∧
      ¬ Mark.Inside ⟨21, 50, 21, 3, .rgb⟩ (.glyph 'c' ⟨15, 45⟩) ∧
      pixelOffset 21 (cellPixel ⟨15, 45⟩ 9 15) = .ok (46 * 21 + 3) := by
  have describes : FrameBufferInfo.Describes ⟨21, 50, 21, 3, .rgb⟩ (List.replicate 3150 0) :=
    ⟨by decide, List.length_replicate, by decide, .inl rfl, by rw [List.length_replicate]; decide⟩
  obtain ⟨outs, console', ran, drawn⟩ := wrapped_line_drawn describes
  refine ⟨_, outs, console', describes, new_eq _ _, ran, drawn, ?_, rfl⟩
  intro inside
  have right := (inside 9 15).right
  exact absurd right (by decide)

end Platypos.Console
