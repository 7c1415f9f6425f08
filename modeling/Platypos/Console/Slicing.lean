import Platypos.Console.Font

namespace Platypos.Console

open Display Outcome

variable {D ε : Type}

/-- `needsLineBreak`, with the character in place of its slice. -/
def breaks (t : Target D ε) (console : Console D) (lineWidth : Nat) (ch : Char) : Except (Panic ε) (Bool × Nat) :=
  if ch = '\n' then return (true, lineWidth)
  else do
    let lineWidth ← u32 .overflow (lineWidth + t.measureString [ch] console.cursor)
    return (decide (t.size.width ≤ lineWidth), lineWidth)

/-- The loop of `write`, with the text of the last line in place of the offset at which it starts. -/
def lay (t : Target D ε) : Console D → List Char → Nat → List Char → Except (Panic ε) (List Char × Console D)
  | console, line, _, [] => return (line, console)
  | console, line, lineWidth, ch :: rest => do
    let (needed, lineWidth) ← breaks t console lineWidth ch
    if needed then
      let console ← console.draw t line
      let console ← console.newline t
      lay t console (if ch = '\n' then [] else [ch]) 0 rest
    else lay t console (line ++ [ch]) lineWidth rest

def finish (t : Target D ε) (line : List Char) (console : Console D) : Except (Panic ε) (Console D) :=
  if line = [] then return console else console.draw t line

section Offsets

variable (t : Target D ε)

theorem slice_append (a b c : List Char) :
    (slice (a ++ (b ++ c)) (Utf8.byteLength a) (Utf8.byteLength a + Utf8.byteLength b) : Except (Panic ε) _) =
      pure b := by
  rw [slice, Utf8.slice_append]
  rfl

theorem needsLineBreak_eq (console : Console D) (lineWidth : Nat) (before : List Char) (ch : Char) (after : List Char) :
    needsLineBreak t (before ++ ch :: after) console lineWidth (Utf8.byteLength before) ch =
      breaks t console lineWidth ch := by
  have sliced := slice_append (ε := ε) before [ch] after
  rw [Utf8.byteLength_cons, Utf8.byteLength_nil, Nat.add_zero, List.singleton_append] at sliced
  rw [needsLineBreak, breaks, sliced, pure_bind]

/-- The offsets kept by the loop are those of the line within the text, so that every slice succeeds. -/
theorem scan_eq (console : Console D) (before line : List Char) (lineWidth : Nat) (rest : List Char) :
    (scan t (before ++ (line ++ rest)) console (Utf8.byteLength before) lineWidth
        (Utf8.charIndices (Utf8.byteLength before + Utf8.byteLength line) rest) >>=
      fun r => writeRemaining t (before ++ (line ++ rest)) r.1 r.2) =
    lay t console line lineWidth rest >>= fun r => finish t r.1 r.2 := by
  induction rest generalizing console before line lineWidth with
  | nil =>
    have sliced := slice_append (ε := ε) before line []
    simp only [List.append_nil] at sliced
    simp only [Utf8.charIndices, scan, lay, List.append_nil, pure_bind, writeRemaining, Utf8.byteLength_append, sliced,
      Nat.lt_add_right_iff_pos, Utf8.byteLength_pos, finish]
    by_cases empty : line = []
    · simp [empty]
    · rw [if_pos empty, if_neg empty]
  | cons ch rest ih =>
    have tested := needsLineBreak_eq t console lineWidth (before ++ line) ch rest
    have sliced := slice_append (ε := ε) before line (ch :: rest)
    rw [Utf8.byteLength_append, List.append_assoc] at tested
    rw [Utf8.charIndices, scan, lay, tested, bind_assoc, bind_assoc]
    congr 1
    funext verdict
    obtain ⟨needed, width⟩ := verdict
    cases needed with
    | false =>
      have next := ih console before (line ++ [ch]) width
      rw [List.append_assoc, List.singleton_append, Utf8.byteLength_append] at next
      simpa [Nat.add_assoc] using next
    | true =>
      simp only [if_true, sliced, bind_assoc, pure_bind]
      congr 1
      funext drawn
      congr 1
      funext fresh
      by_cases newline : ch = '\n'
      · have single : '\n'.utf8Size = 1 := by decide
        have next := ih fresh (before ++ (line ++ ['\n'])) [] 0
        simpa [newline, single, Nat.add_assoc] using next
      · have next := ih fresh (before ++ line) [ch] 0
        simpa [newline, Nat.add_assoc] using next

theorem write_eq (console : Console D) (s : List Char) :
    console.write t s =
      lay t console [] (saturatingU32 console.cursor.x) s >>= fun r => finish t r.1 r.2 :=
  scan_eq t console [] [] (saturatingU32 console.cursor.x) s

end Offsets

/-- The display with the segments of text that were passed to it. -/
def Target.recording (t : Target D ε) : Target (D × List (List Char)) ε where
  size := t.size
  lineHeight := t.lineHeight
  measureString := t.measureString
  drawText d text cursor := (t.drawText d.1 text cursor).map fun r => (r.1, r.2, d.2 ++ [text])
  clear d := (t.clear d.1).map fun d' => (d', d.2)

section Segments

variable (t : Target D ε)

/-- The segments drawn between two states of the console make up the text. -/
def Drawn (before after : Console (D × List (List Char))) (text : List Char) : Prop :=
  ∃ segments, after.display.2 = before.display.2 ++ segments ∧ segments.flatten = text

theorem Drawn.refl (console : Console (D × List (List Char))) : Drawn console console [] :=
  ⟨[], by simp, rfl⟩

theorem Drawn.trans {first second third : Console (D × List (List Char))} {text text' : List Char}
    (one : Drawn first second text) (two : Drawn second third text') : Drawn first third (text ++ text') := by
  obtain ⟨segments, added, rfl⟩ := one
  obtain ⟨segments', added', rfl⟩ := two
  exact ⟨segments ++ segments', by rw [added', added, List.append_assoc], List.flatten_append⟩

/-- A panic other than that of a slice. -/
def Panic.Unsliced (e : Panic ε) : Prop := e ≠ .charBoundary

theorem draw_drawn (console : Console (D × List (List Char))) (text : List Char) :
    Ensures (console.draw t.recording text) (fun console' => Drawn console console' text) Panic.Unsliced := by
  have passed : Ensures (t.recording.drawText console.display text console.cursor)
      (fun r => r.2.2 = console.display.2 ++ [text]) fun _ => True := by
    simp only [Target.recording]
    cases t.drawText console.display.1 text console.cursor <;> trivial
  apply (passed.mapError fun reason _ => (by simp [Panic.Unsliced] : Panic.Unsliced (.draw reason))).bind
  intro r added
  exact ⟨[text], added, by simp⟩

theorem clear_drawn (console : Console (D × List (List Char))) :
    Ensures (console.clear t.recording) (fun console' => Drawn console console' []) Panic.Unsliced := by
  have cleared : Ensures (t.recording.clear console.display) (fun d => d.2 = console.display.2) fun _ => True := by
    simp only [Target.recording]
    cases t.clear console.display.1 <;> trivial
  apply (cleared.mapError fun reason _ => (by simp [Panic.Unsliced] : Panic.Unsliced (.draw reason))).bind
  intro display same
  exact ⟨[], by simp [same], rfl⟩

theorem i32_unsliced (value : Int) : Ensures (i32 (.overflow : Panic ε) value) (fun _ => True) Panic.Unsliced := by
  unfold i32
  split
  · trivial
  · simp [Panic.Unsliced]

theorem newline_drawn (console : Console (D × List (List Char))) :
    Ensures (console.newline t.recording) (fun console' => Drawn console console' []) Panic.Unsliced := by
  apply (i32_unsliced (console.cursor.y + lineHeight t.recording)).bind
  intro newY _
  split
  · exact clear_drawn t console
  · exact Drawn.refl console

theorem breaks_unsliced (console : Console D) (lineWidth : Nat) (ch : Char) :
    Ensures (breaks t console lineWidth ch) (fun r => ch = '\n' → r.1 = true) Panic.Unsliced := by
  unfold breaks
  split
  · exact fun _ => rfl
  · rename_i plain
    simp only [u32]
    split
    · exact fun newline => absurd newline plain
    · simp [Panic.Unsliced, Bind.bind, Except.bind]

/-- What is drawn and the line that is left over are the text without its newlines. -/
theorem lay_drawn (console : Console (D × List (List Char))) (line : List Char) (lineWidth : Nat) (rest : List Char) :
    Ensures (lay t.recording console line lineWidth rest)
      (fun r => ∃ text, Drawn console r.2 text ∧ text ++ r.1 = line ++ rest.filter (· ≠ '\n')) Panic.Unsliced := by
  induction rest generalizing console line lineWidth with
  | nil => exact ⟨[], Drawn.refl console, by simp⟩
  | cons ch rest ih =>
    apply (breaks_unsliced t.recording console lineWidth ch).bind
    rintro ⟨needed, width⟩ forced
    cases needed with
    | false =>
      have plain : ch ≠ '\n' := fun newline => Bool.false_ne_true (forced newline)
      apply (ih console (line ++ [ch]) width).imp
      rintro r ⟨text, drawn, whole⟩
      exact ⟨text, drawn, by simpa [plain] using whole⟩
    | true =>
      apply (draw_drawn t console line).bind
      intro console₁ drawn₁
      apply (newline_drawn t console₁).bind
      intro console₂ drawn₂
      apply (ih console₂ (if ch = '\n' then [] else [ch]) 0).imp
      rintro r ⟨text, drawn, whole⟩
      refine ⟨line ++ [] ++ text, (drawn₁.trans drawn₂).trans drawn, ?_⟩
      rw [List.append_nil, List.append_assoc, whole]
      by_cases newline : ch = '\n' <;> simp [newline]

theorem write_drawn (console : Console (D × List (List Char))) (s : List Char) :
    Ensures (console.write t.recording s) (fun console' => Drawn console console' (s.filter (· ≠ '\n')))
      Panic.Unsliced := by
  rw [write_eq]
  apply (lay_drawn t console [] (saturatingU32 console.cursor.x) s).bind
  rintro ⟨line, console'⟩ ⟨text, drawn, whole⟩
  rw [List.nil_append] at whole
  rw [← whole]
  unfold finish
  split
  · rename_i empty
    simp only at empty
    rw [empty, List.append_nil]
    exact drawn
  · apply (draw_drawn t console' line).imp
    intro final last
    exact drawn.trans last

end Segments

/-- Drawing succeeds and leaves the cursor in its row. -/
structure Target.Reliable (t : Target D ε) : Prop where
  draws : ∀ d text cursor, ∃ x d', t.drawText d text cursor = .ok (⟨x, cursor.y⟩, d')
  clears : ∀ d, ∃ d', t.clear d = .ok d'

/-- The row below can be computed. -/
def Target.Row (t : Target D ε) (y : Int) : Prop := -2^31 ≤ y ∧ y + t.lineHeight < 2^31

/-- The sums that `write` computes are in range. -/
structure Target.InRange (t : Target D ε) (console : Console D) : Prop where
  width : ∀ ch cursor, t.size.width + t.measureString [ch] cursor < 2^32
  start : ∀ ch cursor, saturatingU32 console.cursor.x + t.measureString [ch] cursor < 2^32
  height : t.size.height + t.lineHeight < 2^31
  cursor : t.Row console.cursor.y
  origin : t.Row console.origin.y

section Returns

variable {t : Target D ε}

theorem recording_reliable (reliable : t.Reliable) : t.recording.Reliable where
  draws := by
    intro d text cursor
    obtain ⟨x, d', drawn⟩ := reliable.draws d.1 text cursor
    exact ⟨x, (d', d.2 ++ [text]), by simp only [Target.recording, drawn]; rfl⟩
  clears := by
    intro d
    obtain ⟨d', cleared⟩ := reliable.clears d.1
    exact ⟨(d', d.2), by simp only [Target.recording, cleared]; rfl⟩

theorem draw_returns (reliable : t.Reliable) (console : Console D) (text : List Char) :
    ∃ console', console.draw t text = .ok console' ∧ console'.cursor.y = console.cursor.y ∧
      console'.origin = console.origin := by
  obtain ⟨x, d', drawn⟩ := reliable.draws console.display text console.cursor
  exact ⟨{ console with cursor := ⟨x, console.cursor.y⟩, display := d' }, by rw [draw, drawn]; rfl, rfl, rfl⟩

theorem newline_returns (reliable : t.Reliable) {console : Console D} (height : t.size.height + t.lineHeight < 2^31)
    (cursor : t.Row console.cursor.y) (origin : t.Row console.origin.y) :
    ∃ console', console.newline t = .ok console' ∧ t.Row console'.cursor.y ∧ console'.origin = console.origin := by
  obtain ⟨low, high⟩ := cursor
  have line : lineHeight t = t.lineHeight := by
    unfold lineHeight saturatingI32
    omega
  have bottom : saturatingI32 t.size.height = t.size.height := by
    unfold saturatingI32
    omega
  have added : i32 (.overflow : Panic ε) (console.cursor.y + lineHeight t) = pure (console.cursor.y + lineHeight t) :=
    if_pos (by omega)
  rw [newline, added, pure_bind, bottom]
  split
  · obtain ⟨d', cleared⟩ := reliable.clears console.display
    exact ⟨{ console with cursor := console.origin, display := d' }, by rw [clear, cleared]; rfl, origin, rfl⟩
  · refine ⟨_, rfl, ⟨?_, ?_⟩, rfl⟩
    · simp only
      omega
    · simp only
      omega

theorem breaks_returns (console : Console D) {lineWidth : Nat} (ch : Char)
    (start : ∀ ch cursor, lineWidth + t.measureString [ch] cursor < 2^32) :
    ∃ needed lineWidth', breaks t console lineWidth ch = .ok (needed, lineWidth') ∧
      (needed = false → lineWidth' < t.size.width) := by
  unfold breaks
  by_cases newline : ch = '\n'
  · exact ⟨true, lineWidth, if_pos newline, by simp⟩
  · have fits := start ch console.cursor
    refine ⟨decide (t.size.width ≤ lineWidth + t.measureString [ch] console.cursor),
      lineWidth + t.measureString [ch] console.cursor, ?_, by simp⟩
    rw [if_neg newline, u32, if_pos fits]
    rfl

theorem lay_returns (reliable : t.Reliable) (width : ∀ ch cursor, t.size.width + t.measureString [ch] cursor < 2^32)
    (height : t.size.height + t.lineHeight < 2^31) {console : Console D} (cursor : t.Row console.cursor.y)
    (origin : t.Row console.origin.y) (line : List Char) {lineWidth : Nat}
    (start : ∀ ch cursor, lineWidth + t.measureString [ch] cursor < 2^32) (rest : List Char) :
    ∃ r, lay t console line lineWidth rest = .ok r := by
  induction rest generalizing console line lineWidth with
  | nil => exact ⟨_, rfl⟩
  | cons ch rest ih =>
    obtain ⟨needed, lineWidth', tested, below⟩ := breaks_returns console ch start
    cases needed with
    | true =>
      obtain ⟨console₁, drawn, row, kept⟩ := draw_returns reliable console line
      obtain ⟨console₂, advanced, row', kept'⟩ := newline_returns reliable height (row ▸ cursor) (kept ▸ origin)
      have narrow : ∀ ch cursor, 0 + t.measureString [ch] cursor < 2^32 := by
        intro ch cursor
        have wide := width ch cursor
        omega
      obtain ⟨r, laid⟩ := ih row' (by rw [kept', kept]; exact origin) (if ch = '\n' then [] else [ch]) narrow
      refine ⟨r, ?_⟩
      rw [lay, tested]
      simp only [Bind.bind, Except.bind, if_true, drawn, advanced]
      exact laid
    | false =>
      have below' : ∀ ch cursor, lineWidth' + t.measureString [ch] cursor < 2^32 := by
        intro ch cursor
        have wide := width ch cursor
        have less := below rfl
        omega
      obtain ⟨r, laid⟩ := ih cursor origin (line ++ [ch]) below'
      refine ⟨r, ?_⟩
      rw [lay, tested]
      exact laid

theorem write_returns (reliable : t.Reliable) {console : Console D} (inRange : t.InRange console) (s : List Char) :
    ∃ console', console.write t s = .ok console' := by
  obtain ⟨r, laid⟩ := lay_returns reliable inRange.width inRange.height inRange.cursor inRange.origin [] inRange.start s
  rw [write_eq, laid]
  simp only [Bind.bind, Except.bind, finish]
  split
  · exact ⟨_, rfl⟩
  · obtain ⟨console', drawn, _⟩ := draw_returns reliable r.2 r.1
    exact ⟨console', drawn⟩

end Returns

/-- `write` never slices inside a character. When it returns, it has drawn the text without the newlines; and it
    returns if drawing succeeds and its sums are in range. -/
theorem write_keeps_text (t : Target D ε) (console : Console (D × List (List Char))) (s : List Char) :
    Ensures (console.write t.recording s) (fun console' => Drawn console console' (s.filter (· ≠ '\n')))
      (fun e => e ≠ .charBoundary) ∧
    (t.Reliable → t.recording.InRange console → ∃ console', console.write t.recording s = .ok console') :=
  ⟨write_drawn t console s, fun reliable inRange => write_returns (recording_reliable reliable) inRange s⟩

theorem drawText_reliable (size : Size) (text : List Char) (cursor : Point) :
    ∃ x d', (Canvas.blank size).drawText () text cursor = .ok (⟨x, cursor.y⟩, d') := by
  induction text generalizing cursor with
  | nil => exact ⟨cursor.x, (), rfl⟩
  | cons ch text ih => exact ih ⟨cursor.x + 10, cursor.y⟩

theorem blank_reliable (size : Size) : (Canvas.blank size).utf8Target.Reliable where
  draws _ := drawText_reliable size
  clears _ := ⟨(), rfl⟩

theorem blank_inRange {size : Size} {console : Console (Unit × List (List Char))} (width : size.width + 40 < 2^32)
    (start : saturatingU32 console.cursor.x + 40 < 2^32) (height : size.height + 20 < 2^31)
    (cursor : (Canvas.blank size).utf8Target.Row console.cursor.y)
    (origin : (Canvas.blank size).utf8Target.Row console.origin.y) :
    (Canvas.blank size).utf8Target.recording.InRange console := by
  have measured : ∀ ch position, (Canvas.blank size).utf8Target.recording.measureString [ch] position ≤ 40 := by
    intro ch position
    have bytes := Char.utf8Size_le_four ch
    simp only [Target.recording, Canvas.utf8Target, Utf8.byteLength_cons, Utf8.byteLength_nil]
    omega
  refine ⟨?_, ?_, height, cursor, origin⟩
  · intro ch position
    have most := measured ch position
    change size.width + _ < _
    omega
  · intro ch position
    have most := measured ch position
    omega

theorem write_keeps_text_two_bytes :
    ∃ console' : Console (Unit × List (List Char)),
      Console.write (Canvas.blank ⟨40, 30⟩).utf8Target.recording ⟨⟨5, 25⟩, ⟨5, 25⟩, ((), [])⟩ "aé\nbcdef".toList =
        .ok console' ∧ Drawn ⟨⟨5, 25⟩, ⟨5, 25⟩, ((), [])⟩ console' "aébcdef".toList := by
  obtain ⟨kept, returns⟩ := write_keeps_text (Canvas.blank ⟨40, 30⟩).utf8Target ⟨⟨5, 25⟩, ⟨5, 25⟩, ((), [])⟩
    "aé\nbcdef".toList
  obtain ⟨console', returned⟩ := returns (blank_reliable ⟨40, 30⟩)
    (blank_inRange (by decide) (by decide) (by decide) ⟨by decide, by decide⟩ ⟨by decide, by decide⟩)
  exact ⟨console', returned, kept.of_ok returned⟩

/-- The row below a cursor that no display has is not an `i32`: the text after the newline is never drawn. -/
theorem newline_past_last_row :
    Console.write (Canvas.blank ⟨640, 480⟩).target.recording ⟨⟨5, 2^31 - 1⟩, ⟨5, 25⟩, ((), [])⟩ "\nab".toList =
      .error .overflow := by
  rfl

end Platypos.Console
