import Platypos.Library.Exec
import Platypos.Library.Utf8
import Platypos.Console.Display

namespace Platypos

namespace Console

open Display

inductive Panic (ε : Type) where
  | charBoundary
  | overflow
  | draw (reason : ε)

/-- A display with the styles in which the console draws text: `measureString` is the width of the bounding box, and
    `drawText` returns the position after the text. -/
structure Target (D ε : Type) where
  size : Size
  lineHeight : Nat
  measureString : List Char → Point → Nat
  drawText : D → List Char → Point → Except ε (Point × D)
  clear : D → Except ε D

end Console

structure Console (D : Type) where
  cursor : Display.Point
  origin : Display.Point
  display : D

namespace Console

open Display

variable {D ε : Type}

def MARGIN : Int := 5

def saturatingU32 (value : Int) : Nat := min value.toNat (2^32 - 1)

def saturatingI32 (value : Nat) : Int := min (value : Int) (2^31 - 1)

def lineHeight (t : Target D ε) : Int := saturatingI32 t.lineHeight

def new (t : Target D ε) (display : D) : Except (Panic ε) (Console D) := do
  let y ← i32 .overflow (MARGIN + lineHeight t)
  return ⟨⟨MARGIN, y⟩, ⟨MARGIN, y⟩, display⟩

/-- `self.cursor = Text::with_text_style(text, self.cursor, ..).draw(&mut self.display)?`. -/
def draw (t : Target D ε) (console : Console D) (text : List Char) : Except (Panic ε) (Console D) := do
  let (cursor, display) ← (t.drawText console.display text console.cursor).mapError .draw
  return { console with cursor := cursor, display := display }

def clear (t : Target D ε) (console : Console D) : Except (Panic ε) (Console D) := do
  let display ← (t.clear console.display).mapError .draw
  return { console with cursor := console.origin, display := display }

def newline (t : Target D ε) (console : Console D) : Except (Panic ε) (Console D) := do
  let newY ← i32 .overflow (console.cursor.y + lineHeight t)
  if saturatingI32 t.size.height < newY then console.clear t
  else return { console with cursor := ⟨MARGIN, newY⟩ }

/-- `&s[start..stop]`. -/
def slice (s : List Char) (start stop : Nat) : Except (Panic ε) (List Char) :=
  match Utf8.slice s start stop with
  | some text => .ok text
  | none => .error .charBoundary

/-- Whether the character needs a line break, and the width of the line with it. -/
def needsLineBreak (t : Target D ε) (s : List Char) (console : Console D) (lineWidth idx : Nat) (ch : Char) :
    Except (Panic ε) (Bool × Nat) :=
  if ch = '\n' then return (true, lineWidth)
  else do
    let text ← slice s idx (idx + ch.utf8Size)
    let lineWidth ← u32 .overflow (lineWidth + t.measureString text console.cursor)
    return (decide (t.size.width ≤ lineWidth), lineWidth)

/-- The loop of `write`: the start of the last line and the console at the end. -/
def scan (t : Target D ε) (s : List Char) :
    Console D → Nat → Nat → List (Nat × Char) → Except (Panic ε) (Nat × Console D)
  | console, lineStart, _, [] => return (lineStart, console)
  | console, lineStart, lineWidth, (idx, ch) :: rest => do
    let (needed, lineWidth) ← needsLineBreak t s console lineWidth idx ch
    if needed then
      let text ← slice s lineStart idx
      let console ← console.draw t text
      let console ← console.newline t
      scan t s console (if ch = '\n' then idx + 1 else idx) 0 rest
    else scan t s console lineStart lineWidth rest

/-- What `write` does after the loop. -/
def writeRemaining (t : Target D ε) (s : List Char) (lineStart : Nat) (console : Console D) :
    Except (Panic ε) (Console D) :=
  if lineStart < Utf8.byteLength s then do
    let text ← slice s lineStart (Utf8.byteLength s)
    console.draw t text
  else return console

def write (t : Target D ε) (console : Console D) (s : List Char) : Except (Panic ε) (Console D) := do
  let (lineStart, console) ← scan t s console 0 (saturatingU32 console.cursor.x) (Utf8.charIndices 0 s)
  writeRemaining t s lineStart console

inductive Call where
  | write (s : List Char)
  | newline
  | clear

def step (t : Target D ε) (console : Console D) : Call → Except (Panic ε) (Unit × Console D)
  | .write s => (console.write t s).map fun console => ((), console)
  | .newline => (console.newline t).map fun console => ((), console)
  | .clear => (console.clear t).map fun console => ((), console)

end Console

end Platypos
