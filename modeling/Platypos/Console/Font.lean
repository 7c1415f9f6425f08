import Platypos.Console.Console

namespace Platypos.Console

open Display

variable {D ε : Type}

/-- A display on which single glyphs are drawn, at the position of the cursor. -/
structure Canvas (D ε : Type) where
  size : Size
  drawGlyph : D → Char → Point → Except ε D
  clear : D → Except ε D

namespace Canvas

/-- Text in `FONT_10X20`: glyph by glyph, each of which moves the cursor by 10. -/
def drawText (canvas : Canvas D ε) (d : D) : List Char → Point → Except ε (Point × D)
  | [], cursor => return (cursor, d)
  | ch :: text, cursor => do
    let d ← canvas.drawGlyph d ch cursor
    canvas.drawText d text ⟨cursor.x + 10, cursor.y⟩

/-- The canvas with the styles of the console: `FONT_10X20`, of which embedded-graphics measures a text at 10 for each
    byte, and the default line height. -/
def utf8Target (canvas : Canvas D ε) : Target D ε where
  size := canvas.size
  lineHeight := 20
  measureString text _ := 10 * Utf8.byteLength text
  drawText := canvas.drawText
  clear := canvas.clear

/-- The canvas as it is on ASCII text, where a character is a byte. -/
def target (canvas : Canvas D ε) : Target D ε where
  size := canvas.size
  lineHeight := 20
  measureString text _ := 10 * text.length
  drawText := canvas.drawText
  clear := canvas.clear

/-- A display that accepts everything. -/
def blank (size : Size) : Canvas Unit Empty where
  size := size
  drawGlyph _ _ _ := return ()
  clear _ := return ()

end Canvas

end Platypos.Console
