import Mathlib.Algebra.Group.Int.Defs
import Mathlib.Algebra.Group.Nat.Defs
import Platypos.Library.Outcome

namespace Platypos.Display

open Outcome

section Arithmetic

variable {ε : Type} (overflow : ε)

def i32 (value : Int) : Except ε Int := if -2^31 ≤ value ∧ value < 2^31 then .ok value else .error overflow

def u32 (value : Nat) : Except ε Nat := if value < 2^32 then .ok value else .error overflow

def usize (value : Nat) : Except ε Nat := if value < 2^64 then .ok value else .error overflow

theorem i32_natCast {value : Nat} (fits : value < 2^31) : i32 overflow value = .ok (value : Int) :=
  if_pos ⟨by omega, by omega⟩

end Arithmetic

structure Point where
  x : Int
  y : Int
  deriving DecidableEq

structure Size where
  width : Nat
  height : Nat
  deriving DecidableEq

structure Color where
  r : UInt8
  g : UInt8
  b : UInt8

inductive PixelFormat where
  | rgb
  | bgr
  | u8
  | unknown (redPosition greenPosition bluePosition : UInt8)

structure FrameBufferInfo where
  width : Nat
  height : Nat
  stride : Nat
  bytesPerPixel : Nat
  pixelFormat : PixelFormat

inductive Panic where
  | strideTooLarge
  | overflow
  | indexOutOfBounds
  | pixelFormat (other : PixelFormat)

def size (info : FrameBufferInfo) : Size := ⟨info.width % 2^32, info.height % 2^32⟩

def store (buffer : List UInt8) (offset : Nat) (byte : UInt8) : Except Panic (List UInt8) :=
  if offset < buffer.length then .ok (buffer.set offset byte) else .error .indexOutOfBounds

def pixelOffset (stride : Nat) (coord : Point) : Except Panic Int := do
  let row ← i32 .overflow (coord.y * stride)
  i32 .overflow (row + coord.x)

/-- One turn of the loop in `draw_iter`. -/
def drawPixel (info : FrameBufferInfo) (buffer : List UInt8) (pixel : Point × Color) : Except Panic (List UInt8) := do
  let offset ← pixelOffset info.stride pixel.1
  -- the cast to `usize` sign-extends
  let byteOffset ← usize .overflow ((offset % 2^64).toNat * info.bytesPerPixel)
  match info.pixelFormat with
  | .rgb => do
    let buffer ← store buffer byteOffset pixel.2.r
    let buffer ← store buffer (byteOffset + 1) pixel.2.g
    store buffer (byteOffset + 2) pixel.2.b
  | .bgr => do
    let buffer ← store buffer byteOffset pixel.2.b
    let buffer ← store buffer (byteOffset + 1) pixel.2.g
    store buffer (byteOffset + 2) pixel.2.r
  | other => .error (.pixelFormat other)

def drawIter (info : FrameBufferInfo) (buffer : List UInt8) (pixels : List (Point × Color)) :
    Except Panic (List UInt8) :=
  if info.stride < 2^31 then pixels.foldlM (drawPixel info) buffer else .error .strideTooLarge

/-- What holds of the frame buffers that the boot loader hands over, and of the slice of their bytes. -/
structure FrameBufferInfo.Describes (info : FrameBufferInfo) (buffer : List UInt8) : Prop where
  columns : info.width ≤ info.stride
  length : buffer.length = info.stride * info.height * info.bytesPerPixel
  bytes : 3 ≤ info.bytesPerPixel
  format : info.pixelFormat = .rgb ∨ info.pixelFormat = .bgr
  addressed : buffer.length < 2^64

/-- The offset of the last pixel is an `i32`. -/
def FrameBufferInfo.OffsetsFit (info : FrameBufferInfo) : Prop :=
  info.stride < 2^31 ∧ (info.height - 1) * info.stride + info.width ≤ 2^31

/-- A pixel of the display. -/
structure FrameBufferInfo.Contains (info : FrameBufferInfo) (coord : Point) : Prop where
  left : 0 ≤ coord.x
  right : coord.x < info.width
  top : 0 ≤ coord.y
  bottom : coord.y < info.height

section Pixels

variable {info : FrameBufferInfo} {coord : Point}

theorem row_le {y height stride : Nat} (inside : y < height) : y * stride + stride ≤ stride * height := by
  calc y * stride + stride = (y + 1) * stride := (Nat.succ_mul y stride).symm
    _ ≤ height * stride := Nat.mul_le_mul_right stride inside
    _ = stride * height := Nat.mul_comm height stride

/-- The offset of a pixel of the display is in the row of the pixel. -/
theorem pixelOffset_of_contains (columns : info.width ≤ info.stride) (fit : info.OffsetsFit)
    (contains : info.Contains coord) :
    ∃ offset : Nat, pixelOffset info.stride coord = .ok offset ∧ offset < info.stride * info.height ∧
      offset / info.stride = coord.y.toNat ∧ offset % info.stride = coord.x.toNat := by
  obtain ⟨x, hx⟩ := Int.eq_ofNat_of_zero_le contains.left
  obtain ⟨y, hy⟩ := Int.eq_ofNat_of_zero_le contains.top
  have right := contains.right
  have bottom := contains.bottom
  rw [hx] at right
  rw [hy] at bottom
  have narrow : x < info.width := by exact_mod_cast right
  have low : y < info.height := by exact_mod_cast bottom
  have rows : y * info.stride ≤ (info.height - 1) * info.stride := Nat.mul_le_mul_right _ (by omega)
  have last := fit.2
  refine ⟨y * info.stride + x, ?_, ?_, ?_, ?_⟩
  · have row : i32 Panic.overflow (coord.y * info.stride) = .ok ((y * info.stride : Nat) : Int) := by
      rw [hy, ← Int.natCast_mul]
      exact i32_natCast _ (by omega)
    have whole : i32 Panic.overflow ((y * info.stride : Nat) + coord.x) = .ok ((y * info.stride + x : Nat) : Int) := by
      rw [hx, ← Int.natCast_add]
      exact i32_natCast _ (by omega)
    rw [pixelOffset, row]
    exact whole
  · have wide : y * info.stride + info.stride ≤ info.stride * info.height := row_le low
    omega
  · rw [hy, Nat.add_comm, Nat.add_mul_div_right _ _ (by omega), Nat.div_eq_of_lt (by omega), Nat.zero_add]
    rfl
  · rw [hx, Nat.add_comm, Nat.add_mul_mod_self_right, Nat.mod_eq_of_lt (by omega)]
    rfl

theorem store_ok {buffer : List UInt8} (offset : Nat) (byte : UInt8) (inside : offset < buffer.length) :
    ∃ buffer', store buffer offset byte = .ok buffer' ∧ buffer'.length = buffer.length :=
  ⟨buffer.set offset byte, if_pos inside, List.length_set⟩

theorem drawPixel_stored {buffer : List UInt8} (describes : info.Describes buffer) (color : Color) {offset : Nat}
    (found : pixelOffset info.stride coord = .ok offset) (inside : offset < info.stride * info.height) :
    ∃ buffer', drawPixel info buffer (coord, color) = .ok buffer' ∧ info.Describes buffer' := by
  have bytes := describes.bytes
  have length := describes.length
  have addressed := describes.addressed
  have room : offset * info.bytesPerPixel + info.bytesPerPixel ≤ buffer.length := by
    rw [length, ← Nat.succ_mul]
    exact Nat.mul_le_mul_right _ inside
  have cast : ((offset : Int) % 2^64).toNat = offset := by
    have single : offset ≤ offset * info.bytesPerPixel := Nat.le_mul_of_pos_right _ (by omega)
    omega
  have byteOffset : usize Panic.overflow (offset * info.bytesPerPixel) = .ok (offset * info.bytesPerPixel) :=
    if_pos (by omega)
  have stored : ∀ first second third, ∃ buffer', (do
      let buffer ← store buffer (offset * info.bytesPerPixel) first
      let buffer ← store buffer (offset * info.bytesPerPixel + 1) second
      store buffer (offset * info.bytesPerPixel + 2) third) = .ok buffer' ∧ buffer'.length = buffer.length := by
    intro first second third
    obtain ⟨buffer₁, one, length₁⟩ := store_ok (offset * info.bytesPerPixel) first (by omega : _ < buffer.length)
    obtain ⟨buffer₂, two, length₂⟩ := store_ok (offset * info.bytesPerPixel + 1) second (by omega : _ < buffer₁.length)
    obtain ⟨buffer₃, three, length₃⟩ := store_ok (offset * info.bytesPerPixel + 2) third (by omega : _ < buffer₂.length)
    refine ⟨buffer₃, ?_, by omega⟩
    simp only [one, two, three, Bind.bind, Except.bind]
  have kept : ∀ buffer' : List UInt8, buffer'.length = buffer.length → info.Describes buffer' := by
    intro buffer' same
    exact { describes with length := same.trans length, addressed := same ▸ addressed }
  rcases describes.format with rgb | bgr
  · obtain ⟨buffer', done, same⟩ := stored color.r color.g color.b
    refine ⟨buffer', ?_, kept buffer' same⟩
    simp only [drawPixel, found, cast, byteOffset, rgb, Bind.bind, Except.bind] at done ⊢
    exact done
  · obtain ⟨buffer', done, same⟩ := stored color.b color.g color.r
    refine ⟨buffer', ?_, kept buffer' same⟩
    simp only [drawPixel, found, cast, byteOffset, bgr, Bind.bind, Except.bind] at done ⊢
    exact done

theorem drawPixel_ok {buffer : List UInt8} (describes : info.Describes buffer) (fit : info.OffsetsFit)
    (contains : info.Contains coord) (color : Color) :
    ∃ buffer', drawPixel info buffer (coord, color) = .ok buffer' ∧ info.Describes buffer' := by
  obtain ⟨offset, found, inside, _, _⟩ := pixelOffset_of_contains describes.columns fit contains
  exact drawPixel_stored describes color found inside

/-- `draw_iter` completes if all pixels are on the display. -/
theorem drawIter_ok {buffer : List UInt8} (describes : info.Describes buffer) (fit : info.OffsetsFit)
    {pixels : List (Point × Color)} (contains : ∀ pixel ∈ pixels, info.Contains pixel.1) :
    ∃ buffer', drawIter info buffer pixels = .ok buffer' ∧ info.Describes buffer' := by
  rw [drawIter, if_pos fit.1]
  apply foldlM_ok _ describes
  intro pixel member buffer' described
  exact drawPixel_ok described fit (contains pixel member) pixel.2

end Pixels

end Platypos.Display
