import Mathlib.Data.List.DropRight
import Platypos.Console.Ascii
import Platypos.Console.Screen

namespace Platypos.Display

open Outcome

abbrev Picture := Point → Color

namespace FrameBufferInfo

variable (info : FrameBufferInfo)

def index (coord : Point) : Nat := coord.y.toNat * info.stride + coord.x.toNat

/-- The byte of a pixel that has its first, second or third colour. -/
def byteOf (coord : Point) (k : Nat) : Nat := info.index coord * info.bytesPerPixel + k

/-- The bytes of a colour, in the order of the format. -/
def channel (color : Color) (k : Nat) : UInt8 :=
  match info.pixelFormat with
  | .bgr => if k = 0 then color.b else if k = 1 then color.g else color.r
  | _ => if k = 0 then color.r else if k = 1 then color.g else color.b

/-- The buffer shows the picture, and has been written nowhere else since it was the original one. -/
structure Shows (original buffer : List UInt8) (picture : Picture) : Prop where
  describes : info.Describes buffer
  pixels : ∀ coord, info.Contains coord → ∀ k < 3, buffer[info.byteOf coord k]? = some (info.channel (picture coord) k)
  elsewhere : ∀ i, (∀ coord, info.Contains coord → ∀ k < 3, i ≠ info.byteOf coord k) → buffer[i]? = original[i]?

/-- The picture that a buffer shows. -/
def pictureOf (buffer : List UInt8) : Picture := fun coord =>
  let byte (k : Nat) := buffer.getD (info.byteOf coord k) 0
  match info.pixelFormat with
  | .bgr => ⟨byte 2, byte 1, byte 0⟩
  | _ => ⟨byte 0, byte 1, byte 2⟩

end FrameBufferInfo

section Bytes

theorem place_unique {a b a' b' n : Nat} (small : b < n) (small' : b' < n) (same : a * n + b = a' * n + b') :
    a = a' ∧ b = b' := by
  have quotients : a = a' := by
    have quotient := congrArg (· / n) same
    simp only [Nat.add_comm _ b, Nat.add_comm _ b'] at quotient
    rwa [Nat.add_mul_div_right _ _ (by omega), Nat.add_mul_div_right _ _ (by omega), Nat.div_eq_of_lt small,
      Nat.div_eq_of_lt small', Nat.zero_add, Nat.zero_add] at quotient
  subst quotients
  exact ⟨rfl, Nat.add_left_cancel same⟩

variable {info : FrameBufferInfo} {coord coord' : Point}

theorem byteOf_injective {k k' : Nat} (bytes : 3 ≤ info.bytesPerPixel) (columns : info.width ≤ info.stride)
    (contains : info.Contains coord) (contains' : info.Contains coord') (small : k < 3) (small' : k' < 3)
    (same : info.byteOf coord k = info.byteOf coord' k') : coord = coord' ∧ k = k' := by
  obtain ⟨left, right, top, _⟩ := contains
  obtain ⟨left', right', top', _⟩ := contains'
  obtain ⟨indices, offsets⟩ := place_unique (by omega) (by omega) same
  obtain ⟨rows, columns⟩ := place_unique (by omega) (by omega) indices
  refine ⟨?_, offsets⟩
  cases coord
  cases coord'
  simp only [Point.mk.injEq] at *
  omega

theorem byteOf_lt {buffer : List UInt8} (describes : info.Describes buffer) (contains : info.Contains coord) {k : Nat}
    (small : k < 3) : info.byteOf coord k < buffer.length := by
  have bytes := describes.bytes
  have columns := describes.columns
  have wide : coord.y.toNat * info.stride + info.stride ≤ info.stride * info.height := by
    have bottom := contains.bottom
    have top := contains.top
    exact row_le (by omega)
  have inside : info.index coord < info.stride * info.height := by
    have right := contains.right
    have left := contains.left
    rw [FrameBufferInfo.index]
    omega
  have room : (info.index coord + 1) * info.bytesPerPixel ≤ buffer.length := by
    rw [describes.length]
    exact Nat.mul_le_mul_right _ inside
  rw [Nat.succ_mul] at room
  rw [FrameBufferInfo.byteOf]
  omega

end Bytes

/-- The three bytes of a pixel, written one after the other. -/
def FrameBufferInfo.stored (info : FrameBufferInfo) (buffer : List UInt8) (coord : Point) (color : Color) : List UInt8 :=
  ((buffer.set (info.byteOf coord 0) (info.channel color 0)).set (info.byteOf coord 1) (info.channel color 1)).set
    (info.byteOf coord 2) (info.channel color 2)

section Drawing

variable {info : FrameBufferInfo} {original buffer : List UInt8} {coord : Point} {picture : Picture}

theorem drawPixel_stores (describes : info.Describes buffer) (fit : info.OffsetsFit) (contains : info.Contains coord)
    (color : Color) : drawPixel info buffer (coord, color) = .ok (info.stored buffer coord color) := by
  obtain ⟨offset, found, inside, row, column⟩ := pixelOffset_of_contains describes.columns fit contains
  have index : offset = info.index coord := by
    rw [FrameBufferInfo.index, ← row, ← column, Nat.mul_comm, Nat.div_add_mod]
  have last := byteOf_lt describes contains (show 2 < 3 by decide)
  have addressed := describes.addressed
  have bytes := describes.bytes
  rw [FrameBufferInfo.byteOf, ← index] at last
  have cast : ((offset : Int) % 2^64).toNat = offset := by
    have single : offset ≤ offset * info.bytesPerPixel := Nat.le_mul_of_pos_right _ (by omega)
    omega
  have byteOffset : usize Panic.overflow (offset * info.bytesPerPixel) = .ok (offset * info.bytesPerPixel) :=
    if_pos (by omega)
  have stored : ∀ first second third, (do
      let buffer ← store buffer (offset * info.bytesPerPixel) first
      let buffer ← store buffer (offset * info.bytesPerPixel + 1) second
      store buffer (offset * info.bytesPerPixel + 2) third) =
        .ok (((buffer.set (offset * info.bytesPerPixel) first).set (offset * info.bytesPerPixel + 1) second).set
          (offset * info.bytesPerPixel + 2) third) := by
    intro first second third
    simp only [store, Bind.bind, Except.bind]
    rw [if_pos (by omega)]
    simp only [List.length_set]
    rw [if_pos (by omega)]
    simp only [List.length_set]
    rw [if_pos (by omega)]
  rw [FrameBufferInfo.stored, FrameBufferInfo.byteOf, FrameBufferInfo.byteOf, FrameBufferInfo.byteOf, ← index]
  rcases describes.format with rgb | bgr
  · simp only [drawPixel, found, cast, byteOffset, rgb, Bind.bind, Except.bind, FrameBufferInfo.channel] at stored ⊢
    exact stored color.r color.g color.b
  · simp only [drawPixel, found, cast, byteOffset, bgr, Bind.bind, Except.bind, FrameBufferInfo.channel] at stored ⊢
    exact stored color.b color.g color.r

theorem stored_describes (describes : info.Describes buffer) (color : Color) :
    info.Describes (info.stored buffer coord color) := by
  have same : (info.stored buffer coord color).length = buffer.length := by
    simp only [FrameBufferInfo.stored, List.length_set]
  exact { describes with length := same.trans describes.length, addressed := same ▸ describes.addressed }

theorem stored_same (describes : info.Describes buffer) (contains : info.Contains coord) (color : Color) {k : Nat}
    (small : k < 3) : (info.stored buffer coord color)[info.byteOf coord k]? = some (info.channel color k) := by
  have inside := byteOf_lt describes contains small
  have bytes : ∀ k, info.byteOf coord k = info.byteOf coord 0 + k := fun k => rfl
  rw [bytes] at inside ⊢
  have cases : k = 0 ∨ k = 1 ∨ k = 2 := by omega
  rw [FrameBufferInfo.stored, bytes 1, bytes 2]
  rcases cases with rfl | rfl | rfl
  · rw [List.getElem?_set_ne (by omega), List.getElem?_set_ne (by omega), Nat.add_zero,
      List.getElem?_set_self (by omega)]
  · rw [List.getElem?_set_ne (by omega), List.getElem?_set_self (by rw [List.length_set]; omega)]
  · rw [List.getElem?_set_self (by rw [List.length_set, List.length_set]; omega)]

theorem stored_other (color : Color) {i : Nat} (other : ∀ k < 3, i ≠ info.byteOf coord k) :
    (info.stored buffer coord color)[i]? = buffer[i]? := by
  rw [FrameBufferInfo.stored, List.getElem?_set_ne (other 2 (by decide)).symm,
    List.getElem?_set_ne (other 1 (by decide)).symm, List.getElem?_set_ne (other 0 (by decide)).symm]

namespace FrameBufferInfo.Shows

theorem refl (describes : info.Describes buffer) : info.Shows buffer buffer (info.pictureOf buffer) := by
  refine ⟨describes, ?_, fun _ _ => rfl⟩
  intro coord contains k small
  have read : info.channel (info.pictureOf buffer coord) k = buffer.getD (info.byteOf coord k) 0 := by
    have cases : k = 0 ∨ k = 1 ∨ k = 2 := by omega
    rw [FrameBufferInfo.channel, FrameBufferInfo.pictureOf]
    rcases describes.format with rgb | bgr
    · rcases cases with rfl | rfl | rfl <;> simp only [rgb] <;> rfl
    · rcases cases with rfl | rfl | rfl <;> simp only [bgr] <;> rfl
  have inside := byteOf_lt describes contains small
  rw [read, List.getD_eq_getElem?_getD, List.getElem?_eq_getElem inside]
  rfl

theorem congr {picture' : Picture} (shows : info.Shows original buffer picture)
    (same : ∀ coord, info.Contains coord → picture' coord = picture coord) : info.Shows original buffer picture' := by
  refine { shows with pixels := ?_ }
  intro coord contains k small
  rw [same coord contains]
  exact shows.pixels coord contains k small

theorem drawPixel (shows : info.Shows original buffer picture) (fit : info.OffsetsFit) (contains : info.Contains coord)
    (color : Color) :
    ∃ buffer', Display.drawPixel info buffer (coord, color) = .ok buffer' ∧
      info.Shows original buffer' (Function.update picture coord color) := by
  have describes := shows.describes
  refine ⟨_, drawPixel_stores describes fit contains color, stored_describes describes color, ?_, ?_⟩
  · intro coord' contains' k small
    by_cases same : coord' = coord
    · subst same
      rw [stored_same describes contains color small, Function.update_self]
    · rw [Function.update_of_ne same, stored_other, shows.pixels coord' contains' k small]
      intro k' small' clash
      exact same (byteOf_injective describes.bytes describes.columns contains' contains small small' clash).1
  · intro i outside
    rw [stored_other color (outside coord contains)]
    exact shows.elsewhere i outside

/-- The pixels are painted one over the other. -/
theorem drawIter (shows : info.Shows original buffer picture) (fit : info.OffsetsFit) {pixels : List (Point × Color)}
    (contains : ∀ pixel ∈ pixels, info.Contains pixel.1) :
    ∃ buffer', Display.drawIter info buffer pixels = .ok buffer' ∧
      info.Shows original buffer' (pixels.foldl (fun picture p => Function.update picture p.1 p.2) picture) := by
  rw [Display.drawIter, if_pos fit.1]
  induction pixels generalizing buffer picture with
  | nil => exact ⟨buffer, rfl, shows⟩
  | cons pixel pixels ih =>
    obtain ⟨here, there⟩ := List.forall_mem_cons.mp contains
    obtain ⟨buffer', drawn, shows'⟩ := shows.drawPixel fit here pixel.2
    obtain ⟨buffer'', rest, shows''⟩ := ih shows' there
    refine ⟨buffer'', ?_, shows''⟩
    rw [List.foldlM_cons, drawn]
    exact rest

end FrameBufferInfo.Shows

theorem foldl_paint (color : Color) (points : List Point) (picture : Picture) (coord : Point) :
    (points.map fun p => (p, color)).foldl (fun picture p => Function.update picture p.1 p.2) picture coord =
      if coord ∈ points then color else picture coord := by
  induction points generalizing picture with
  | nil => rfl
  | cons p points ih =>
    rw [List.map_cons, List.foldl_cons, ih]
    by_cases member : coord ∈ points
    · rw [if_pos member, if_pos (List.mem_cons_of_mem p member)]
    · rw [if_neg member]
      by_cases same : coord = p
      · subst same
        rw [Function.update_self, if_pos List.mem_cons_self]
      · rw [Function.update_of_ne same, if_neg (by simp [member, same])]

end Drawing

end Platypos.Display

namespace Platypos.Console

open Display Outcome Exec

variable {info : FrameBufferInfo} {font : Char → List (Fin 10 × Fin 20)}

/-- The glyph has a pixel at the place. -/
def Mark.Inks (font : Char → List (Fin 10 × Fin 20)) (coord : Point) : Mark → Prop
  | .glyph ch position => coord ∈ (font ch).map fun p => cellPixel position p.1 p.2
  | .clear => False

instance (coord : Point) (mark : Mark) : Decidable (mark.Inks font coord) := by
  cases mark <;> unfold Mark.Inks <;> infer_instance

/-- A mark as it changes the picture on the display. -/
def Mark.paint (font : Char → List (Fin 10 × Fin 20)) (picture : Picture) : Mark → Picture
  | .glyph ch position => fun coord => if Mark.Inks font coord (.glyph ch position) then FG_COLOR else picture coord
  | .clear => fun _ => BG_COLOR

/-- The marks that have not been cleared away. -/
def visible (marks : List Mark) : List Mark := marks.rtakeWhile (· ≠ .clear)

theorem visible_glyph (marks : List Mark) (ch : Char) (position : Point) :
    visible (marks ++ [.glyph ch position]) = visible marks ++ [.glyph ch position] :=
  List.rtakeWhile_concat_pos _ _ _ (by simp)

theorem visible_clear (marks : List Mark) : visible (marks ++ [.clear]) = [] :=
  List.rtakeWhile_concat_neg _ _ _ (by simp)

/-- Once the display has been cleared, the picture is that of the marks since. -/
theorem paint_visible (picture : Picture) (marks : List Mark) (coord : Point) :
    (Mark.clear :: marks).foldl (Mark.paint font) picture coord =
      if ∃ mark ∈ visible (.clear :: marks), mark.Inks font coord then FG_COLOR else BG_COLOR := by
  -- from the end, where the last mark is
  induction marks using List.reverseRecOn with
  | nil => rfl
  | append_singleton marks mark ih =>
    rw [← List.cons_append, List.foldl_append, List.foldl_cons, List.foldl_nil]
    cases mark with
    | glyph ch position =>
      simp only [Mark.paint, ih, visible_glyph]
      by_cases here : Mark.Inks font coord (.glyph ch position)
      · rw [if_pos here, if_pos ⟨_, List.mem_append_right _ (List.mem_singleton_self _), here⟩]
      · rw [if_neg here]
        congr 1
        simp only [List.mem_append, List.mem_singleton, or_and_right, exists_or, exists_eq_left, here, or_false]
    | clear =>
      rw [visible_clear, if_neg (by simp)]
      rfl

section Marks

variable {original buffer : List UInt8} {picture : Picture}

theorem mem_points {size : Size} (width : size.width = info.width) (height : size.height = info.height) {coord : Point} :
    coord ∈ points size ↔ info.Contains coord := by
  simp only [points, List.mem_flatMap, List.mem_map, List.mem_range]
  constructor
  · rintro ⟨y, low, x, narrow, rfl⟩
    refine ⟨?_, ?_, ?_, ?_⟩ <;> simp only <;> omega
  · rintro ⟨left, right, top, bottom⟩
    refine ⟨coord.y.toNat, by omega, coord.x.toNat, by omega, ?_⟩
    cases coord
    simp only [Point.mk.injEq] at *
    omega

variable (width : (Display.size info).width = info.width) (height : (Display.size info).height = info.height)
  (fit : info.OffsetsFit)

include width height fit

theorem perform_shows (shows : info.Shows original buffer picture) {mark : Mark} (inside : mark.Inside info) :
    ∃ buffer', (Canvas.frameBuffer info font).perform buffer mark = .ok buffer' ∧
      info.Shows original buffer' (mark.paint font picture) := by
  cases mark with
  | glyph ch position =>
    have contains : ∀ pixel ∈ ((font ch).map fun p => cellPixel position p.1 p.2).map fun p => (p, FG_COLOR),
        info.Contains pixel.1 := by
      intro pixel member
      obtain ⟨coord, listed, rfl⟩ := List.mem_map.mp member
      obtain ⟨p, _, rfl⟩ := List.mem_map.mp listed
      exact inside p.1 p.2
    obtain ⟨buffer', drawn, shows'⟩ := shows.drawIter fit contains
    rw [List.map_map] at drawn
    refine ⟨buffer', drawn, shows'.congr ?_⟩
    intro coord _
    rw [foldl_paint]
    rfl
  | clear =>
    have contains : ∀ pixel ∈ (points (Display.size info)).map fun p => (p, BG_COLOR), info.Contains pixel.1 := by
      intro pixel member
      obtain ⟨coord, listed, rfl⟩ := List.mem_map.mp member
      exact (mem_points width height).mp listed
    obtain ⟨buffer', drawn, shows'⟩ := shows.drawIter fit contains
    refine ⟨buffer', drawn, shows'.congr ?_⟩
    intro coord inside
    rw [foldl_paint, if_pos ((mem_points width height).mpr inside)]
    rfl

theorem marks_show (shows : info.Shows original buffer picture) {marks : List Mark}
    (inside : ∀ mark ∈ marks, mark.Inside info) :
    ∃ buffer', marks.foldlM (Canvas.frameBuffer info font).perform buffer = .ok buffer' ∧
      info.Shows original buffer' (marks.foldl (Mark.paint font) picture) := by
  induction marks generalizing buffer picture with
  | nil => exact ⟨buffer, rfl, shows⟩
  | cons mark marks ih =>
    obtain ⟨here, there⟩ := List.forall_mem_cons.mp inside
    obtain ⟨buffer', first, shows'⟩ := perform_shows width height fit shows here
    obtain ⟨buffer'', rest, shows''⟩ := ih shows' there
    refine ⟨buffer'', ?_, shows''⟩
    rw [List.foldlM_cons, first]
    exact rest

end Marks

/-- What a run of calls has drawn that begins by clearing the display, while all text fits. -/
theorem cleared_shows (wide : 20 < info.width) (tall : 30 ≤ info.height) {buffer : List UInt8}
    (describes : info.Describes buffer) (fit : info.OffsetsFit) {console : Console (List UInt8 × List Mark)}
    (here : At console ⟨0, 5, 25⟩) (display : console.display = (buffer, [])) (calls : List Call)
    (meets : Meets (step (Canvas.frameBuffer info font).recording.target) (Fits info) console (.clear :: calls)) :
    ∃ outs console',
      exec (step (Canvas.frameBuffer info font).recording.target) console (.clear :: calls) = .ok (outs, console') ∧
      console'.display.2 = (typesetCalls (Display.size info) ⟨0, 5, 25⟩ (.clear :: calls)).1 ∧
      info.Shows buffer console'.display.1 fun coord =>
        if ∃ mark ∈ visible console'.display.2, mark.Inks font coord then FG_COLOR else BG_COLOR := by
  obtain ⟨width, height, moderate⟩ := size_moderate wide tall describes.columns fit
  have placed : (⟨0, 5, 25⟩ : Pen).Placed (Display.size info) := start_placed (by omega)
  have positive : 0 < (Display.size info).width := by omega
  have describes' : info.Describes console.display.1 := by rw [display]; exact describes
  have inside := (inside_iff_meets font wide tall describes.columns fit here placed describes' _).mpr meets
  obtain ⟨console', done, _, _⟩ :=
    put_ok font (typesetCalls (Display.size info) ⟨0, 5, 25⟩ (.clear :: calls)).2 here describes' fit inside
  have log := put_log here done
  rw [display, List.nil_append] at log
  refine ⟨(Call.clear :: calls).map fun _ => (), console', ?_, log, ?_⟩
  · rw [exec_put (Canvas.frameBuffer info font).recording moderate positive here placed]
    exact congrArg (Except.map fun console => (_, console)) done
  · obtain ⟨buffer', performed, shows⟩ := marks_show width height fit (.refl describes) inside
    obtain ⟨_, drawn⟩ := put_at _ here _ done
    rw [display, Canvas.foldlM_recording, performed] at drawn
    have last : buffer' = console'.display.1 := congrArg (fun d => d.1) (Except.ok.inj drawn)
    rw [← last, log]
    exact shows.congr fun coord _ => (paint_visible _ _ coord).symm

/-- After the display has been cleared and while all text is printable and fits, it shows the glyphs since the last
    time that it was cleared, and the bytes beside its pixels are as they were. -/
theorem screen_shows_text (wide : 20 < info.width) (tall : 30 ≤ info.height) {buffer : List UInt8}
    (describes : info.Describes buffer) (fit : info.OffsetsFit) {console : Console (List UInt8 × List Mark)}
    (constructed : Console.new (Canvas.frameBuffer info font).recording.utf8Target (buffer, []) = .ok console)
    (calls : List Call) (printable : ∀ call ∈ calls, call.Printable)
    (meets : Meets (step (Canvas.frameBuffer info font).recording.utf8Target) (Fits info) console (.clear :: calls)) :
    ∃ outs console',
      exec (step (Canvas.frameBuffer info font).recording.utf8Target) console (.clear :: calls) =
        .ok (outs, console') ∧
      console'.display.2 = (typesetCalls (Display.size info) ⟨0, 5, 25⟩ (.clear :: calls)).1 ∧
      info.Shows buffer console'.display.1 fun coord =>
        if ∃ mark ∈ visible console'.display.2, mark.Inks font coord then FG_COLOR else BG_COLOR := by
  have all : ∀ call ∈ Call.clear :: calls, call.Printable := List.forall_mem_cons.mpr ⟨trivial, printable⟩
  obtain ⟨here, display⟩ := new_at (Canvas.frameBuffer info font).recording constructed
  rw [meets_ascii _ all] at meets
  rw [exec_ascii _ all]
  exact cleared_shows wide tall describes fit here display calls meets

theorem screen_shows_text_greeting :
    ∃ console outs console',
      Console.new (Canvas.frameBuffer ⟨60, 60, 64, 4, .bgr⟩ fun _ => [(0, 15)]).recording.utf8Target
        (List.replicate 15360 7, []) = .ok console ∧
      exec (step (Canvas.frameBuffer ⟨60, 60, 64, 4, .bgr⟩ fun _ => [(0, 15)]).recording.utf8Target) console
        [.clear, .write "hello\nworld".toList] = .ok (outs, console') ∧
      console'.display.1[(25 * 64 + 5) * 4 + 1]? = some 255 ∧
      console'.display.1[(25 * 64 + 6) * 4 + 1]? = some 0 ∧
      console'.display.1[(25 * 64 + 5) * 4 + 3]? = some 7 := by
  have describes : FrameBufferInfo.Describes ⟨60, 60, 64, 4, .bgr⟩ (List.replicate 15360 7) :=
    ⟨by decide, List.length_replicate, by decide, .inr rfl, by rw [List.length_replicate]; decide⟩
  have constructed := new_eq (Canvas.frameBuffer ⟨60, 60, 64, 4, .bgr⟩ fun _ => [(0, 15)]).recording
    (List.replicate 15360 7, [])
  have here := (new_at _ constructed).1
  have lines : LinesFit ⟨60, 60⟩ ⟨5, 5, 25⟩ [5, 5] :=
    ⟨⟨fun _ => by decide, fun wrap => absurd wrap (by decide)⟩,
      ⟨fun _ => by decide, fun wrap => absurd wrap (by decide)⟩, trivial⟩
  have printable : ∀ call ∈ [Call.clear, .write "hello\nworld".toList], call.Printable := by decide +kernel
  have meets : Meets (step (Canvas.frameBuffer ⟨60, 60, 64, 4, .bgr⟩ fun _ => [(0, 15)]).recording.utf8Target)
      (Fits ⟨60, 60, 64, 4, .bgr⟩) ⟨⟨5, 25⟩, ⟨5, 25⟩, (List.replicate 15360 7, [])⟩
      [.clear, .write "hello\nworld".toList] := by
    rw [meets_ascii _ printable]
    refine ⟨trivial, fun _ console' stepped => ⟨?_, fun _ _ _ => trivial⟩⟩
    rw [step_put _ ⟨by decide, by decide⟩ here (start_placed (by decide))] at stepped
    obtain ⟨_, done, same⟩ := map_eq_ok.mp stepped
    cases same
    obtain ⟨there, _⟩ := put_at _ here _ done
    rw [Fits, there.cursor]
    exact lines
  obtain ⟨outs, console', ran, log, shows⟩ :=
    screen_shows_text (by decide) (by decide) describes ⟨by decide, by decide⟩ constructed _
      (List.forall_mem_cons.mp printable).2 meets
  rw [log] at shows
  refine ⟨_, outs, console', constructed, ran, ?_, ?_, ?_⟩
  · exact shows.pixels ⟨5, 25⟩ ⟨by decide, by decide, by decide, by decide⟩ 1 (by decide)
  · exact shows.pixels ⟨6, 25⟩ ⟨by decide, by decide, by decide, by decide⟩ 1 (by decide)
  · rw [shows.elsewhere]
    · rw [List.getElem?_replicate]
      rfl
    · intro coord _ k small
      simp only [FrameBufferInfo.byteOf]
      omega

end Platypos.Console
