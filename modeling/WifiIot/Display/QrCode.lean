import WifiIot.Display.Framebuffer

/-!
# Drawing a QR code

`ssd1306_PrintQr` draws a symbol with each module scaled to a square.  The
coordinates are of type `int` in the loops and of type `uint8_t` in
`ssd1306_DrawPixel`, so beyond 255 they come back to the screen before they are
clipped.

Source: `qrcode_gen/demo/demo.c`.
-/

namespace WifiIot.Display

open Raster

/-- What `qrcodegen_getSize` and `qrcodegen_getModule` say of a symbol; `true`
is a dark module. -/
structure QrCode where
  qrcodegen_getSize : Nat
  qrcodegen_getModule : Nat → Nat → Bool
  bounded : qrcodegen_getSize ≤ 177

/-- `zoom == 0 ? 1 : zoom` -/
def scale (zoom : UInt8) : Nat := if zoom = 0 then 1 else zoom.toNat

def QrCode.side (qrcode : QrCode) (zoom : UInt8) : Nat := qrcode.qrcodegen_getSize * scale zoom

/-- The colour of a module is passed as `!qrcodegen_getModule(…)`. -/
def QrCode.color (qrcode : QrCode) (zoom : UInt8) (x y : Nat) : SSD1306_COLOR :=
  if qrcode.qrcodegen_getModule (x / scale zoom) (y / scale zoom) then .Black else .White

/-- The framebuffer that `ssd1306_UpdateScreen` then sends to the screen. -/
def ssd1306_PrintQr (screen : Screen) (x_start y_start : UInt8) (qrcode : QrCode) (zoom : UInt8) :
    Screen :=
  (List.range (qrcode.side zoom)).foldl (fun screen y =>
    (List.range (qrcode.side zoom)).foldl (fun screen x =>
      ssd1306_DrawPixel screen (UInt8.ofNat (x_start.toNat + x)) (UInt8.ofNat (y_start.toNat + y))
        (qrcode.color zoom x y)) screen) screen

def QrCode.dot (qrcode : QrCode) (zoom x_start y_start : UInt8) (y x : Nat) : Dot :=
  ⟨UInt8.ofNat (x_start.toNat + x), UInt8.ofNat (y_start.toNat + y), qrcode.color zoom x y⟩

theorem ssd1306_PrintQr_eq (screen : Screen) (x_start y_start : UInt8) (qrcode : QrCode)
    (zoom : UInt8) :
    ssd1306_PrintQr screen x_start y_start qrcode zoom =
      screen.draw (scan (qrcode.side zoom) (qrcode.side zoom)
        (qrcode.dot zoom x_start y_start)) := by
  rw [Screen.draw, foldl_scan]
  rfl

section Printing

variable (screen : Screen) (x_start y_start : UInt8) (qrcode : QrCode) (zoom : UInt8)

def Covered (point : Point) : Prop :=
  x_start.toNat ≤ point.1.val ∧ point.1.val < x_start.toNat + qrcode.side zoom ∧
    y_start.toNat ≤ point.2.val ∧ point.2.val < y_start.toNat + qrcode.side zoom

/-- What the pixels should show: the module there, and beside the symbol what
they showed before. -/
def Expected (point : Point) (white : Bool) : Prop :=
  (Covered x_start y_start qrcode zoom point →
      white = decide (qrcode.color zoom (point.1.val - x_start.toNat)
        (point.2.val - y_start.toNat) = .White)) ∧
    (¬Covered x_start y_start qrcode zoom point → white = screen.pixel point)

/-- The last place `(x, y)` of the drawing that comes to the pixel. -/
structure LastPlace (point : Point) (x y : Nat) : Prop where
  column : (x_start.toNat + x) % 256 = point.1.val
  row : (y_start.toNat + y) % 256 = point.2.val
  left : x < qrcode.side zoom
  right : qrcode.side zoom ≤ x + 256
  above : y < qrcode.side zoom
  below : qrcode.side zoom ≤ y + 256

/-- The whole symbol is drawn in its place, clipped at the edges of the screen. -/
def Clipped : Prop :=
  ∀ point, Expected screen x_start y_start qrcode zoom point
    ((ssd1306_PrintQr screen x_start y_start qrcode zoom).pixel point)

/-- A place past 255 that comes back to a pixel last shows what the pixel should
show anyway. -/
def WrapsUnseen : Prop :=
  ∀ point x y, LastPlace x_start y_start qrcode zoom point x y →
    256 ≤ x_start.toNat + x ∨ 256 ≤ y_start.toNat + y →
    Expected screen x_start y_start qrcode zoom point (decide (qrcode.color zoom x y = .White))

end Printing

section Pixels

variable {screen : Screen} {x_start y_start : UInt8} {qrcode : QrCode} {zoom : UInt8}
  {point : Point}

theorem onScreen_place {x y : Nat} :
    onScreen (qrcode.dot zoom x_start y_start y x).x (qrcode.dot zoom x_start y_start y x).y =
        some point ↔
      (x_start.toNat + x) % 256 = point.1.val ∧ (y_start.toNat + y) % 256 = point.2.val := by
  rw [onScreen_eq_some, QrCode.dot, UInt8.toNat_ofNat', UInt8.toNat_ofNat']

theorem pixel_PrintQr_of_lastPlace (plain : screen.Inverted = 0) {x y : Nat}
    (last : LastPlace x_start y_start qrcode zoom point x y) :
    (ssd1306_PrintQr screen x_start y_start qrcode zoom).pixel point =
      decide (qrcode.color zoom x y = .White) := by
  obtain ⟨before, after, split, later⟩ :=
    exists_split_scan (qrcode.dot zoom x_start y_start) last.above last.left
  rw [ssd1306_PrintQr_eq, split]
  apply pixel_draw_of_last plain (onScreen_place.mpr ⟨last.column, last.row⟩)
  intro dot membership shown
  obtain ⟨laterRow, laterColumn, inRows, inColumns, order, rfl⟩ := later dot membership
  obtain ⟨column, row⟩ := onScreen_place.mp shown
  have sameColumn := last.column
  have sameRow := last.row
  have right := last.right
  have below := last.below
  omega

theorem exists_last {start side place : Nat} (place_lt : place < side) :
    ∃ last, (start + last) % 256 = (start + place) % 256 ∧ last < side ∧ side ≤ last + 256 := by
  refine ⟨place + 256 * ((side - 1 - place) / 256), ?_, ?_, ?_⟩
  all_goals omega

theorem pixel_PrintQr_of_unreached (plain : screen.Inverted = 0)
    (unreached : ∀ x < qrcode.side zoom, ∀ y < qrcode.side zoom,
      ¬((x_start.toNat + x) % 256 = point.1.val ∧ (y_start.toNat + y) % 256 = point.2.val)) :
    (ssd1306_PrintQr screen x_start y_start qrcode zoom).pixel point = screen.pixel point := by
  rw [ssd1306_PrintQr_eq]
  apply pixel_draw_of_miss plain
  intro dot membership shown
  obtain ⟨y, above, x, left, rfl⟩ := (mem_scan dot).mp membership
  exact unreached x left y above (onScreen_place.mp shown)

theorem Covered.place (covered : Covered x_start y_start qrcode zoom point) :
    ∃ x < qrcode.side zoom, ∃ y < qrcode.side zoom,
      (x_start.toNat + x) % 256 = point.1.val ∧ (y_start.toNat + y) % 256 = point.2.val := by
  obtain ⟨left, right, top, bottom⟩ := covered
  have column := point.1.isLt
  have row := point.2.isLt
  simp only [SSD1306_WIDTH, SSD1306_HEIGHT] at column row
  exact ⟨point.1.val - x_start.toNat, by omega, point.2.val - y_start.toNat, by omega, by omega,
    by omega⟩

/-- A last place before 256 is the pixel's own. -/
theorem LastPlace.expected {x y : Nat} (last : LastPlace x_start y_start qrcode zoom point x y)
    (column : x_start.toNat + x < 256) (row : y_start.toNat + y < 256) :
    Expected screen x_start y_start qrcode zoom point
      (decide (qrcode.color zoom x y = .White)) := by
  have here : x_start.toNat + x = point.1.val := (Nat.mod_eq_of_lt column).symm.trans last.column
  have there : y_start.toNat + y = point.2.val := (Nat.mod_eq_of_lt row).symm.trans last.row
  have left := last.left
  have above := last.above
  constructor
  · intro _
    rw [← here, ← there, Nat.add_sub_cancel_left, Nat.add_sub_cancel_left]
  · intro uncovered
    exact absurd ⟨by omega, by omega, by omega, by omega⟩ uncovered

/-- The symbol is drawn in its place exactly if the places that wrap at 256
show what the pixels should show anyway. -/
theorem printQr_clipped_iff (plain : screen.Inverted = 0) :
    Clipped screen x_start y_start qrcode zoom ↔
      WrapsUnseen screen x_start y_start qrcode zoom := by
  constructor
  · intro clipped point x y last _
    rw [← pixel_PrintQr_of_lastPlace plain last]
    exact clipped point
  · intro unseen point
    by_cases reached : ∃ x < qrcode.side zoom, ∃ y < qrcode.side zoom,
        (x_start.toNat + x) % 256 = point.1.val ∧ (y_start.toNat + y) % 256 = point.2.val
    · obtain ⟨anyColumn, inColumns, anyRow, inRows, column, row⟩ := reached
      obtain ⟨x, sameColumn, left, right⟩ := exists_last inColumns
      obtain ⟨y, sameRow, above, below⟩ := exists_last inRows
      have last : LastPlace x_start y_start qrcode zoom point x y :=
        ⟨sameColumn.trans column, sameRow.trans row, left, right, above, below⟩
      rw [pixel_PrintQr_of_lastPlace plain last]
      by_cases wraps : 256 ≤ x_start.toNat + x ∨ 256 ≤ y_start.toNat + y
      · exact unseen point x y last wraps
      · exact last.expected (by omega) (by omega)
    · have uncovered : ¬Covered x_start y_start qrcode zoom point := fun covered =>
        reached covered.place
      rw [pixel_PrintQr_of_unreached plain fun x left y above here =>
        reached ⟨x, left, y, above, here⟩]
      exact ⟨fun covered => absurd covered uncovered, fun _ => rfl⟩

theorem wrapsUnseen_of_le (right : x_start.toNat + qrcode.side zoom ≤ 256)
    (bottom : y_start.toNat + qrcode.side zoom ≤ 256) :
    WrapsUnseen screen x_start y_start qrcode zoom := by
  intro point x y last wraps
  have left := last.left
  have above := last.above
  omega

end Pixels

/-- A symbol of 21 modules with the upper light row of the finder pattern at
its right edge, and dark elsewhere. -/
def finderPattern : QrCode where
  qrcodegen_getSize := 21
  qrcodegen_getModule := fun x y => !decide (15 ≤ x ∧ x ≤ 19 ∧ y = 1)
  bounded := by decide

/-- Twice as large it reaches over the right edge and the lower one. -/
theorem printQr_clipped_right_corner : Clipped black 100 30 finderPattern 2 :=
  (printQr_clipped_iff rfl).mpr (wrapsUnseen_of_le (by decide) (by decide))

/-- Drawn from column 240, the symbol continues at the left edge of the screen. -/
theorem printQr_not_clipped :
    (ssd1306_PrintQr black 240 0 finderPattern 1).pixel (0, 1) = true ∧
      ¬Clipped black 240 0 finderPattern 1 := by
  have wrapped : LastPlace 240 0 finderPattern 1 (0, 1) 16 1 :=
    ⟨rfl, rfl, by decide, by decide, by decide, by decide⟩
  have light : (ssd1306_PrintQr black 240 0 finderPattern 1).pixel (0, 1) = true := by
    rw [pixel_PrintQr_of_lastPlace rfl wrapped]
    decide
  refine ⟨light, fun clipped => ?_⟩
  have untouched := (clipped (0, 1)).2 fun covered => absurd covered.1 (by decide)
  rw [light] at untouched
  exact absurd untouched (by decide)

end WifiIot.Display
