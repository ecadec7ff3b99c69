import WifiIot.Display.Region

/-!
# The sprites of the game

`ssd1306_DrawBitmapAtPosition` draws a bitmap at a signed position.  The checks
in its loops let the coordinates 128 and 64 pass, which `ssd1306_DrawPixel`
refuses; what they skip could come back to the screen after the cut to eight
bits.

`SSD1306_Buffer` and `ssd1306_DrawPixel` of the game are those of the driver.

Source: `astronauts_game/game/src/oled.c`.
-/

namespace WifiIot.Game.Oled

open Display Memory Raster

universe u

variable {Name : Type u}

def skips (bound : Nat) (coordinate : Int) : Prop := coordinate > bound ∨ coordinate < 0

instance (bound : Nat) (coordinate : Int) : Decidable (skips bound coordinate) :=
  inferInstanceAs (Decidable (_ ∨ _))

def ssd1306_DrawBitmapAtPosition (screen : Screen) (bitmap : Source Name) (width height : UInt8)
    (xo yo : Int8) : Checked Name Screen :=
  (List.range height.toNat).foldlM (fun screen (y : Nat) =>
    if skips Display.SSD1306_HEIGHT (yo.toInt + y) then .ok screen
    else (List.range width.toNat).foldlM (fun screen (x : Nat) =>
      if skips Display.SSD1306_WIDTH (xo.toInt + x) then .ok screen
      else do
        let byte ← bitmap (y * width.toNat / 8 + x / 8)
        .ok (ssd1306_DrawPixel screen (UInt8.ofInt (xo.toInt + x)) (UInt8.ofInt (yo.toInt + y))
          (decodeColor byte (UInt8.ofNat x)))) screen) screen

/-! ## The sprite as a drawing -/

section Drawing

variable (width : Nat) (xo yo : Int8) (bytes : Nat → UInt8)

/-- The dot for a place in the bitmap, if it is not skipped. -/
def spriteDot? (y x : Nat) : Option Dot :=
  if skips Display.SSD1306_HEIGHT (yo.toInt + y) ∨ skips Display.SSD1306_WIDTH (xo.toInt + x) then none
  else some ⟨UInt8.ofInt (xo.toInt + x), UInt8.ofInt (yo.toInt + y),
    decodeColor (bytes (y * width / 8 + x / 8)) (UInt8.ofNat x)⟩

def sprite (height : Nat) : List Dot :=
  (scan height width (spriteDot? width xo yo bytes)).flatMap Option.toList

variable {width xo yo bytes} {height : Nat}

theorem mem_sprite {dot : Dot} :
    dot ∈ sprite width xo yo bytes height ↔
      ∃ y < height, ∃ x < width, spriteDot? width xo yo bytes y x = some dot := by
  simp only [sprite, List.mem_flatMap, mem_scan, Option.mem_toList]
  constructor
  · rintro ⟨_, ⟨y, above, x, inside, rfl⟩, drawn⟩
    exact ⟨y, above, x, inside, drawn⟩
  · rintro ⟨y, above, x, inside, drawn⟩
    exact ⟨_, ⟨y, above, x, inside, rfl⟩, drawn⟩

theorem kept_of_lt {size place : Nat} (small : size ≤ 256) (inside : place < size) :
    ¬skips size place ∧ (UInt8.ofInt place).toNat = place := by
  have cut := toNat_ofInt place
  unfold skips
  omega

/-- What is not skipped comes to the screen in its own place only. -/
theorem eq_of_kept {coordinate : Int} {size place : Nat} (small : size < 256)
    (kept : ¬skips size coordinate) (same : (UInt8.ofInt coordinate).toNat = place) :
    coordinate = place := by
  have cut := toNat_ofInt coordinate
  unfold skips at kept
  omega

theorem ssd1306_DrawBitmapAtPosition_eq_draw (screen : Screen) (bytes : Nat → UInt8)
    {bitmap : Source Name} {width height : UInt8}
    (readable : ∀ y < height.toNat, ∀ x < width.toNat,
      bitmap (y * width.toNat / 8 + x / 8) = .ok (bytes (y * width.toNat / 8 + x / 8))) :
    ssd1306_DrawBitmapAtPosition screen bitmap width height xo yo =
      .ok (screen.draw (sprite width.toNat xo yo bytes height.toNat)) := by
  have rounds (screen : Screen) : screen.draw (sprite width.toNat xo yo bytes height.toNat) =
      (List.range height.toNat).foldl (fun screen y => (List.range width.toNat).foldl
        (fun screen x => screen.draw (spriteDot? width.toNat xo yo bytes y x).toList) screen)
        screen := by
    rw [Screen.draw, sprite, List.foldl_flatMap, foldl_scan]
    rfl
  rw [rounds]
  apply foldlM_eq_ok
  intro y above screen
  by_cases skippedRow : skips Display.SSD1306_HEIGHT (yo.toInt + y)
  · have idle : (fun (screen : Screen) x =>
        screen.draw (spriteDot? width.toNat xo yo bytes y x).toList) = fun screen _ => screen := by
      funext screen x
      rw [spriteDot?, if_pos (.inl skippedRow)]
      rfl
    rw [if_pos skippedRow, idle, List.foldl_fixed]
  · rw [if_neg skippedRow]
    apply foldlM_eq_ok
    intro x inside screen
    by_cases skipped : skips Display.SSD1306_WIDTH (xo.toInt + x)
    · rw [if_pos skipped, spriteDot?, if_pos (.inr skipped)]
      rfl
    · rw [if_neg skipped, readable y (List.mem_range.mp above) x (List.mem_range.mp inside), ok_bind,
        spriteDot?, if_neg (not_or.mpr ⟨skippedRow, skipped⟩)]
      rfl

/-- The place of the bitmap that a dot of the sprite comes from. -/
theorem onScreen_sprite {dot : Dot} {point : Point} (listed : dot ∈ sprite width xo yo bytes height)
    (shown : onScreen dot.x dot.y = some point) :
    ∃ y < height, ∃ x < width, xo.toInt + x = point.1.val ∧ yo.toInt + y = point.2.val ∧
      dot.color = decodeColor (bytes (y * width / 8 + x / 8)) (UInt8.ofNat x) := by
  obtain ⟨y, above, x, inside, drawn⟩ := mem_sprite.mp listed
  unfold spriteDot? at drawn
  split at drawn
  · cases drawn
  · rename_i kept
    obtain ⟨keptRow, keptColumn⟩ := not_or.mp kept
    cases drawn
    obtain ⟨column, row⟩ := onScreen_eq_some.mp shown
    exact ⟨y, above, x, inside, eq_of_kept (by decide) keptColumn column,
      eq_of_kept (by decide) keptRow row, rfl⟩

theorem exists_sprite_dot {x y : Nat} {point : Point} (above : y < height) (inside : x < width)
    (column : xo.toInt + x = point.1.val) (row : yo.toInt + y = point.2.val) :
    ∃ dot ∈ sprite width xo yo bytes height, onScreen dot.x dot.y = some point := by
  obtain ⟨keptColumn, shownColumn⟩ := kept_of_lt (by decide) point.1.isLt
  obtain ⟨keptRow, shownRow⟩ := kept_of_lt (by decide) point.2.isLt
  refine ⟨_, mem_sprite.mpr ⟨y, above, x, inside, if_neg ?_⟩, onScreen_eq_some.mpr ?_⟩
  · rw [column, row]
    exact not_or.mpr ⟨keptRow, keptColumn⟩
  · rw [column, row]
    exact ⟨shownColumn, shownRow⟩

end Drawing

section Blitting

variable {screen : Screen} {bitmap : List UInt8} {width height : UInt8}

theorem bitmap_index_lt (whole : width.toNat % 8 = 0)
    (length : bitmap.length = width.toNat * height.toNat / 8) {x y : Nat} (above : y < height.toNat)
    (inside : x < width.toNat) : y * width.toNat / 8 + x / 8 < bitmap.length := by
  obtain ⟨columns, wide⟩ := Nat.dvd_of_mod_eq_zero whole
  have row (lines : Nat) : lines * width.toNat / 8 = lines * columns := by
    rw [wide, Nat.mul_left_comm, Nat.mul_div_cancel_left _ (by decide)]
  rw [length, Nat.mul_comm width.toNat, row, row]
  calc
    y * columns + x / 8 < y * columns + columns := by omega
    _ = (y + 1) * columns := (Nat.succ_mul ..).symm
    _ ≤ height.toNat * columns := Nat.mul_le_mul_right columns above

/-- The sprite covers its place on the screen and nothing else. -/
theorem ssd1306_DrawBitmapAtPosition_clips (name : Name) (xo yo : Int8)
    (plain : screen.Inverted = 0) (whole : width.toNat % 8 = 0)
    (length : bitmap.length = width.toNat * height.toNat / 8) :
    ∃ drawn, ssd1306_DrawBitmapAtPosition screen (listSource name bitmap) width height xo yo =
        .ok drawn ∧
      (∀ x < width.toNat, ∀ y < height.toNat, ∀ point : Point,
        xo.toInt + x = point.1.val → yo.toInt + y = point.2.val →
        ∃ byte, bitmap[y * width.toNat / 8 + x / 8]? = some byte ∧
          drawn.pixel point = bit byte (7 - x % 8)) ∧
      ∀ point : Point,
        (∀ x < width.toNat, ∀ y < height.toNat,
          ¬(xo.toInt + x = point.1.val ∧ yo.toInt + y = point.2.val)) →
        drawn.pixel point = screen.pixel point := by
  have inRange {x y : Nat} (inside : x < width.toNat) (above : y < height.toNat) :
      y * width.toNat / 8 + x / 8 < bitmap.length := bitmap_index_lt whole length above inside
  refine ⟨_, ssd1306_DrawBitmapAtPosition_eq_draw screen (fun k => bitmap.getD k 0)
    fun y above x inside => listSource_eq name (inRange inside above), ?_, ?_⟩
  · intro x inside y above point column row
    refine ⟨bitmap.getD (y * width.toNat / 8 + x / 8) 0, ?_, ?_⟩
    · rw [List.getElem?_eq_getElem (inRange inside above), List.getElem_eq_getD 0]
    have small : (UInt8.ofNat x).toNat = x := by
      rw [UInt8.toNat_ofNat']
      have := UInt8.toNat_lt width
      omega
    have shows : bit (bitmap.getD (y * width.toNat / 8 + x / 8) 0) (7 - x % 8) =
        decide (decodeColor (bitmap.getD (y * width.toNat / 8 + x / 8) 0) (UInt8.ofNat x) = .White) := by
      apply Bool.eq_iff_iff.mpr
      rw [decide_eq_true_iff, decodeColor_eq_white, small]
    rw [shows]
    apply pixel_draw_of_hit plain
    · intro dot listed shown
      obtain ⟨otherRow, _, otherColumn, _, sameColumn, sameRow, colored⟩ := onScreen_sprite listed shown
      obtain rfl : otherColumn = x := by omega
      obtain rfl : otherRow = y := by omega
      exact colored
    · exact exists_sprite_dot above inside column row
  · intro point beside
    apply pixel_draw_of_miss plain
    intro dot listed shown
    obtain ⟨y, above, x, inside, column, row, -⟩ := onScreen_sprite listed shown
    exact beside x inside y above ⟨column, row⟩

/-- The right half of a row of eight pixels, at the lower left corner. -/
theorem ssd1306_DrawBitmapAtPosition_clips_corner :
    ∃ drawn, ssd1306_DrawBitmapAtPosition black (listSource () [0x0f]) 8 1 (-4) 63 = .ok drawn ∧
      drawn.pixel (0, 63) = true := by
  obtain ⟨drawn, returned, covered, -⟩ :=
    ssd1306_DrawBitmapAtPosition_clips () (-4) 63 (show black.Inverted = 0 from rfl)
      (show (8 : UInt8).toNat % 8 = 0 from rfl)
    (show [(0x0f : UInt8)].length = (8 : UInt8).toNat * (1 : UInt8).toNat / 8 from rfl)
  obtain ⟨byte, found, shows⟩ := covered 4 (by decide) 0 (by decide) (0, 63) rfl rfl
  cases found
  exact ⟨drawn, returned, shows⟩

end Blitting

end WifiIot.Game.Oled
