import WifiIot.Display.Framebuffer

/-!
# Drawing bitmaps

`ssd1306_DrawRegion` and `ssd1306_DrawBitmap` decode rows of bytes, eight pixels
in a byte and the leftmost in its highest bit.  Both are drawings of a grid of
dots.

Source: `ssd1306_3rd_driver/ssd1306/ssd1306.c`.
-/

namespace WifiIot.Display

open Memory Raster

universe u

variable {Name : Type u}

/-- `bit ? White : Black` for the bit `byte & (0x80 >> (j % 8))`. -/
def decodeColor (byte j : UInt8) : SSD1306_COLOR :=
  if byte &&& 0x80 >>> (j % 8) ≠ 0 then .White else .Black

/-- The bitmap is not read from `size` bytes on. -/
def regionByte (data : Source Name) (size idx : UInt32) : Checked Name UInt8 :=
  if idx < size then data idx.toNat else .ok 0

/-- `h` decides only whether anything is drawn. -/
def ssd1306_DrawRegion (screen : Screen) (x y w h : UInt8) (data : Source Name)
    (size stride : UInt32) : Checked Name Screen :=
  if SSD1306_WIDTH < x.toNat + w.toNat ∨ SSD1306_HEIGHT < y.toNat + h.toNat ∨
      w.toNat * h.toNat = 0 then
    .ok screen
  else
    let w := if w.toNat ≤ SSD1306_WIDTH then w else UInt8.ofNat SSD1306_WIDTH
    let stride := if stride = 0 then w.toUInt32 else stride
    let rows := (size * 8 / stride).toUInt8
    (List.range rows.toNat).foldlM (fun screen i => do
      let base := (UInt8.ofNat i).toUInt32 * stride / 8
      (List.range w.toNat).foldlM (fun screen j => do
        let byte ← regionByte data size (base + (UInt8.ofNat j / 8).toUInt32)
        .ok (ssd1306_DrawPixel screen (x + UInt8.ofNat j) (y + UInt8.ofNat i)
          (decodeColor byte (UInt8.ofNat j)))) screen) screen

def ssd1306_DrawBitmap (screen : Screen) (bitmap : Source Name) (size : UInt32) :
    Checked Name Screen :=
  let rows := (size * 8 / UInt32.ofNat SSD1306_WIDTH).toUInt8
  let rows := if SSD1306_HEIGHT < rows.toNat then UInt8.ofNat SSD1306_HEIGHT else rows
  (List.range rows.toNat).foldlM (fun screen y =>
    (List.range SSD1306_WIDTH).foldlM (fun screen x => do
      let byte ← bitmap (y * SSD1306_WIDTH / 8 + x / 8)
      .ok (ssd1306_DrawPixel screen (UInt8.ofNat x) (UInt8.ofNat y)
        (decodeColor byte (UInt8.ofNat x)))) screen) screen

/-- A grid of dots from `(x, y)` on; the byte at a row and a column is given. -/
def grid (x y : UInt8) (rows columns : Nat) (byte : Nat → Nat → UInt8) : List Dot :=
  scan rows columns fun i j =>
    ⟨x + UInt8.ofNat j, y + UInt8.ofNat i, decodeColor (byte i j) (UInt8.ofNat j)⟩

theorem grid_congr {x y : UInt8} {rows columns : Nat} {byte other : Nat → Nat → UInt8}
    (same : ∀ i < rows, ∀ j < columns, byte i j = other i j) :
    grid x y rows columns byte = grid x y rows columns other := by
  apply scan_congr
  intro i above j inside
  rw [same i above j inside]

theorem decodeColor_eq_white {byte j : UInt8} :
    decodeColor byte j = .White ↔ bit byte (7 - j.toNat % 8) = true := by
  have level : (j % 8).toNat = j.toNat % 8 := UInt8.toNat_mod ..
  have small : (j % 8).toNat < 8 := by
    rw [level]
    exact Nat.mod_lt _ (by decide)
  rw [← level, ← and_high_mask_ne_zero byte small, decodeColor]
  split
  · rename_i set
    exact iff_of_true rfl set
  · rename_i clear
    exact iff_of_false SSD1306_COLOR.noConfusion clear

theorem loops_eq_draw (x y : UInt8) {rows columns : Nat}
    (read : Nat → Nat → Checked Name UInt8) (byte : Nat → Nat → UInt8)
    (readable : ∀ i < rows, ∀ j < columns, read i j = .ok (byte i j)) (screen : Screen) :
    (List.range rows).foldlM (fun screen i =>
        (List.range columns).foldlM (fun screen j => do
          let byte ← read i j
          .ok (ssd1306_DrawPixel screen (x + UInt8.ofNat j) (y + UInt8.ofNat i)
            (decodeColor byte (UInt8.ofNat j)))) screen) screen =
      (.ok (screen.draw (grid x y rows columns byte)) : Checked Name Screen) := by
  rw [Screen.draw, grid, foldl_scan]
  apply foldlM_eq_ok
  intro i above screen
  apply foldlM_eq_ok
  intro j inside screen
  rw [readable i (List.mem_range.mp above) j (List.mem_range.mp inside), ok_bind]

section Grid

variable {screen : Screen} {x y : UInt8} {rows columns : Nat} {byte : Nat → Nat → UInt8}

/-- Where a dot of a grid stands; the coordinates wrap at 256. -/
theorem onScreen_grid {i j : Nat} {point : Point} :
    onScreen (x + UInt8.ofNat j) (y + UInt8.ofNat i) = some point ↔
      (x.toNat + j) % 256 = point.1.val ∧ (y.toNat + i) % 256 = point.2.val := by
  have wrapped (start : UInt8) (k : Nat) :
      (start + UInt8.ofNat k).toNat = (start.toNat + k) % 256 := by
    rw [UInt8.toNat_add, UInt8.toNat_ofNat', Nat.add_mod_mod]
  rw [onScreen_eq_some, wrapped, wrapped]

section Wrapping

variable (plain : screen.Inverted = 0) (right : x.toNat + columns ≤ SSD1306_WIDTH)

include plain right

/-- A pixel in a row of the grid shows its bit, wherever the row has wrapped to. -/
theorem pixel_grid_row (few : rows ≤ 256) {i j : Nat} (above : i < rows) (inside : j < columns)
    {point : Point} (column : point.1.val = x.toNat + j)
    (row : point.2.val = (y.toNat + i) % 256) :
    (screen.draw (grid x y rows columns byte)).pixel point = bit (byte i j) (7 - j % 8) := by
  simp only [SSD1306_WIDTH] at right
  have small : (UInt8.ofNat j).toNat = j := by
    rw [UInt8.toNat_ofNat']
    omega
  have shows : decide (decodeColor (byte i j) (UInt8.ofNat j) = .White) =
      bit (byte i j) (7 - j % 8) := by
    apply Bool.eq_iff_iff.mpr
    rw [decide_eq_true_iff, decodeColor_eq_white, small]
  rw [← shows]
  apply pixel_draw_of_hit plain
  · intro dot listed shown
    obtain ⟨otherRow, otherAbove, otherColumn, otherInside, rfl⟩ := (mem_scan dot).mp listed
    have place := onScreen_grid.mp shown
    obtain rfl : otherRow = i := by omega
    obtain rfl : otherColumn = j := by omega
    rfl
  · refine ⟨_, (mem_scan _).mpr ⟨i, above, j, inside, rfl⟩, ?_⟩
    exact onScreen_grid.mpr ⟨by omega, row.symm⟩

theorem pixel_grid_beside {point : Point}
    (beside : ∀ i < rows, ∀ j < columns,
      ¬(point.1.val = x.toNat + j ∧ point.2.val = (y.toNat + i) % 256)) :
    (screen.draw (grid x y rows columns byte)).pixel point = screen.pixel point := by
  simp only [SSD1306_WIDTH] at right
  apply pixel_draw_of_miss plain
  intro dot listed shown
  obtain ⟨i, above, j, inside, rfl⟩ := (mem_scan dot).mp listed
  obtain ⟨column, row⟩ := onScreen_grid.mp shown
  exact beside i above j inside ⟨by omega, row.symm⟩

end Wrapping

variable (plain : screen.Inverted = 0) (right : x.toNat + columns ≤ SSD1306_WIDTH)
  (below : y.toNat + rows ≤ SSD1306_HEIGHT)

include plain right below

theorem pixel_grid_inside {i j : Nat} (above : i < rows) (inside : j < columns) {point : Point}
    (column : point.1.val = x.toNat + j) (row : point.2.val = y.toNat + i) :
    (screen.draw (grid x y rows columns byte)).pixel point = bit (byte i j) (7 - j % 8) := by
  simp only [SSD1306_HEIGHT] at below
  exact pixel_grid_row plain right (by omega) above inside column (by omega)

theorem pixel_grid_outside {point : Point}
    (outside : ¬(x.toNat ≤ point.1.val ∧ point.1.val < x.toNat + columns ∧
      y.toNat ≤ point.2.val ∧ point.2.val < y.toNat + rows)) :
    (screen.draw (grid x y rows columns byte)).pixel point = screen.pixel point := by
  simp only [SSD1306_HEIGHT] at below
  apply pixel_grid_beside plain right
  rintro i above j inside ⟨column, row⟩
  exact outside ⟨by omega, by omega, by omega, by omega⟩

end Grid

/-! ## The two functions as drawings -/

/-- The byte of the bitmap that holds a pixel of the region. -/
def regionCell (size stride : UInt32) (bytes : Nat → UInt8) (i j : Nat) : UInt8 :=
  let idx := (UInt8.ofNat i).toUInt32 * stride / 8 + (UInt8.ofNat j / 8).toUInt32
  if idx < size then bytes idx.toNat else 0

def regionRows (size stride : UInt32) : Nat := (size * 8 / stride).toUInt8.toNat

section Rows

variable {size stride : UInt32} {bytes : Nat → UInt8} {i j w : Nat}

theorem row_fits (positive : stride.toNat ≠ 0) (drawn : i < regionRows size stride) :
    (i + 1) * stride.toNat ≤ 8 * size.toNat ∧ (i + 1) * stride.toNat < 2 ^ 32 := by
  have bits : (size * 8).toNat = size.toNat * 8 % 2 ^ 32 := UInt32.toNat_mul size 8
  have rows : regionRows size stride ≤ (size * 8).toNat / stride.toNat := by
    rw [regionRows, UInt32.toNat_toUInt8, UInt32.toNat_div]
    exact Nat.mod_le _ _
  have fits : (i + 1) * stride.toNat ≤ (size * 8).toNat :=
    (Nat.le_div_iff_mul_le (Nat.pos_of_ne_zero positive)).mp (lt_of_lt_of_le drawn rows)
  omega

theorem regionCell_eq_bytes (positive : stride.toNat ≠ 0) (drawn : i < regionRows size stride)
    (wide : w ≤ stride.toNat) (narrow : w ≤ SSD1306_WIDTH) (inside : j < w) :
    regionCell size stride bytes i j = bytes (i * stride.toNat / 8 + j / 8) := by
  have fits := row_fits positive drawn
  rw [Nat.succ_mul] at fits
  have few : i < 256 := lt_of_lt_of_le drawn (Nat.le_of_lt (UInt8.toNat_lt _))
  simp only [SSD1306_WIDTH] at narrow
  have row : ((UInt8.ofNat i).toUInt32 * stride).toNat = i * stride.toNat := by
    rw [UInt32.toNat_mul, UInt8.toNat_toUInt32, UInt8.toNat_ofNat', Nat.mod_eq_of_lt few]
    exact Nat.mod_eq_of_lt (by omega)
  have column : (UInt8.ofNat j / 8).toUInt32.toNat = j / 8 := by
    rw [UInt8.toNat_toUInt32, UInt8.toNat_div, UInt8.toNat_ofNat', Nat.mod_eq_of_lt (by omega)]
    rfl
  have index : ((UInt8.ofNat i).toUInt32 * stride / 8 + (UInt8.ofNat j / 8).toUInt32).toNat =
      i * stride.toNat / 8 + j / 8 := by
    rw [UInt32.toNat_add, UInt32.toNat_div, row, column]
    change (i * stride.toNat / 8 + j / 8) % 2 ^ 32 = _
    exact Nat.mod_eq_of_lt (by omega)
  unfold regionCell
  rw [if_pos (UInt32.lt_iff_toNat_lt.mpr (by rw [index]; omega)), index]

end Rows

/-- The width of the data; it is that of the region by default. -/
def regionStride (w : UInt8) (stride : UInt32) : UInt32 := if stride = 0 then w.toUInt32 else stride

theorem ssd1306_DrawRegion_eq_draw (screen : Screen) {x y w h : UInt8} {data : Source Name}
    {bytes : Nat → UInt8} {size : UInt32} (stride : UInt32)
    (fits : x.toNat + w.toNat ≤ SSD1306_WIDTH ∧ y.toNat + h.toNat ≤ SSD1306_HEIGHT)
    (nonempty : w.toNat * h.toNat ≠ 0) (readable : ∀ k < size.toNat, data k = .ok (bytes k)) :
    ssd1306_DrawRegion screen x y w h data size stride =
      .ok (screen.draw (grid x y (regionRows size (regionStride w stride)) w.toNat
        (regionCell size (regionStride w stride) bytes))) := by
  have narrow : w.toNat ≤ SSD1306_WIDTH := le_trans (Nat.le_add_left ..) fits.1
  have accepted : ¬(SSD1306_WIDTH < x.toNat + w.toNat ∨ SSD1306_HEIGHT < y.toNat + h.toNat ∨
      w.toNat * h.toNat = 0) := by
    rintro (wide | high | empty)
    · exact absurd fits.1 (not_le.mpr wide)
    · exact absurd fits.2 (not_le.mpr high)
    · exact nonempty empty
  have width : (if stride = 0 then w.toUInt32 else stride) = regionStride w stride := rfl
  simp only [ssd1306_DrawRegion, if_neg accepted, if_pos narrow, width]
  apply loops_eq_draw x y
  intro i _ j _
  unfold regionByte regionCell
  by_cases inside : (UInt8.ofNat i).toUInt32 * regionStride w stride / 8 +
      (UInt8.ofNat j / 8).toUInt32 < size
  · rw [if_pos inside, if_pos inside]
    exact readable _ (UInt32.lt_iff_toNat_lt.mp inside)
  · rw [if_neg inside, if_neg inside]

theorem ssd1306_DrawRegion_eq {screen : Screen} {x y w h : UInt8} {data : Source Name}
    {bytes : Nat → UInt8} {size stride : UInt32}
    (fits : x.toNat + w.toNat ≤ SSD1306_WIDTH ∧ y.toNat + h.toNat ≤ SSD1306_HEIGHT)
    (nonempty : w.toNat * h.toNat ≠ 0) (given : stride ≠ 0)
    (readable : ∀ k < size.toNat, data k = .ok (bytes k)) :
    ssd1306_DrawRegion screen x y w h data size stride =
      .ok (screen.draw (grid x y (regionRows size stride) w.toNat
        (regionCell size stride bytes))) := by
  have drawn := ssd1306_DrawRegion_eq_draw screen stride fits nonempty readable
  rwa [regionStride, if_neg given] at drawn

theorem ssd1306_DrawBitmap_eq {screen : Screen} {bitmap : Source Name} {bytes : Nat → UInt8}
    {size : UInt32} {rows : Nat} (few : rows ≤ SSD1306_HEIGHT)
    (counted : (size * 8 / UInt32.ofNat SSD1306_WIDTH).toUInt8.toNat = rows)
    (readable : ∀ k < 16 * rows, bitmap k = .ok (bytes k)) :
    ssd1306_DrawBitmap screen bitmap size =
      .ok (screen.draw (grid 0 0 rows SSD1306_WIDTH fun y x => bytes (16 * y + x / 8))) := by
  have kept : (if SSD1306_HEIGHT < (size * 8 / UInt32.ofNat SSD1306_WIDTH).toUInt8.toNat then
      UInt8.ofNat SSD1306_HEIGHT else (size * 8 / UInt32.ofNat SSD1306_WIDTH).toUInt8).toNat =
        rows := by
    rw [if_neg (by rw [counted]; exact not_lt.mpr few), counted]
  have cells : ∀ y < rows, ∀ x < SSD1306_WIDTH,
      bitmap (y * SSD1306_WIDTH / 8 + x / 8) = .ok (bytes (16 * y + x / 8)) := by
    intro y above x inside
    have same : y * SSD1306_WIDTH / 8 + x / 8 = 16 * y + x / 8 := by
      simp only [SSD1306_WIDTH]
      omega
    rw [same]
    apply readable
    simp only [SSD1306_WIDTH] at inside
    omega
  have drawn := loops_eq_draw 0 0 (fun y x => bitmap (y * SSD1306_WIDTH / 8 + x / 8)) _ cells screen
  simp only [UInt8.zero_add] at drawn
  simp only [ssd1306_DrawBitmap, kept]
  exact drawn

end WifiIot.Display
