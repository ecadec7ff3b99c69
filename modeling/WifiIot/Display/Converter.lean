import WifiIot.Display.Region

/-!
# The image converter

`img2code.py` turns a grey image into the bytes that the driver draws: rows from
top to bottom, eight pixels in a byte, a pixel being white from a threshold on.

Source: `ssd1306_3rd_driver/img2code.py`.
-/

namespace WifiIot.Display

open Memory Raster

universe u

variable {Gray : Type u} [LE Gray] [DecidableLE Gray]

def PIXEL_PER_BYTE : Nat := 8

/-- The first pixel becomes the highest bit. -/
def pack_pixels (pixels : List Gray) (threshold : Gray) : Nat :=
  pixels.foldl (fun value gray => (value <<< 1) + if threshold ≤ gray then 1 else 0) 0

/-- `frame[r, start: stop]`, which ends with the row. -/
def slice (frame : Nat → Nat → Gray) (width r start stop : Nat) : List Gray :=
  (List.range (min stop width - start)).map fun k => frame r (start + k)

/-- `bytes(data)` raises an error for a value that is not a byte. -/
def toBytes (data : List Nat) : Option (List UInt8) :=
  if ∀ value ∈ data, value < 256 then some (data.map UInt8.ofNat) else none

/-- The packing loop; `frame` is the resized grey image. -/
def resize_and_binarize_image (frame : Nat → Nat → Gray) (width height : Nat) (threshold : Gray) :
    Option (List UInt8) :=
  toBytes <| scan height (width / PIXEL_PER_BYTE) fun r b =>
    let colStart := b * PIXEL_PER_BYTE
    pack_pixels (slice frame width r colStart (colStart + PIXEL_PER_BYTE)) threshold

/-! ## Packing -/

section Packing

variable (threshold : Gray)

theorem pack_pixels_append (pixels : List Gray) (gray : Gray) :
    pack_pixels (pixels ++ [gray]) threshold =
      2 * pack_pixels pixels threshold + if threshold ≤ gray then 1 else 0 := by
  rw [pack_pixels, List.foldl_append, List.foldl_cons, List.foldl_nil, Nat.shiftLeft_eq,
    Nat.pow_one, Nat.mul_comm]
  rfl

theorem pack_pixels_lt (pixels : List Gray) : pack_pixels pixels threshold < 2 ^ pixels.length := by
  induction pixels using List.reverseRecOn with
  | nil => exact Nat.one_pos
  | append_singleton pixels gray inductionHypothesis =>
      rw [pack_pixels_append, List.length_append, List.length_singleton, Nat.pow_succ]
      split <;> omega

theorem testBit_pack_pixels (pixels : List Gray) {k : Nat} (inside : k < pixels.length) :
    (pack_pixels pixels threshold).testBit (pixels.length - 1 - k) =
      decide (threshold ≤ pixels[k]) := by
  induction pixels using List.reverseRecOn with
  | nil => exact absurd inside (Nat.not_lt_zero k)
  | append_singleton pixels gray inductionHypothesis =>
      rw [pack_pixels_append]
      simp only [List.length_append, List.length_singleton, Nat.add_sub_cancel] at inside ⊢
      rcases Nat.lt_succ_iff_lt_or_eq.mp inside with earlier | rfl
      · have position : pixels.length - k = (pixels.length - 1 - k) + 1 := by omega
        have half : (2 * pack_pixels pixels threshold + if threshold ≤ gray then 1 else 0) / 2 =
            pack_pixels pixels threshold := by
          split <;> omega
        rw [position, Nat.testBit_succ, half, inductionHypothesis earlier,
          List.getElem_append_left earlier]
      · rw [Nat.sub_self, Nat.testBit_zero]
        simp only [List.getElem_concat_length]
        split
        · rename_i bright
          simp [bright, Nat.add_mod]
        · rename_i dark
          simp [dark]

end Packing

/-! ## The bytes of an image -/

section Image

variable {frame : Nat → Nat → Gray} {width height : Nat} {threshold : Gray}

def packedByte (frame : Nat → Nat → Gray) (width : Nat) (threshold : Gray) (r b : Nat) : UInt8 :=
  UInt8.ofNat
    (pack_pixels (slice frame width r (b * PIXEL_PER_BYTE) (b * PIXEL_PER_BYTE + PIXEL_PER_BYTE))
      threshold)

omit [LE Gray] [DecidableLE Gray] in
theorem slice_eq (frame : Nat → Nat → Gray) {r b : Nat} (inside : b * 8 + 8 ≤ width) :
    slice frame width r (b * PIXEL_PER_BYTE) (b * PIXEL_PER_BYTE + PIXEL_PER_BYTE) =
      (List.range 8).map fun k => frame r (b * 8 + k) := by
  have count : min (b * PIXEL_PER_BYTE + PIXEL_PER_BYTE) width - b * PIXEL_PER_BYTE = 8 := by
    simp only [PIXEL_PER_BYTE]
    omega
  rw [slice, count]
  rfl

theorem pack_slice_lt (frame : Nat → Nat → Gray) (r : Nat) {b : Nat} (inside : b * 8 + 8 ≤ width) :
    pack_pixels (slice frame width r (b * PIXEL_PER_BYTE) (b * PIXEL_PER_BYTE + PIXEL_PER_BYTE))
      threshold < 256 := by
  rw [slice_eq frame inside]
  have bounded := pack_pixels_lt threshold ((List.range 8).map fun k => frame r (b * 8 + k))
  rwa [List.length_map, List.length_range] at bounded

/-- Whole bytes only, so nothing is lost in `bytes`. -/
theorem resize_and_binarize_image_eq (whole : 8 ∣ width) :
    resize_and_binarize_image frame width height threshold =
      some (scan height (width / 8) (packedByte frame width threshold)) := by
  have small : ∀ value ∈ scan height (width / PIXEL_PER_BYTE) (fun r b =>
      pack_pixels (slice frame width r (b * PIXEL_PER_BYTE) (b * PIXEL_PER_BYTE + PIXEL_PER_BYTE))
        threshold), value < 256 := by
    intro value listed
    obtain ⟨r, -, b, inside, rfl⟩ := (mem_scan value).mp listed
    apply pack_slice_lt
    simp only [PIXEL_PER_BYTE] at inside
    omega
  rw [resize_and_binarize_image, toBytes, if_pos small]
  simp only [scan, List.map_flatMap, List.map_map]
  rfl

theorem bit_packedByte (whole : 8 ∣ width) {r c : Nat} (inside : c < width) :
    bit (packedByte frame width threshold r (c / 8)) (7 - c % 8) =
      decide (threshold ≤ frame r c) := by
  have block : c / 8 * 8 + 8 ≤ width := by omega
  have position : c % 8 < ((List.range 8).map fun k => frame r (c / 8 * 8 + k)).length := by
    simp only [List.length_map, List.length_range]
    exact Nat.mod_lt _ (by decide)
  have exact_ : (packedByte frame width threshold r (c / 8)).toNat =
      pack_pixels ((List.range 8).map fun k => frame r (c / 8 * 8 + k)) threshold := by
    rw [packedByte, UInt8.toNat_ofNat', Nat.mod_eq_of_lt (pack_slice_lt frame r block),
      slice_eq frame block]
  have shown := testBit_pack_pixels threshold _ position
  rw [List.length_map, List.length_range, List.getElem_map, List.getElem_range,
    Nat.div_add_mod'] at shown
  rw [bit, exact_]
  exact shown

/-! ## Drawing the bytes -/

section Draw

theorem toNat_side {value : Nat} (small : value ≤ SSD1306_WIDTH) :
    (UInt8.ofNat value).toNat = value := by
  rw [UInt8.toNat_ofNat']
  simp only [SSD1306_WIDTH] at small
  omega

theorem toNat_stride {value : Nat} (small : value ≤ SSD1306_WIDTH) :
    (UInt32.ofNat value).toNat = value := by
  rw [UInt32.toNat_ofNat']
  simp only [SSD1306_WIDTH] at small
  omega

variable (narrow : width ≤ SSD1306_WIDTH) (low : height ≤ SSD1306_HEIGHT)

include narrow low

theorem bytes_le : height * (width / 8) ≤ 1024 :=
  calc
    height * (width / 8) ≤ SSD1306_HEIGHT * (SSD1306_WIDTH / 8) :=
      Nat.mul_le_mul low (Nat.div_le_div_right narrow)
    _ = 1024 := rfl

theorem length_data : (scan height (width / 8) (packedByte frame width threshold)).length =
    (UInt32.ofNat (height * (width / 8))).toNat := by
  have few := bytes_le narrow low
  rw [length_scan, UInt32.toNat_ofNat']
  omega

variable (whole : 8 ∣ width)

include whole

theorem rows_eq (wide : 0 < width) :
    regionRows (UInt32.ofNat (height * (width / 8))) (UInt32.ofNat width) = height := by
  have few := bytes_le narrow low
  have pixels : height * (width / 8) * 8 = height * width := by
    rw [Nat.mul_assoc, Nat.div_mul_cancel whole]
  have size : (UInt32.ofNat (height * (width / 8)) * 8).toNat = height * width := by
    rw [UInt32.toNat_mul, UInt32.toNat_ofNat', ← pixels]
    change height * (width / 8) % 4294967296 * 8 % 4294967296 = _
    omega
  rw [regionRows, UInt32.toNat_toUInt8, UInt32.toNat_div, size, toNat_stride narrow,
    Nat.mul_div_cancel _ wide]
  simp only [SSD1306_HEIGHT] at low
  omega

theorem regionCell_eq (bytes : Nat → UInt8) {i j : Nat} (above : i < height) (inside : j < width) :
    regionCell (UInt32.ofNat (height * (width / 8))) (UInt32.ofNat width) bytes i j =
      bytes (i * (width / 8) + j / 8) := by
  have wide : 0 < width := Nat.zero_lt_of_lt inside
  have stride := toNat_stride narrow
  have drawn : i < regionRows (UInt32.ofNat (height * (width / 8))) (UInt32.ofNat width) := by
    rw [rows_eq narrow low whole wide]
    exact above
  rw [regionCell_eq_bytes (by rw [stride]; exact wide.ne') drawn stride.ge narrow inside, stride,
    Nat.mul_div_assoc i whole]

end Draw

theorem getD_packed {r b : Nat} (above : r < height) (inside : b < width / 8) :
    (scan height (width / 8) (packedByte frame width threshold)).getD (r * (width / 8) + b) 0 =
      packedByte frame width threshold r b := by
  rw [List.getD_eq_getElem?_getD, getElem?_scan above inside]
  rfl

def imageDots (frame : Nat → Nat → Gray) (width height : Nat) (threshold : Gray) (x y : UInt8) :
    List Dot :=
  grid x y height width fun r c => packedByte frame width threshold r (c / 8)

section Drawing

variable {Name : Type} (name : Name) (screen : Screen) (whole : 8 ∣ width)
  (narrow : width ≤ SSD1306_WIDTH) (low : height ≤ SSD1306_HEIGHT)

include whole narrow low

theorem DrawRegion_image (wide : 0 < width) (high : 0 < height) {x y : UInt8}
    (right : x.toNat + width ≤ SSD1306_WIDTH) (below : y.toNat + height ≤ SSD1306_HEIGHT) :
    let data := scan height (width / 8) (packedByte frame width threshold)
    ssd1306_DrawRegion screen x y (UInt8.ofNat width) (UInt8.ofNat height) (listSource name data)
        (UInt32.ofNat data.length) (UInt32.ofNat width) =
      .ok (screen.draw (imageDots frame width height threshold x y)) := by
  intro data
  have columns : (UInt8.ofNat width).toNat = width := toNat_side narrow
  have rows : (UInt8.ofNat height).toNat = height := toNat_side (low.trans (by decide))
  have fits : x.toNat + (UInt8.ofNat width).toNat ≤ SSD1306_WIDTH ∧
      y.toNat + (UInt8.ofNat height).toNat ≤ SSD1306_HEIGHT := by
    rw [columns, rows]
    exact ⟨right, below⟩
  have nonempty : (UInt8.ofNat width).toNat * (UInt8.ofNat height).toNat ≠ 0 := by
    rw [columns, rows]
    exact Nat.mul_ne_zero wide.ne' high.ne'
  have given : UInt32.ofNat width ≠ 0 := by
    intro zero
    have zeroLength := congrArg UInt32.toNat zero
    rw [toNat_stride narrow] at zeroLength
    exact wide.ne' zeroLength
  have length : data.length = (UInt32.ofNat (height * (width / 8))).toNat :=
    length_data narrow low
  have counted : data.length = height * (width / 8) := length_scan
  have readable : ∀ k < (UInt32.ofNat data.length).toNat,
      listSource name data k = .ok (data.getD k 0) := by
    intro k inside
    rw [counted, ← length] at inside
    exact listSource_eq name inside
  rw [ssd1306_DrawRegion_eq fits nonempty given readable, counted, columns,
    rows_eq narrow low whole wide]
  congr 2
  apply grid_congr
  intro i above j inside
  rw [regionCell_eq narrow low whole _ above inside]
  exact getD_packed above (by omega)

/-- On an image of the width of the screen both functions agree. -/
theorem DrawBitmap_image (full : width = SSD1306_WIDTH) :
    let data := scan height (width / 8) (packedByte frame width threshold)
    ssd1306_DrawBitmap screen (listSource name data) (UInt32.ofNat data.length) =
      .ok (screen.draw (imageDots frame width height threshold 0 0)) := by
  intro data
  have counted : data.length = height * (width / 8) := length_scan
  have found : (UInt32.ofNat data.length * 8 / UInt32.ofNat SSD1306_WIDTH).toUInt8.toNat =
      height := by
    rw [counted, ← full]
    exact rows_eq narrow low whole (full ▸ by decide)
  have readable : ∀ k < 16 * height, listSource name data k = .ok (data.getD k 0) := by
    intro k inside
    apply listSource_eq
    rw [counted, full, Nat.mul_comm]
    exact inside
  rw [ssd1306_DrawBitmap_eq low found readable, imageDots, ← full]
  congr 2
  apply grid_congr
  intro r above c inside
  have place : 16 * r + c / 8 = r * (width / 8) + c / 8 := by
    rw [full, Nat.mul_comm 16 r]
    rfl
  rw [place]
  exact getD_packed above (by omega)

end Drawing

/-- The bytes of an image, drawn where the image fits, show it and change
nothing else; an image of the width of the screen may also be drawn as a bitmap. -/
theorem converted_image_drawn {Name : Type} (name : Name) (screen : Screen)
    (frame : Nat → Nat → Gray) (width height x y : Nat) (threshold : Gray)
    (plain : screen.Inverted = 0) (whole : 8 ∣ width) (wide : 0 < width) (high : 0 < height)
    (right : x + width ≤ SSD1306_WIDTH) (below : y + height ≤ SSD1306_HEIGHT) :
    ∃ data after,
      resize_and_binarize_image frame width height threshold = some data ∧
      ssd1306_DrawRegion screen (UInt8.ofNat x) (UInt8.ofNat y) (UInt8.ofNat width)
        (UInt8.ofNat height) (listSource name data) (UInt32.ofNat data.length)
        (UInt32.ofNat width) = .ok after ∧
      (∀ r < height, ∀ c < width, ∀ point : Point, point.1.val = x + c → point.2.val = y + r →
        after.pixel point = decide (threshold ≤ frame r c)) ∧
      (∀ point : Point, ¬(x ≤ point.1.val ∧ point.1.val < x + width ∧
          y ≤ point.2.val ∧ point.2.val < y + height) →
        after.pixel point = screen.pixel point) ∧
      (width = SSD1306_WIDTH → x = 0 → y = 0 →
        ssd1306_DrawBitmap screen (listSource name data) (UInt32.ofNat data.length) =
          .ok after) := by
  have narrow : width ≤ SSD1306_WIDTH := le_trans (Nat.le_add_left ..) right
  have low : height ≤ SSD1306_HEIGHT := le_trans (Nat.le_add_left ..) below
  have left : (UInt8.ofNat x).toNat = x := toNat_side (le_trans (Nat.le_add_right ..) right)
  have top : (UInt8.ofNat y).toNat = y :=
    toNat_side ((le_trans (Nat.le_add_right ..) below).trans (by decide))
  have right : (UInt8.ofNat x).toNat + width ≤ SSD1306_WIDTH := by rwa [left]
  have below : (UInt8.ofNat y).toNat + height ≤ SSD1306_HEIGHT := by rwa [top]
  refine ⟨_, _, resize_and_binarize_image_eq whole,
    DrawRegion_image name screen whole narrow low wide high right below, ?_, ?_, ?_⟩
  · intro r above c inside point column row
    rw [← bit_packedByte whole inside]
    apply pixel_grid_inside plain right below above inside
    · rw [left, column]
    · rw [top, row]
  · intro point outside
    apply pixel_grid_outside plain right below
    rw [left, top]
    exact outside
  · rintro full rfl rfl
    exact DrawBitmap_image name screen whole narrow low full

end Image

/-- An image of eight columns and two rows, brighter to the right. -/
def ramp (r c : Nat) : Nat := 32 * c + 16 * r

def blank : Screen := ⟨fun _ => 0, 0⟩

/-- The ramp drawn across a page boundary. -/
theorem converted_image_drawn_ramp :
    ∃ data after, resize_and_binarize_image ramp 8 2 128 = some data ∧ data = [0x0f, 0x0f] ∧
      ssd1306_DrawRegion blank 5 7 8 2 (listSource () data) (UInt32.ofNat data.length) 8 =
        .ok after ∧
      after.pixel (8, 8) = false ∧ after.pixel (9, 8) = true ∧ after.pixel (9, 9) = false := by
  obtain ⟨data, after, converted, drawn, shown, kept, -⟩ :=
    converted_image_drawn () blank ramp 8 2 5 7 128 rfl ⟨1, rfl⟩ (by decide) (by decide)
      (by decide) (by decide)
  refine ⟨data, after, converted, ?_, drawn, ?_, ?_, ?_⟩
  · have packed : resize_and_binarize_image ramp 8 2 128 = some [0x0f, 0x0f] := by decide
    exact Option.some.inj (converted.symm.trans packed)
  · exact shown 1 (by decide) 3 (by decide) (8, 8) rfl rfl
  · exact shown 1 (by decide) 4 (by decide) (9, 8) rfl rfl
  · exact kept (9, 9) (by decide)

end WifiIot.Display
