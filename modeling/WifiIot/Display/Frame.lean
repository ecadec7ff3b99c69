import WifiIot.Display.Region

/-!
# What a region touches

`ssd1306_DrawRegion` draws as many rows as the data has, counted in eight bits,
and not `h` rows.  Rows below the region are drawn as well, at ordinates that
wrap at 256, and where the count has wrapped rows of the region are left out.

Source: `ssd1306_3rd_driver/ssd1306/ssd1306.c`.
-/

namespace WifiIot.Display

open Memory Raster

universe u

/-- The bit of the data for a row and a column. -/
def regionBit (bytes : Nat → UInt8) (stride i j : Nat) : Bool :=
  bit (bytes (i * stride / 8 + j / 8)) (7 - j % 8)

section Region

variable (x y w h : UInt8) (bytes : Nat → UInt8) (size stride : Nat)

/-- The drawing keeps to the rectangle and shows there the rows that the data has. -/
structure KeepsToRegion (before after : Screen) : Prop where
  outside : ∀ point : Point,
    ¬(x.toNat ≤ point.1.val ∧ point.1.val < x.toNat + w.toNat ∧
      y.toNat ≤ point.2.val ∧ point.2.val < y.toNat + h.toNat) →
    after.pixel point = before.pixel point
  inside : ∀ i, i < h.toNat → i < 8 * size / stride → ∀ j < w.toNat, ∀ point : Point,
    point.1.val = x.toNat + j → point.2.val = y.toNat + i →
    after.pixel point = regionBit bytes stride i j

/-- The rows drawn below the rectangle that are on the screen, and the rows of
the rectangle that are left out, show their bits already. -/
structure Settled (rows : Nat) (before : Screen) : Prop where
  below : ∀ i, h.toNat ≤ i → i < rows → ∀ j < w.toNat, ∀ point : Point,
    point.1.val = x.toNat + j → point.2.val = (y.toNat + i) % 256 →
    before.pixel point = regionBit bytes stride i j
  leftOut : ∀ i, rows ≤ i → i < h.toNat → i < 8 * size / stride → ∀ j < w.toNat,
    ∀ point : Point, point.1.val = x.toNat + j → point.2.val = y.toNat + i →
    before.pixel point = regionBit bytes stride i j

end Region

section Drawing

variable {screen : Screen} {x y w h : UInt8} {bytes : Nat → UInt8} {size stride rows : Nat}
  {byte : Nat → Nat → UInt8}

/-- A grid of the width of the region keeps to it exactly if what it draws
besides, and what it leaves out, is settled. -/
theorem keepsToRegion_grid_iff (plain : screen.Inverted = 0)
    (right : x.toNat + w.toNat ≤ SSD1306_WIDTH) (below : y.toNat + h.toNat ≤ SSD1306_HEIGHT)
    (few : rows ≤ 256)
    (cells : ∀ i < rows, ∀ j < w.toNat, bit (byte i j) (7 - j % 8) = regionBit bytes stride i j) :
    KeepsToRegion x y w h bytes size stride screen (screen.draw (grid x y rows w.toNat byte)) ↔
      Settled x y w h bytes size stride rows screen := by
  simp only [SSD1306_HEIGHT] at below
  have shown {i j : Nat} (above : i < rows) (inside : j < w.toNat) {point : Point}
      (column : point.1.val = x.toNat + j) (row : point.2.val = (y.toNat + i) % 256) :
      (screen.draw (grid x y rows w.toNat byte)).pixel point = regionBit bytes stride i j :=
    (pixel_grid_row plain right few above inside column row).trans (cells i above j inside)
  constructor
  · intro keeps
    constructor
    · intro i beyond drawn j inside point column row
      rw [← shown drawn inside column row]
      -- Fewer than 256 rows further down, the row cannot be one of the rectangle.
      refine (keeps.outside point ?_).symm
      rintro ⟨-, -, top, bottom⟩
      omega
    · intro i undrawn above listed j inside point column row
      rw [← keeps.inside i above listed j inside point column row]
      refine (pixel_grid_beside plain right ?_).symm
      rintro other drawn _ _ ⟨-, same⟩
      omega
  · intro settled
    constructor
    · intro point outside
      by_cases covered : ∃ i < rows, ∃ j < w.toNat,
          point.1.val = x.toNat + j ∧ point.2.val = (y.toNat + i) % 256
      · obtain ⟨i, drawn, j, inside, column, row⟩ := covered
        have beyond : h.toNat ≤ i := by
          by_contra above
          exact outside ⟨by omega, by omega, by omega, by omega⟩
        rw [shown drawn inside column row]
        exact (settled.below i beyond drawn j inside point column row).symm
      · refine pixel_grid_beside plain right fun i drawn j inside here => covered ?_
        exact ⟨i, drawn, j, inside, here⟩
    · intro i above listed j inside point column row
      by_cases drawn : i < rows
      · exact shown drawn inside column (by omega)
      · rw [← settled.leftOut i (not_lt.mp drawn) above listed j inside point column row]
        refine pixel_grid_beside plain right ?_
        rintro other drawnOther _ _ ⟨-, same⟩
        omega

end Drawing

section Calls

variable {Name : Type u} {screen : Screen} {x y w h : UInt8} {data : Source Name}
  {bytes : Nat → UInt8} {size stride : UInt32}

theorem regionStride_spec (nonempty : w.toNat * h.toNat ≠ 0)
    (wide : stride = 0 ∨ 8 ∣ stride.toNat ∧ w.toNat ≤ stride.toNat) :
    (regionStride w stride).toNat ≠ 0 ∧ w.toNat ≤ (regionStride w stride).toNat := by
  have positive : w.toNat ≠ 0 := fun zero => nonempty (by rw [zero, Nat.zero_mul])
  unfold regionStride
  split
  · rw [UInt8.toNat_toUInt32]
    exact ⟨positive, Nat.le_refl _⟩
  · rename_i given
    have enough := (wide.resolve_left given).2
    exact ⟨by omega, enough⟩

/-- Every call keeps to its region exactly if the rows it draws below the
region, and those of the region it leaves out, show their bits already. -/
theorem drawRegion_keeps_to_region_iff (plain : screen.Inverted = 0)
    (fits : x.toNat + w.toNat ≤ SSD1306_WIDTH ∧ y.toNat + h.toNat ≤ SSD1306_HEIGHT)
    (nonempty : w.toNat * h.toNat ≠ 0)
    (wide : stride = 0 ∨ 8 ∣ stride.toNat ∧ w.toNat ≤ stride.toNat)
    (readable : ∀ k < size.toNat, data k = .ok (bytes k)) :
    ∃ drawn, ssd1306_DrawRegion screen x y w h data size stride = .ok drawn ∧
      (KeepsToRegion x y w h bytes size.toNat (regionStride w stride).toNat screen drawn ↔
        Settled x y w h bytes size.toNat (regionStride w stride).toNat
          (regionRows size (regionStride w stride)) screen) := by
  obtain ⟨positive, enough⟩ := regionStride_spec nonempty wide
  refine ⟨_, ssd1306_DrawRegion_eq_draw screen stride fits nonempty readable, ?_⟩
  apply keepsToRegion_grid_iff plain fits.1 fits.2 (Nat.le_of_lt (UInt8.toNat_lt _))
  intro i drawn j inside
  rw [regionCell_eq_bytes positive drawn enough (le_trans (Nat.le_add_left ..) fits.1) inside]
  rfl

theorem settled_of_rows_le {rows : Nat} (below : y.toNat + h.toNat ≤ SSD1306_HEIGHT)
    (counted : 8 * size.toNat < 2 ^ 32) (available : 8 * size.toNat / stride.toNat ≤ h.toNat)
    (drawn : rows = regionRows size stride) :
    Settled x y w h bytes size.toNat stride.toNat rows screen := by
  have exact_ : rows = 8 * size.toNat / stride.toNat := by
    have bits : (size * 8).toNat = 8 * size.toNat := by
      rw [UInt32.toNat_mul]
      change size.toNat * 8 % 2 ^ 32 = _
      omega
    simp only [SSD1306_HEIGHT] at below
    rw [drawn, regionRows, UInt32.toNat_toUInt8, UInt32.toNat_div, bits, Nat.mod_eq_of_lt (by omega)]
  constructor
  · intro i beyond here
    omega
  · intro i undrawn _ listed
    omega

end Calls

/-- A row of eight white pixels. -/
theorem drawRegion_keeps_to_region_one_row :
    ∃ drawn, ssd1306_DrawRegion black 0 0 8 1 (listSource () [0xFF]) 1 0 = .ok drawn ∧
      KeepsToRegion 0 0 8 1 (fun k => [0xFF].getD k 0) 1 8 black drawn := by
  obtain ⟨drawn, returned, keeps⟩ := @drawRegion_keeps_to_region_iff _ black 0 0 8 1
    (listSource () [0xFF]) (fun k => [0xFF].getD k 0) 1 0 rfl (by decide) (by decide) (.inl rfl)
    fun _ inside => listSource_eq () inside
  exact ⟨drawn, returned, keeps.mpr (settled_of_rows_le (by decide) (by decide) (by decide) rfl)⟩

/-- Two bytes for a region of one row: the row below it is drawn, too. -/
theorem drawRegion_leaves_region :
    ∃ drawn, ssd1306_DrawRegion black 0 0 8 1 (listSource () [0xFF, 0xFF]) 2 8 = .ok drawn ∧
      ¬KeepsToRegion 0 0 8 1 (fun k => [0xFF, 0xFF].getD k 0) 2 8 black drawn := by
  have fits : (0 : UInt8).toNat + (8 : UInt8).toNat ≤ SSD1306_WIDTH ∧
      (0 : UInt8).toNat + (1 : UInt8).toNat ≤ SSD1306_HEIGHT := by decide
  have readable : ∀ k < (2 : UInt32).toNat,
      listSource () [0xFF, 0xFF] k = .ok ([0xFF, 0xFF].getD k 0) := fun _ inside =>
    listSource_eq () inside
  refine ⟨_, ssd1306_DrawRegion_eq_draw black 8 fits (by decide) readable, fun kept => ?_⟩
  -- The leftmost pixel of the second row.
  have here : ((0, 1) : Point).2.val = ((0 : UInt8).toNat + 1) % 256 := by decide
  have same := kept.outside (0, 1) (by decide)
  rw [pixel_grid_row rfl fits.1 (by decide) (show 1 < _ by decide)
    (show 0 < (8 : UInt8).toNat by decide) rfl here] at same
  exact absurd same (by decide)

end WifiIot.Display
