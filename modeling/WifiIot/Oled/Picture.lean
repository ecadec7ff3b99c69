import WifiIot.Chip.Ssd1306
import WifiIot.Oled.ShowString

/-!
# The text in the memory of the OLED

Every page of a character costs three commands for the pointer and the bytes of
its columns.  In the page mode the controller then holds the glyphs in their
cells, and nothing else has changed.

Source: `oled_demo/oled_ssd1306.c`.
-/

namespace WifiIot.Oled

open Memory Ssd1306

/-! ## One strip -/

section Strip

variable {chip : Chip} {x y : UInt8}

theorem toNat_pageCommand (visible : y.toNat ≤ 7) : (0xB0 + y).toNat = 176 + y.toNat := by
  rw [UInt8.toNat_add]
  change (176 + y.toNat) % 256 = _
  omega

theorem pageCommand_bounds (visible : y.toNat ≤ 7) : 0xB0 ≤ 0xB0 + y ∧ 0xB0 + y ≤ 0xB7 := by
  have page := toNat_pageCommand visible
  rw [UInt8.le_iff_toNat_le, UInt8.le_iff_toNat_le, page]
  exact ⟨Nat.le_add_right .., Nat.add_le_add_left visible 176⟩

theorem lowCommand_lt (x : UInt8) : x &&& 0x0F < 0x10 := by
  rw [UInt8.lt_iff_toNat_lt, toNat_and_low]
  exact Nat.mod_lt _ (by decide)

theorem highCommand_bounds (x : UInt8) :
    (0x10 : UInt8) ≤ ((x &&& 0xF0) >>> 4) ||| 0x10 ∧ ((x &&& 0xF0) >>> 4) ||| 0x10 < 0x20 := by
  have below := x.toNat_lt
  rw [UInt8.le_iff_toNat_le, UInt8.lt_iff_toNat_lt, toNat_high_or_mark]
  refine ⟨Nat.le_add_right .., ?_⟩
  change 16 + x.toNat / 16 < 32
  omega

theorem setsPointer_position (visible : y.toNat ≤ 7) :
    SetsPointer (0xB0 + y) ∧ SetsPointer (x &&& 0x0F) ∧
      SetsPointer (((x &&& 0xF0) >>> 4) ||| 0x10) :=
  ⟨.inr (pageCommand_bounds visible), .inl (UInt8.lt_trans (lowCommand_lt x) (by decide)),
    .inl (highCommand_bounds x).2⟩

theorem receiveAll_OledSetPosition (mode : chip.addressing.mode = .page) (idle : chip.pending = [])
    (inside : x.toNat < 128) (visible : y.toNat ≤ 7) :
    chip.receiveAll (OledSetPosition x y) =
      chip.moveTo (pageOf y.toNat) (columnOf x.toNat) := by
  have complete : Complete [(0xB0 + y, []), (x &&& 0x0F, []),
      (((x &&& 0xF0) >>> 4) ||| 0x10, [])] := by
    have pointers := @setsPointer_position x y visible
    simp [Complete, argumentCount_of_setsPointer, pointers]
  have received := (@receiveAll_commands chip OLED_I2C_CMD (by decide) (by decide) _).trans
    (commands_program complete idle)
  obtain ⟨pageAbove, pageBelow⟩ := pageCommand_bounds visible
  obtain ⟨highAbove, highBelow⟩ := highCommand_bounds x
  have placed := execute_position mode pageAbove pageBelow (lowCommand_lt x) highAbove highBelow
  have samePage : pageOf (0xB0 + y).toNat = pageOf y.toNat := by
    rw [toNat_pageCommand visible]
    apply Fin.ext
    change (176 + y.toNat) % 8 = y.toNat % 8
    omega
  have sameColumn : ((x &&& 0xF0) >>> 4 ||| 0x10).toNat % 16 * 16 + (x &&& 0x0F).toNat % 16 =
      x.toNat := by
    rw [toNat_high_or_mark, toNat_and_low]
    omega
  rw [samePage, sameColumn] at placed
  refine received.trans ?_
  rw [Chip.moveTo, ← placed, idle]
  rfl

/-- The controller stores data at the pointer, in the page mode. -/
structure Ready (chip : Chip) : Prop where
  mode : chip.addressing.mode = .page
  idle : chip.pending = []

theorem receiveAll_stripTransfers (ready : Ready chip) (bytes : List UInt8) (left : x.toNat < 128)
    (room : x.toNat + bytes.length ≤ 128) (visible : y.toNat ≤ 7) :
    Ready (chip.receiveAll (stripTransfers x y bytes)) ∧
      ∀ cell, (chip.receiveAll (stripTransfers x y bytes)).ram cell =
        if cell.1.val = y.toNat ∧ x.toNat ≤ cell.2.val ∧ cell.2.val < x.toNat + bytes.length then
          bytes.getD (cell.2.val - x.toNat) 0
        else chip.ram cell := by
  obtain ⟨mode, idle⟩ := ready
  have column : (columnOf x.toNat).val = x.toNat := Nat.mod_eq_of_lt left
  have page (cell : Cell) : cell.1 = pageOf y.toNat ↔ cell.1.val = y.toNat := by
    rw [Fin.ext_iff, Fin.val_ofNat, Nat.mod_eq_of_lt (Nat.lt_succ_of_le visible)]
  have received : chip.receiveAll (stripTransfers x y bytes) =
      (chip.moveTo (pageOf y.toNat) (columnOf x.toNat)).stores bytes := by
    rw [stripTransfers, receiveAll_append, receiveAll_OledSetPosition mode idle left visible]
    exact receiveAll_data (by decide) (by decide) bytes
  rw [received]
  refine ⟨⟨(mode_stores ..).trans mode, (pending_stores ..).trans idle⟩, ?_⟩
  have moved : (chip.moveTo (pageOf y.toNat) (columnOf x.toNat)).addressing.column.val =
      x.toNat := column
  have pageMode : (chip.moveTo (pageOf y.toNat) (columnOf x.toNat)).addressing.mode =
      .page := mode
  intro cell
  rw [ram_stores_page pageMode (by rwa [moved]), moved]
  exact if_congr (and_congr (page cell) Iff.rfl) rfl rfl

end Strip

/-! ## One character -/

section Character

variable {chip : Chip} {x y ch : UInt8} {font : Font}

theorem columns_le (font : Font) : font.columns ≤ 8 := by
  cases font <;> decide

theorem pages_le (font : Font) : font.pages ≤ 2 := by
  cases font <;> decide

theorem length_strip (font : Font) (ch : UInt8) (page : Nat) :
    (font.strip ch page).length = font.columns := by
  rw [Font.strip, List.length_map, List.length_range]

theorem getD_strip {page column : Nat} (inside : column < font.columns) :
    (font.strip ch page).getD column 0 = font.glyph ch page column := by
  rw [← List.getElem_eq_getD (h := by rwa [length_strip])]
  simp [Font.strip]

/-- A byte of the memory belongs to the character at a place. -/
structure InCell (font : Font) (place : Nat × Nat) (cell : Cell) : Prop where
  below : place.2 ≤ cell.1.val
  above : cell.1.val < place.2 + font.pages
  right : place.1 ≤ cell.2.val
  left : cell.2.val < place.1 + font.columns

theorem receiveAll_strips (ready : Ready chip) (left : x.toNat ≤ 120) {pages : Nat}
    (visible : y.toNat + pages ≤ 8) :
    let next := chip.receiveAll ((List.range pages).flatMap fun page =>
      stripTransfers x (y + UInt8.ofNat page) (font.strip ch page))
    Ready next ∧ ∀ cell : Cell, next.ram cell =
      if y.toNat ≤ cell.1.val ∧ cell.1.val < y.toNat + pages ∧ x.toNat ≤ cell.2.val ∧
          cell.2.val < x.toNat + font.columns then
        font.glyph ch (cell.1.val - y.toNat) (cell.2.val - x.toNat)
      else chip.ram cell := by
  intro next
  induction pages with
  | zero =>
      refine ⟨ready, fun cell => ?_⟩
      rw [if_neg (by omega)]
      rfl
  | succ pages inductionHypothesis =>
      obtain ⟨readyBefore, before⟩ := inductionHypothesis (by omega)
      have row : (y + UInt8.ofNat pages).toNat = y.toNat + pages := by
        rw [UInt8.toNat_add, UInt8.toNat_ofNat']
        change (y.toNat + pages % 256) % 256 = _
        omega
      have narrow := columns_le font
      obtain ⟨readyAfter, after⟩ := @receiveAll_stripTransfers _ x (y + UInt8.ofNat pages)
        readyBefore (font.strip ch pages) (by omega) (by rw [length_strip]; omega) (by omega)
      have split : next = (chip.receiveAll ((List.range pages).flatMap fun page =>
          stripTransfers x (y + UInt8.ofNat page) (font.strip ch page))).receiveAll
            (stripTransfers x (y + UInt8.ofNat pages) (font.strip ch pages)) := by
        rw [← receiveAll_append]
        simp only [next, List.range_succ, List.flatMap_append, List.flatMap_singleton]
      rw [split]
      refine ⟨readyAfter, fun cell => ?_⟩
      rw [after cell, before cell, row, length_strip]
      by_cases column : x.toNat ≤ cell.2.val ∧ cell.2.val < x.toNat + font.columns
      · rcases Nat.lt_trichotomy cell.1.val (y.toNat + pages) with earlier | last | outside
        · rw [if_neg (by omega)]
          exact if_congr (by omega) rfl rfl
        · rw [if_pos ⟨last, column⟩, if_pos (by omega), getD_strip (by omega), last,
            Nat.add_sub_cancel_left]
        · rw [if_neg (by omega), if_neg (by omega), if_neg (by omega)]
      · rw [if_neg (by omega), if_neg (by omega), if_neg (by omega)]

/-- The glyph in the cell of the character, and everything else as before. -/
theorem receiveAll_cellTransfers (ready : Ready chip) (left : x.toNat ≤ 120)
    (visible : y.toNat + font.pages ≤ 8) :
    Ready (chip.receiveAll (cellTransfers x y ch font)) ∧
      (∀ cell, InCell font (x.toNat, y.toNat) cell →
        (chip.receiveAll (cellTransfers x y ch font)).ram cell =
          font.glyph ch (cell.1.val - y.toNat) (cell.2.val - x.toNat)) ∧
      ∀ cell, ¬InCell font (x.toNat, y.toNat) cell →
        (chip.receiveAll (cellTransfers x y ch font)).ram cell = chip.ram cell := by
  obtain ⟨after, ram⟩ := @receiveAll_strips chip x y ch font ready left font.pages visible
  refine ⟨after, ?_, ?_⟩
  · rintro cell ⟨below, above, right, left⟩
    exact (ram cell).trans (if_pos ⟨below, above, right, left⟩)
  · intro cell outside
    refine (ram cell).trans (if_neg ?_)
    rintro ⟨below, above, right, left⟩
    exact outside ⟨below, above, right, left⟩

theorem not_inCell_of_lt {x y j k : Nat} {cell : Cell} (before : j < k)
    (first : InCell font (place x y j) cell) : ¬InCell font (place x y k) cell := by
  obtain ⟨below, above, right, left⟩ := first
  rintro ⟨otherBelow, otherAbove, otherRight, otherLeft⟩
  have narrow := columns_le font
  have low := pages_le font
  rcases @place_of_lt x y k j before with beside | under
  · omega
  · omega

end Character

/-! ## The string -/

section Text

variable {chip : Chip} {x y : UInt8} {str : Text} {font : Font}

/-- The memory after some characters: their glyphs, and everything else as before. -/
structure Written (chip : Chip) (x y : Nat) (text : List UInt8) (font : Font) (k : Nat)
    (next : Chip) : Prop where
  ready : Ready next
  glyphs : ∀ i < k, ∀ cell, InCell font (place x y i) cell →
    next.ram cell =
      font.glyph (text.getD i 0) (cell.1.val - (place x y i).2) (cell.2.val - (place x y i).1)
  others : ∀ cell, (∀ i < k, ¬InCell font (place x y i) cell) → next.ram cell = chip.ram cell

theorem written_printed (ready : Ready chip) (left : x.toNat ≤ 120)
    (fits : Fits x.toNat y.toNat str.val font) {k : Nat} (inside : k ≤ str.val.length) :
    Written chip x.toNat y.toNat str.val font k
      (chip.receiveAll (printed x y str.val font k).sent) := by
  induction k with
  | zero =>
      exact ⟨ready, fun i before => absurd before (Nat.not_lt_zero i), fun cell _ => rfl⟩
  | succ k inductionHypothesis =>
      obtain ⟨readyBefore, glyphs, others⟩ := inductionHypothesis (Nat.le_of_succ_le inside)
      have short := fits.length_lt left
      have index : k % 256 = k := Nat.mod_eq_of_lt (by omega)
      have column : (UInt8.ofNat (place x.toNat y.toNat k).1).toNat =
          (place x.toNat y.toNat k).1 := by
        have bound := column_place (y := y.toNat) (k := k) left
        rw [UInt8.toNat_ofNat', Nat.mod_eq_of_lt (by omega)]
      have visible := fits.2 k (Nat.lt_of_succ_le inside)
      have row : (UInt8.ofNat (place x.toNat y.toNat k).2).toNat =
          (place x.toNat y.toNat k).2 := by
        rw [UInt8.toNat_ofNat', Nat.mod_eq_of_lt (by omega)]
      have split : (printed x y str.val font (k + 1)).sent = (printed x y str.val font k).sent ++
          cellTransfers (UInt8.ofNat (place x.toNat y.toNat k).1)
            (UInt8.ofNat (place x.toNat y.toNat k).2) (str.val.getD k 0) font := by
        simp only [printed, List.range_succ, List.flatMap_append, List.flatMap_singleton, index]
      obtain ⟨readyAfter, here, elsewhere⟩ := @receiveAll_cellTransfers _
        (UInt8.ofNat (place x.toNat y.toNat k).1) (UInt8.ofNat (place x.toNat y.toNat k).2)
        (str.val.getD k 0) font readyBefore (by rw [column]; exact column_place left)
        (by rwa [row])
      rw [column, row] at here elsewhere
      rw [split, receiveAll_append]
      refine ⟨readyAfter, ?_, ?_⟩
      · intro i before cell inCell
        rcases Nat.lt_succ_iff_lt_or_eq.mp before with earlier | rfl
        · rw [elsewhere cell (not_inCell_of_lt earlier inCell)]
          exact glyphs i earlier cell inCell
        · exact here cell inCell
      · intro cell outside
        rw [elsewhere cell (outside k (Nat.lt_succ_self k))]
        exact others cell fun i before => outside i (Nat.lt_succ_of_lt before)

/-- The display shows a string that fits, each character in its own cell, and
keeps everything else. -/
theorem OledShowString_shows (mode : chip.addressing.mode = .page) (idle : chip.pending = [])
    (left : x.toNat ≤ 120) (fits : Fits x.toNat y.toNat str.val font) :
    ∃ transfers,
      (∀ rounds, str.val.length ≤ rounds →
        OledShowString rounds x y (some str) font = some (.ok transfers)) ∧
      (∀ k, ∀ inside : k < str.val.length, ∀ page < font.pages, ∀ column < font.columns,
        ∃ cell : Cell, cell.1.val = (place x.toNat y.toNat k).2 + page ∧
          cell.2.val = (place x.toNat y.toNat k).1 + column ∧
          (chip.receiveAll transfers).ram cell = font.glyph str.val[k] page column) ∧
      (∀ cell, (∀ k < str.val.length, ¬InCell font (place x.toNat y.toNat k) cell) →
        (chip.receiveAll transfers).ram cell = chip.ram cell) ∧
      ∀ j k, j < k → k < str.val.length → ∀ cell,
        ¬(InCell font (place x.toNat y.toNat j) cell ∧
          InCell font (place x.toNat y.toNat k) cell) := by
  have written := written_printed ⟨mode, idle⟩ left fits le_rfl
  refine ⟨_, fun rounds enough => ?_, ?_, written.others, ?_⟩
  · rw [OledShowString_of_fits left fits, if_pos enough]
  · intro k inside page half column narrow
    have right := column_place (y := y.toNat) (k := k) left
    have visible := fits.2 k inside
    have width := columns_le font
    refine ⟨(⟨(place x.toNat y.toNat k).2 + page, by omega⟩,
      ⟨(place x.toNat y.toNat k).1 + column, by omega⟩), rfl, rfl, ?_⟩
    rw [written.glyphs k inside _ ⟨Nat.le_add_right .., Nat.add_lt_add_left half _,
      Nat.le_add_right .., Nat.add_lt_add_left narrow _⟩, ← List.getElem_eq_getD (h := inside)]
    simp only [Nat.add_sub_cancel_left]
  · rintro j k before - cell ⟨first, second⟩
    exact not_inCell_of_lt before first second

/-- `Hi` at the edge: the second letter goes to the left, two pages below. -/
theorem OledShowString_shows_edge : ∃ transfers,
    (∀ rounds, 2 ≤ rounds →
      OledShowString rounds 120 5 (some ⟨[0x48, 0x69], by decide⟩) .FONT6x8 =
        some (.ok transfers)) ∧
    ∀ page < 1, ∀ column < 6, ∃ cell : Cell, cell.1.val = 7 + page ∧ cell.2.val = 0 + column ∧
      (Chip.receiveAll ⟨fun _ => 0xFF, ⟨.page, ⟨0, 127, 0, 7⟩, 3, 99⟩, []⟩ transfers).ram cell =
        Font.FONT6x8.glyph 0x69 page column := by
  obtain ⟨transfers, returned, glyphs, -⟩ := @OledShowString_shows
    ⟨fun _ => 0xFF, ⟨.page, ⟨0, 127, 0, 7⟩, 3, 99⟩, []⟩ 120 5 ⟨[0x48, 0x69], by decide⟩ .FONT6x8
    rfl rfl (by decide) (by decide)
  exact ⟨transfers, returned, glyphs 1 (by decide)⟩

end Text

end WifiIot.Oled
