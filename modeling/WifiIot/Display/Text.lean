import WifiIot.Display.Font7x10
import WifiIot.Display.Framebuffer

/-!
# Drawing text

A character is drawn as a cell of the font at the cursor, which it moves to the
right.  A string is drawn up to the first character that does not fit or has no
glyph; its cells stand side by side, so they do not disturb each other.

Source: `ssd1306_3rd_driver/ssd1306/ssd1306.c` and
`astronauts_game/game/src/oled.c`.
-/

namespace WifiIot.Display

open Memory Raster

universe u

variable {Name : Type u}

structure FontDef where
  FontWidth : UInt8
  FontHeight : UInt8
  data : List UInt16

def Font_7x10 : FontDef where
  FontWidth := 7
  FontHeight := 10
  data := Font7x10

def FontDef.word (name : Name) (font : FontDef) (index : Nat) : Checked Name UInt16 :=
  match font.data[index]? with
  | some word => .ok word
  | none => .error ⟨name, index, .read⟩

structure Canvas extends Screen where
  CurrentX : UInt16
  CurrentY : UInt16

def ssd1306_SetCursor (canvas : Canvas) (x y : UInt8) : Canvas :=
  { canvas with CurrentX := x.toUInt16, CurrentY := y.toUInt16 }

/-- The colour of column `j`: that of the text where `(b << j) & 0x8000`. -/
def inkColor (b : UInt16) (j : Nat) (color : SSD1306_COLOR) : SSD1306_COLOR :=
  if b.toUInt32 <<< UInt32.ofNat j &&& 0x8000 ≠ 0 then color else color.not

section Drawing

variable (name : Name) (font : FontDef)

/-- The loops over the lines and columns of a cell. -/
def drawCell (screen : Screen) (x y : Nat) (ch : UInt8) (color : SSD1306_COLOR) :
    Checked Name Screen :=
  (List.range font.FontHeight.toNat).foldlM (fun screen i => do
    let b ← font.word name ((ch.toNat - 32) * font.FontHeight.toNat + i)
    .ok ((List.range font.FontWidth.toNat).foldl (fun screen j =>
      ssd1306_DrawPixel screen (UInt8.ofNat (x + j)) (UInt8.ofNat (y + i)) (inkColor b j color))
      screen)) screen

/-- `ssd1306_DrawChar` behind its check for line ends. -/
def drawPrintable (canvas : Canvas) (ch : UInt8) (color : SSD1306_COLOR) :
    Checked Name (Canvas × UInt8) :=
  if ch < 32 ∨ 126 < ch then .ok (canvas, 0)
  else if SSD1306_WIDTH < canvas.CurrentX.toNat + font.FontWidth.toNat ∨
      SSD1306_HEIGHT < canvas.CurrentY.toNat + font.FontHeight.toNat then
    .ok (canvas, 0)
  else do
    let screen ← drawCell name font canvas.toScreen canvas.CurrentX.toNat canvas.CurrentY.toNat ch color
    .ok ({ canvas with
      toScreen := screen
      CurrentX := canvas.CurrentX + font.FontWidth.toUInt16 }, ch)

/-- The loop of `ssd1306_DrawString` over the bytes before the NUL. -/
def drawString (drawChar : Canvas → UInt8 → Checked Name (Canvas × UInt8)) (canvas : Canvas) :
    List UInt8 → Checked Name (Canvas × UInt8)
  | [] => .ok (canvas, 0)
  | ch :: str => do
      let (next, written) ← drawChar canvas ch
      if written ≠ ch then .ok (next, ch) else drawString drawChar next str

def ssd1306_DrawChar (canvas : Canvas) (ch : UInt8) (color : SSD1306_COLOR) :
    Checked Name (Canvas × UInt8) :=
  if ch = 10 then
    .ok ({ canvas with
      CurrentX := 0
      CurrentY := canvas.CurrentY + font.FontHeight.toUInt16 }, ch)
  else if ch = 13 then .ok ({ canvas with CurrentX := 0 }, ch)
  else drawPrintable name font canvas ch color

/-- The result of `ssd1306_DrawString` is not used, and `ssd1306_UpdateScreen`
sends the framebuffer as it is then. -/
def ssd1306_PrintString (canvas : Canvas) (str : List UInt8) (color : SSD1306_COLOR) :
    Checked Name Canvas := do
  let (drawn, _) ← drawString (fun canvas ch => ssd1306_DrawChar name font canvas ch color) canvas str
  .ok drawn

end Drawing

def ssd1306_Fill (canvas : Canvas) (color : SSD1306_COLOR) : Canvas :=
  { canvas with buffer := fun _ => if color = .Black then 0x00 else 0xFF }

/-! ## Cells -/

/-- Every glyph has its words, and the columns are bits of a word. -/
structure FontDef.Complete (font : FontDef) : Prop where
  whole : font.data.length = 95 * font.FontHeight.toNat
  narrow : font.FontWidth.toNat ≤ 16

theorem Font_7x10_complete : Font_7x10.Complete := ⟨length_Font7x10, by decide⟩

/-- The font bit in line `i` and column `j` of a glyph. -/
def FontDef.ink (font : FontDef) (ch : UInt8) (i j : Nat) : Bool :=
  (font.data.getD ((ch.toNat - 32) * font.FontHeight.toNat + i) 0).toNat.testBit (15 - j)

theorem inkColor_eq (b : UInt16) {j : Nat} (small : j < 16) (color : SSD1306_COLOR) :
    inkColor b j color = if b.toNat.testBit (15 - j) then color else color.not := by
  unfold inkColor
  simp only [shiftLeft_and_high_ne_zero b small]

section Cells

variable {name : Name} {font : FontDef} {ch : UInt8} {x y : Nat} {color : SSD1306_COLOR}

def cellDots (font : FontDef) (x y : Nat) (ch : UInt8) (color : SSD1306_COLOR) : List Dot :=
  scan font.FontHeight.toNat font.FontWidth.toNat fun i j =>
    ⟨UInt8.ofNat (x + j), UInt8.ofNat (y + i), if font.ink ch i j then color else color.not⟩

def printable (ch : UInt8) : Prop := 32 ≤ ch.toNat ∧ ch.toNat ≤ 126

instance (ch : UInt8) : Decidable (printable ch) := inferInstanceAs (Decidable (_ ∧ _))

theorem not_printable_iff : ch < 32 ∨ 126 < ch ↔ ¬printable ch := by
  rw [UInt8.lt_iff_toNat_lt, UInt8.lt_iff_toNat_lt, printable]
  change ch.toNat < 32 ∨ 126 < ch.toNat ↔ _
  omega

theorem FontDef.Complete.index_lt (complete : font.Complete) (known : printable ch) {i : Nat}
    (above : i < font.FontHeight.toNat) :
    (ch.toNat - 32) * font.FontHeight.toNat + i < font.data.length := by
  obtain ⟨low, high⟩ := known
  rw [complete.whole]
  calc
    (ch.toNat - 32) * font.FontHeight.toNat + i
        < (ch.toNat - 32) * font.FontHeight.toNat + font.FontHeight.toNat := Nat.add_lt_add_left above _
    _ = (ch.toNat - 32 + 1) * font.FontHeight.toNat := (Nat.succ_mul ..).symm
    _ ≤ 95 * font.FontHeight.toNat := Nat.mul_le_mul_right _ (by omega)

theorem drawCell_eq (complete : font.Complete) (known : printable ch) (screen : Screen) :
    drawCell name font screen x y ch color = .ok (screen.draw (cellDots font x y ch color)) := by
  rw [Screen.draw, cellDots, foldl_scan]
  apply foldlM_eq_ok
  intro i membership screen
  have inside := complete.index_lt known (List.mem_range.mp membership)
  have word : font.word name ((ch.toNat - 32) * font.FontHeight.toNat + i) =
      .ok (font.data.getD ((ch.toNat - 32) * font.FontHeight.toNat + i) 0) := by
    rw [FontDef.word, List.getElem?_eq_getElem inside, ← List.getElem_eq_getD 0]
  rw [word, ok_bind]
  congr 1
  apply List.foldl_ext
  intro screen j membership
  have small : j < 16 := lt_of_lt_of_le (List.mem_range.mp membership) complete.narrow
  rw [inkColor_eq _ small]
  rfl

end Cells

/-! ## Strings -/

section Strings

variable (font : FontDef)

def textDots (x y : Nat) (color : SSD1306_COLOR) : List UInt8 → List Dot
  | [] => []
  | ch :: text => cellDots font x y ch color ++ textDots (x + font.FontWidth.toNat) y color text

/-- All characters have a glyph, and all cells are on the screen. -/
structure Fits (x y : Nat) (text : List UInt8) : Prop where
  known : ∀ ch ∈ text, printable ch
  right : ∀ k < text.length, x + font.FontWidth.toNat * (k + 1) ≤ SSD1306_WIDTH
  below : text ≠ [] → y + font.FontHeight.toNat ≤ SSD1306_HEIGHT

/-- The longest part at the front of a string that fits. -/
structure LongestFitting (x y : Nat) (str text : List UInt8) : Prop where
  front : text <+: str
  fits : Fits font x y text
  longest : ∀ other, other <+: str → Fits font x y other → other.length ≤ text.length

variable {font} {x y : Nat} {ch : UInt8} {text str : List UInt8} {color : SSD1306_COLOR}

theorem fits_nil (font : FontDef) (x y : Nat) : Fits font x y [] :=
  ⟨by simp, by simp, fun nonempty => absurd rfl nonempty⟩

/-- There is a glyph and room for one more character. -/
def Room (font : FontDef) (x y : Nat) (ch : UInt8) : Prop :=
  printable ch ∧ x + font.FontWidth.toNat ≤ SSD1306_WIDTH ∧
    y + font.FontHeight.toNat ≤ SSD1306_HEIGHT

theorem fits_cons_iff : Fits font x y (ch :: text) ↔
    Room font x y ch ∧ Fits font (x + font.FontWidth.toNat) y text := by
  have next (k : Nat) : x + font.FontWidth.toNat + font.FontWidth.toNat * (k + 1) =
      x + font.FontWidth.toNat * (k + 1 + 1) := by
    rw [Nat.mul_succ _ (k + 1)]
    omega
  constructor
  · rintro ⟨known, right, below⟩
    refine ⟨⟨known ch List.mem_cons_self, ?_, below (List.cons_ne_nil _ _)⟩, ?_⟩
    · simpa using right 0 (Nat.succ_pos _)
    · refine ⟨fun other membership => known other (List.mem_cons_of_mem _ membership), ?_, ?_⟩
      · intro k inside
        rw [next]
        exact right (k + 1) (Nat.succ_lt_succ inside)
      · exact fun _ => below (List.cons_ne_nil _ _)
  · rintro ⟨⟨knownFirst, rightFirst, below⟩, known, right, -⟩
    refine ⟨?_, ?_, fun _ => below⟩
    · intro other membership
      rcases List.mem_cons.mp membership with rfl | later
      · exact knownFirst
      · exact known other later
    · intro k inside
      cases k with
      | zero => simpa using rightFirst
      | succ k =>
          rw [← next]
          exact right k (Nat.lt_of_succ_lt_succ inside)

theorem LongestFitting.cons (room : Room font x y ch)
    (longest : LongestFitting font (x + font.FontWidth.toNat) y str text) :
    LongestFitting font x y (ch :: str) (ch :: text) where
  front := List.cons_prefix_cons.mpr ⟨rfl, longest.front⟩
  fits := fits_cons_iff.mpr ⟨room, longest.fits⟩
  longest := by
    intro other front fits
    cases other with
    | nil => exact Nat.zero_le _
    | cons first others =>
        have shorter := longest.longest others (List.cons_prefix_cons.mp front).2
          (fits_cons_iff.mp fits).2
        exact Nat.succ_le_succ shorter

theorem longestFitting_nil (full : ¬Room font x y ch) : LongestFitting font x y (ch :: str) [] where
  front := List.nil_prefix
  fits := fits_nil font x y
  longest := by
    intro other front fits
    cases other with
    | nil => exact Nat.le_refl _
    | cons first others =>
        obtain ⟨rfl, -⟩ := List.cons_prefix_cons.mp front
        exact absurd (fits_cons_iff.mp fits).1 full

def Canvas.written (canvas : Canvas) (font : FontDef) (text : List UInt8) (color : SSD1306_COLOR) :
    Canvas where
  toScreen := canvas.toScreen.draw
    (textDots font canvas.CurrentX.toNat canvas.CurrentY.toNat color text)
  CurrentX := canvas.CurrentX + UInt16.ofNat (font.FontWidth.toNat * text.length)
  CurrentY := canvas.CurrentY

section Printing

variable {name : Name} {canvas : Canvas}

theorem toNat_CurrentX (room : Room font canvas.CurrentX.toNat canvas.CurrentY.toNat ch) :
    (canvas.CurrentX + UInt16.ofNat (font.FontWidth.toNat * 1)).toNat =
      canvas.CurrentX.toNat + font.FontWidth.toNat := by
  have right := room.2.1
  simp only [SSD1306_WIDTH] at right
  rw [UInt16.toNat_add, UInt16.toNat_ofNat', Nat.mul_one]
  omega

theorem drawPrintable_of_room (complete : font.Complete)
    (room : Room font canvas.CurrentX.toNat canvas.CurrentY.toNat ch) :
    drawPrintable name font canvas ch color = .ok (canvas.written font [ch] color, ch) := by
  obtain ⟨known, right, below⟩ := room
  have fits : ¬(SSD1306_WIDTH < canvas.CurrentX.toNat + font.FontWidth.toNat ∨
      SSD1306_HEIGHT < canvas.CurrentY.toNat + font.FontHeight.toNat) := by
    rintro (wide | high)
    · exact absurd right (not_le.mpr wide)
    · exact absurd below (not_le.mpr high)
  have width : font.FontWidth.toUInt16 = UInt16.ofNat (font.FontWidth.toNat * 1) := by
    apply UInt16.toNat_inj.mp
    rw [UInt8.toNat_toUInt16, UInt16.toNat_ofNat', Nat.mul_one]
    have := UInt8.toNat_lt font.FontWidth
    omega
  rw [drawPrintable, if_neg (by rw [not_printable_iff, not_not]; exact known), if_neg fits,
    drawCell_eq complete known, ok_bind, width]
  simp only [Canvas.written, textDots, List.append_nil]
  rfl

theorem drawPrintable_of_full
    (full : ¬Room font canvas.CurrentX.toNat canvas.CurrentY.toNat ch) :
    drawPrintable name font canvas ch color = .ok (canvas, 0) := by
  unfold drawPrintable
  by_cases known : printable ch
  · rw [if_neg (by rw [not_printable_iff, not_not]; exact known), if_pos]
    by_contra room
    obtain ⟨right, below⟩ := not_or.mp room
    exact full ⟨known, not_lt.mp right, not_lt.mp below⟩
  · rw [if_pos (not_printable_iff.mpr known)]

theorem written_nil (canvas : Canvas) (font : FontDef) (color : SSD1306_COLOR) :
    canvas.written font [] color = canvas := by
  have still : canvas.CurrentX + UInt16.ofNat 0 = canvas.CurrentX := UInt16.add_zero _
  simp only [Canvas.written, List.length_nil, Nat.mul_zero, still]
  rfl

theorem toNat_CurrentX_written (color : SSD1306_COLOR)
    (fits : Fits font canvas.CurrentX.toNat canvas.CurrentY.toNat text) :
    (canvas.written font text color).CurrentX.toNat =
      canvas.CurrentX.toNat + font.FontWidth.toNat * text.length := by
  cases text with
  | nil => simp [written_nil]
  | cons ch text =>
      have right := fits.right text.length (Nat.lt_succ_self _)
      simp only [SSD1306_WIDTH] at right
      rw [Canvas.written, UInt16.toNat_add, UInt16.toNat_ofNat', List.length_cons]
      omega

theorem written_cons (room : Room font canvas.CurrentX.toNat canvas.CurrentY.toNat ch) :
    (canvas.written font [ch] color).written font text color =
      canvas.written font (ch :: text) color := by
  have cursor := toNat_CurrentX room
  have advance : canvas.CurrentX + UInt16.ofNat (font.FontWidth.toNat * 1) +
      UInt16.ofNat (font.FontWidth.toNat * text.length) =
        canvas.CurrentX + UInt16.ofNat (font.FontWidth.toNat * (ch :: text).length) := by
    rw [UInt16.add_assoc, ← UInt16.ofNat_add, ← Nat.mul_add, Nat.add_comm, List.length_cons]
  simp only [Canvas.written, textDots, List.append_nil, List.length_singleton, advance, cursor]
  rw [Screen.draw, Screen.draw, Screen.draw, List.foldl_append]

section Loop

variable {drawChar : Canvas → UInt8 → Checked Name (Canvas × UInt8)} {next : Canvas}

theorem drawString_of_written (written : drawChar canvas ch = .ok (next, ch)) :
    drawString drawChar canvas (ch :: str) = drawString drawChar next str := by
  rw [drawString, written, ok_bind]
  exact if_neg (not_not.mpr rfl)

theorem drawString_of_refused {result : UInt8} (refused : drawChar canvas ch = .ok (next, result))
    (different : result ≠ ch) : drawString drawChar canvas (ch :: str) = .ok (next, ch) := by
  rw [drawString, refused, ok_bind]
  exact if_pos different

end Loop

/-- A string is drawn up to the first character that has no room. -/
theorem drawString_eq (complete : font.Complete)
    {drawChar : Canvas → UInt8 → Checked Name (Canvas × UInt8)}
    (nonzero : (0 : UInt8) ∉ str)
    (agrees : ∀ canvas, ∀ ch ∈ str, drawChar canvas ch = drawPrintable name font canvas ch color) :
    ∃ text, LongestFitting font canvas.CurrentX.toNat canvas.CurrentY.toNat str text ∧
      drawString drawChar canvas str =
        .ok (canvas.written font text color, (str.drop text.length).headD 0) := by
  induction str generalizing canvas with
  | nil =>
      refine ⟨[], ⟨List.nil_prefix, fits_nil .., fun other front _ => front.length_le⟩, ?_⟩
      rw [drawString, written_nil]
      rfl
  | cons ch str inductionHypothesis =>
      have present : ch ≠ 0 := fun zero => nonzero (zero ▸ List.mem_cons_self)
      have here := agrees canvas ch List.mem_cons_self
      by_cases room : Room font canvas.CurrentX.toNat canvas.CurrentY.toNat ch
      · rw [drawPrintable_of_room complete room] at here
        have cursor := toNat_CurrentX room
        obtain ⟨text, longest, drawn⟩ := @inductionHypothesis (canvas.written font [ch] color)
          (fun later => nonzero (List.mem_cons_of_mem _ later))
          (fun canvas other membership => agrees canvas other (List.mem_cons_of_mem _ membership))
        refine ⟨ch :: text, LongestFitting.cons room ?_, ?_⟩
        · simpa only [Canvas.written, List.length_singleton, cursor] using longest
        · rw [drawString_of_written here, drawn, written_cons room]
          rfl
      · rw [drawPrintable_of_full room] at here
        refine ⟨[], longestFitting_nil room, ?_⟩
        rw [drawString_of_refused here present.symm, written_nil]
        rfl

end Printing

/-! ## The picture of a string -/

section Picture

variable {screen : Screen}

theorem mem_cellDots {dot : Dot} : dot ∈ cellDots font x y ch color ↔
    ∃ i < font.FontHeight.toNat, ∃ j < font.FontWidth.toNat,
      dot = ⟨UInt8.ofNat (x + j), UInt8.ofNat (y + i),
        if font.ink ch i j then color else color.not⟩ := by
  rw [cellDots, mem_scan]
  simp only [eq_comm]

theorem mem_textDots {dot : Dot} : dot ∈ textDots font x y color text ↔
    ∃ k, ∃ inside : k < text.length, ∃ i < font.FontHeight.toNat, ∃ j < font.FontWidth.toNat,
      dot = ⟨UInt8.ofNat (x + font.FontWidth.toNat * k + j), UInt8.ofNat (y + i),
        if font.ink text[k] i j then color else color.not⟩ := by
  induction text generalizing x with
  | nil => simp [textDots]
  | cons ch text inductionHypothesis =>
      have next (k : Nat) : x + font.FontWidth.toNat + font.FontWidth.toNat * k =
          x + font.FontWidth.toNat * (k + 1) := by
        rw [Nat.mul_succ]
        omega
      rw [textDots, List.mem_append, mem_cellDots, inductionHypothesis]
      simp only [next]
      constructor
      · rintro (⟨i, above, j, within, rfl⟩ | ⟨k, inside, i, above, j, within, rfl⟩)
        · exact ⟨0, Nat.succ_pos _, i, above, j, within, rfl⟩
        · exact ⟨k + 1, Nat.succ_lt_succ inside, i, above, j, within, rfl⟩
      · rintro ⟨k, inside, i, above, j, within, rfl⟩
        cases k with
        | zero => exact .inl ⟨i, above, j, within, rfl⟩
        | succ k => exact .inr ⟨k, Nat.lt_of_succ_lt_succ inside, i, above, j, within, rfl⟩

theorem place_unique {width k j other place : Nat} (within : j < width) (otherWithin : place < width)
    (same : width * k + j = width * other + place) : k = other ∧ j = place := by
  have quotient (cell inCell : Nat) (bounded : inCell < width) :
      (width * cell + inCell) / width = cell := by
    rw [Nat.mul_add_div (Nat.zero_lt_of_lt within), Nat.div_eq_of_lt bounded, Nat.add_zero]
  obtain rfl : k = other := by rw [← quotient k j within, same, quotient other place otherWithin]
  exact ⟨rfl, Nat.add_left_cancel same⟩

theorem onScreen_textDot (fits : Fits font x y text) {k i j : Nat} (inside : k < text.length)
    (above : i < font.FontHeight.toNat) (within : j < font.FontWidth.toNat) {point : Point} :
    onScreen (UInt8.ofNat (x + font.FontWidth.toNat * k + j)) (UInt8.ofNat (y + i)) = some point ↔
      x + font.FontWidth.toNat * k + j = point.1.val ∧ y + i = point.2.val := by
  have right := fits.right k inside
  have below := fits.below (List.ne_nil_of_length_pos (Nat.zero_lt_of_lt inside))
  rw [Nat.mul_succ] at right
  simp only [SSD1306_WIDTH, SSD1306_HEIGHT] at right below
  rw [onScreen_eq_some, UInt8.toNat_ofNat', UInt8.toNat_ofNat',
    Nat.mod_eq_of_lt (by omega), Nat.mod_eq_of_lt (by omega)]

theorem decide_ink (set : Bool) (color : SSD1306_COLOR) :
    decide ((if set then color else color.not) = .White) = (set == decide (color = .White)) := by
  cases set <;> cases color <;> rfl

theorem pixel_textDots_of_cell (plain : screen.Inverted = 0) (fits : Fits font x y text)
    {k i j : Nat} (inside : k < text.length) (above : i < font.FontHeight.toNat)
    (within : j < font.FontWidth.toNat) {point : Point}
    (column : point.1.val = x + font.FontWidth.toNat * k + j) (row : point.2.val = y + i) :
    (screen.draw (textDots font x y color text)).pixel point =
      (font.ink text[k] i j == decide (color = .White)) := by
  rw [← decide_ink]
  apply pixel_draw_of_hit plain
  · intro dot listed shown
    obtain ⟨other, otherInside, line, otherAbove, place, otherWithin, rfl⟩ := mem_textDots.mp listed
    obtain ⟨sameColumn, sameRow⟩ :=
      (onScreen_textDot fits otherInside otherAbove otherWithin).mp shown
    obtain ⟨rfl, rfl⟩ := place_unique within otherWithin (show
      font.FontWidth.toNat * k + j = font.FontWidth.toNat * other + place by omega)
    obtain rfl : line = i := by omega
    rfl
  · refine ⟨_, mem_textDots.mpr ⟨k, inside, i, above, j, within, rfl⟩, ?_⟩
    exact (onScreen_textDot fits inside above within).mpr ⟨column.symm, row.symm⟩

theorem pixel_textDots_beside (plain : screen.Inverted = 0) (fits : Fits font x y text)
    {point : Point}
    (beside : ¬(x ≤ point.1.val ∧ point.1.val < x + font.FontWidth.toNat * text.length ∧
      y ≤ point.2.val ∧ point.2.val < y + font.FontHeight.toNat)) :
    (screen.draw (textDots font x y color text)).pixel point = screen.pixel point := by
  apply pixel_draw_of_miss plain
  intro dot listed shown
  obtain ⟨k, inside, i, above, j, within, rfl⟩ := mem_textDots.mp listed
  obtain ⟨column, row⟩ := (onScreen_textDot fits inside above within).mp shown
  have whole : font.FontWidth.toNat * (k + 1) ≤ font.FontWidth.toNat * text.length :=
    Nat.mul_le_mul_left _ inside
  rw [Nat.mul_succ] at whole
  exact beside ⟨by omega, by omega, by omega, by omega⟩

end Picture

/-! ## Lines -/

section Lines

variable {name : Name} {canvas : Canvas}

theorem ssd1306_PrintString_eq (complete : font.Complete) (nonzero : (0 : UInt8) ∉ str)
    (unbroken : (10 : UInt8) ∉ str ∧ (13 : UInt8) ∉ str) :
    ∃ text, LongestFitting font canvas.CurrentX.toNat canvas.CurrentY.toNat str text ∧
      ssd1306_PrintString name font canvas str color = .ok (canvas.written font text color) := by
  have agrees : ∀ canvas, ∀ ch ∈ str,
      ssd1306_DrawChar name font canvas ch color = drawPrintable name font canvas ch color := by
    intro canvas ch membership
    have other : ch ≠ 10 ∧ ch ≠ 13 :=
      ⟨fun same => unbroken.1 (same ▸ membership), fun same => unbroken.2 (same ▸ membership)⟩
    rw [ssd1306_DrawChar, if_neg other.1, if_neg other.2]
  obtain ⟨text, longest, drawn⟩ := drawString_eq complete nonzero agrees
  refine ⟨text, longest, ?_⟩
  rw [ssd1306_PrintString, drawn, ok_bind]

/-- A line end moves the cursor only. -/
theorem ssd1306_PrintString_line_end :
    ssd1306_PrintString name font canvas [13, 10] color =
      .ok { canvas with
        CurrentX := 0
        CurrentY := canvas.CurrentY + font.FontHeight.toUInt16 } := rfl

end Lines

end Strings

end WifiIot.Display
