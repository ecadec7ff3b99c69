import WifiIot.Display.Text
import WifiIot.Memory.CString

/-!
# The text of the game

The game knows one font, and its `ssd1306_DrawChar` refuses line ends like all
other characters without a glyph.

Source: `astronauts_game/game/src/oled.c`.
-/

namespace WifiIot.Game.Oled

open Display Memory

universe u

variable {Name : Type u} (name : Name)

def g_Font_7x10 : FontDef := Font_7x10

def ssd1306_DrawChar (canvas : Canvas) (ch : UInt8) (font : FontDef) (color : SSD1306_COLOR) :
    Checked Name (Canvas × UInt8) :=
  drawPrintable name font canvas ch color

/-- With the character that could not be drawn, or the NUL. -/
def ssd1306_DrawString (canvas : Canvas) (str : Text) (color : SSD1306_COLOR) :
    Checked Name (Canvas × UInt8) :=
  drawString (fun canvas ch => ssd1306_DrawChar name canvas ch g_Font_7x10 color) canvas str.val

/-- The longest part of a string that fits is drawn, and nothing else changes. -/
theorem ssd1306_DrawString_draws {canvas : Canvas} (plain : canvas.Inverted = 0) (X Y : UInt8)
    (str : Text) (color : SSD1306_COLOR) :
    ∃ text drawn, LongestFitting g_Font_7x10 X.toNat Y.toNat str.val text ∧
      ssd1306_DrawString name (ssd1306_SetCursor canvas X Y) str color =
        .ok (drawn, (str.val.drop text.length).headD 0) ∧
      drawn.CurrentX.toNat = X.toNat + 7 * text.length ∧ drawn.CurrentY.toNat = Y.toNat ∧
      (∀ k, ∀ inside : k < text.length, ∀ i < 10, ∀ j < 7, ∀ point : Point,
        point.1.val = X.toNat + 7 * k + j → point.2.val = Y.toNat + i →
        drawn.pixel point = (g_Font_7x10.ink text[k] i j == decide (color = .White))) ∧
      ∀ point : Point,
        ¬(X.toNat ≤ point.1.val ∧ point.1.val < X.toNat + 7 * text.length ∧
          Y.toNat ≤ point.2.val ∧ point.2.val < Y.toNat + 10) →
        drawn.pixel point = canvas.pixel point := by
  have cursor : (ssd1306_SetCursor canvas X Y).CurrentX.toNat = X.toNat ∧
      (ssd1306_SetCursor canvas X Y).CurrentY.toNat = Y.toNat := by
    simp [ssd1306_SetCursor]
  obtain ⟨text, longest, returned⟩ := @drawString_eq _ g_Font_7x10 str.val color name
    (ssd1306_SetCursor canvas X Y) Font_7x10_complete _ str.property fun _ _ _ => rfl
  have behind := toNat_CurrentX_written color longest.fits
  rw [cursor.1] at behind
  rw [cursor.1, cursor.2] at longest
  refine ⟨text, _, longest, returned, behind, cursor.2, ?_, ?_⟩
  · intro k inside i above j within point column row
    simp only [Canvas.written, cursor]
    exact pixel_textDots_of_cell plain longest.fits inside above within column row
  · intro point beside
    simp only [Canvas.written, cursor]
    exact pixel_textDots_beside plain longest.fits beside

/-- Behind the column 115 there is room for one of the two letters `AB`. -/
theorem ssd1306_DrawString_draws_edge : ∃ drawn written,
    ssd1306_DrawString () (ssd1306_SetCursor ⟨black, 0, 0⟩ 115 0) ⟨[0x41, 0x42], by decide⟩ .White =
      .ok (drawn, written) ∧ drawn.CurrentY = 0 := by
  obtain ⟨text, drawn, -, returned, -, row, -⟩ :=
    ssd1306_DrawString_draws () (show (⟨black, 0, 0⟩ : Canvas).Inverted = 0 from rfl) 115 0
      ⟨[0x41, 0x42], by decide⟩ .White
  exact ⟨drawn, _, returned, UInt16.toNat_inj.mp row⟩

end WifiIot.Game.Oled
