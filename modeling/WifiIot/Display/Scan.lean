import WifiIot.Display.QrCode
import WifiIot.Qrcodegen.Text

/-!
# Reading the screen

A text that has been encoded and printed is read from the pixels of the screen.  It does not
matter which pixel of a module is looked at, nor what the screen showed before.

Source: `qrcode_gen/demo/demo.c`, `qrcode_gen/src/qrcodegen.c`.
-/

namespace WifiIot.Display

open Qrcodegen

structure Tells (code : QrCode) (qrcode : List UInt8) : Prop where
  size : getSize .qrcode qrcode = .ok code.qrcodegen_getSize
  modules : ∀ x y : Nat, qrcodegen_getModule qrcode x y = .ok (code.qrcodegen_getModule x y)

section Scan

variable (screen : Screen) (x_start y_start zoom : UInt8)

/-- The module at a point, seen at one pixel of it. -/
def seen (side : Nat) (pixel point : Nat × Nat) : Bool :=
  (point.1 < side ∧ point.2 < side) &&
    (onScreen (UInt8.ofNat (x_start.toNat + (point.1 * scale zoom + pixel.1)))
      (UInt8.ofNat (y_start.toNat + (point.2 * scale zoom + pixel.2)))).any
        fun place => !screen.pixel place

/-- What is read from a screen with a symbol of the side. -/
def readScreen (side : Nat) (pixel : Nat × Nat) : Option (List UInt8) := do
  let version ← versionOfSide side
  readPicture version (seen screen x_start y_start zoom side pixel)

end Scan

section Printed

variable {screen : Screen} {x_start y_start zoom : UInt8} {code : QrCode} {qrcode : List UInt8}

theorem exists_tells {side : Nat} (symbol : Symbol qrcode side) :
    ∃ code, Tells code qrcode ∧ code.qrcodegen_getSize = side := by
  refine ⟨⟨side, fun x y => moduleAt qrcode side (x, y), symbol.most⟩,
    ⟨getSize_eq symbol, fun x y => ?_⟩, rfl⟩
  rw [qrcodegen_getModule_eq symbol, decide_eq_true ⟨Int.natCast_nonneg x, Int.natCast_nonneg y⟩,
    Bool.true_and]
  rfl

theorem pixel_PrintQr_module (plain : screen.Inverted = 0)
    (right : x_start.toNat + code.side zoom ≤ SSD1306_WIDTH)
    (bottom : y_start.toNat + code.side zoom ≤ SSD1306_HEIGHT) {pixel point : Nat × Nat}
    (inPixel : pixel.1 < scale zoom ∧ pixel.2 < scale zoom)
    (inside : point.1 < code.qrcodegen_getSize ∧ point.2 < code.qrcodegen_getSize) :
    ∃ place, onScreen (UInt8.ofNat (x_start.toNat + (point.1 * scale zoom + pixel.1)))
        (UInt8.ofNat (y_start.toNat + (point.2 * scale zoom + pixel.2))) = some place ∧
      (ssd1306_PrintQr screen x_start y_start code zoom).pixel place =
        !code.qrcodegen_getModule point.1 point.2 := by
  have within : ∀ place offset, place < code.qrcodegen_getSize → offset < scale zoom →
      place * scale zoom + offset < code.side zoom := by
    intro place offset few small
    calc
      place * scale zoom + offset < place * scale zoom + scale zoom := Nat.add_lt_add_left small _
      _ = (place + 1) * scale zoom := (Nat.succ_mul _ _).symm
      _ ≤ code.side zoom := Nat.mul_le_mul_right _ few
  have column := within _ _ inside.1 inPixel.1
  have row := within _ _ inside.2 inPixel.2
  have quotient : ∀ place offset, offset < scale zoom →
      (place * scale zoom + offset) / scale zoom = place := by
    intro place offset small
    rw [Nat.mul_comm, Nat.mul_add_div (Nat.zero_lt_of_lt small), Nat.div_eq_of_lt small, Nat.add_zero]
  have onWidth := lt_of_lt_of_le (Nat.add_lt_add_left column x_start.toNat) right
  have onHeight := lt_of_lt_of_le (Nat.add_lt_add_left row y_start.toNat) bottom
  let place : Point := (⟨_, onWidth⟩, ⟨_, onHeight⟩)
  have last : LastPlace x_start y_start code zoom place (point.1 * scale zoom + pixel.1)
      (point.2 * scale zoom + pixel.2) := by
    refine ⟨Nat.mod_eq_of_lt (lt_trans onWidth (by decide)),
      Nat.mod_eq_of_lt (lt_trans onHeight (by decide)), column, ?_, row, ?_⟩
    all_goals
      simp only [SSD1306_WIDTH, SSD1306_HEIGHT] at right bottom
      omega
  refine ⟨place, onScreen_eq_some.mpr ⟨?_, ?_⟩, ?_⟩
  · exact (UInt8.toNat_ofNat').trans last.column
  · exact (UInt8.toNat_ofNat').trans last.row
  · rw [pixel_PrintQr_of_lastPlace plain last, QrCode.color, quotient _ _ inPixel.1,
      quotient _ _ inPixel.2]
    cases code.qrcodegen_getModule point.1 point.2 <;> rfl

theorem readScreen_eq {version : Version} (symbol : Symbol qrcode version.side) (tells : Tells code qrcode)
    (plain : screen.Inverted = 0) (right : x_start.toNat + code.side zoom ≤ SSD1306_WIDTH)
    (bottom : y_start.toNat + code.side zoom ≤ SSD1306_HEIGHT) {pixel : Nat × Nat}
    (inPixel : pixel.1 < scale zoom ∧ pixel.2 < scale zoom) :
    readScreen (ssd1306_PrintQr screen x_start y_start code zoom) x_start y_start zoom
      code.qrcodegen_getSize pixel = readSymbol qrcode := by
  have size : code.qrcodegen_getSize = version.side :=
    (Except.ok.inj ((getSize_eq symbol).symm.trans tells.size)).symm
  have picture : seen (ssd1306_PrintQr screen x_start y_start code zoom) x_start y_start zoom
      code.qrcodegen_getSize pixel = moduleAt qrcode version.side := by
    funext point
    rw [seen]
    by_cases inside : point.1 < code.qrcodegen_getSize ∧ point.2 < code.qrcodegen_getSize
    · have same := (qrcodegen_getModule_eq symbol point.1 point.2).symm.trans (tells.modules _ _)
      rw [decide_eq_true ⟨Int.natCast_nonneg _, Int.natCast_nonneg _⟩, Bool.true_and] at same
      obtain ⟨place, shown, color⟩ := pixel_PrintQr_module plain right bottom inPixel inside
      rw [decide_eq_true inside, Bool.true_and, shown, Option.any_some, color, Bool.not_not]
      exact (Except.ok.inj same).symm
    · rw [decide_eq_false inside, Bool.false_and, moduleAt, if_neg (by rwa [← size])]
  rw [readScreen, picture, size, versionOfSide_side, readSymbol_eq symbol]
  rfl

end Printed

/-- A text goes through the symbol to the screen: when all of the symbol is on it, the text is
read from the pixels. -/
theorem encodeText_readScreen (ecl : qrcodegen_Ecc) {minVersion maxVersion : Version}
    {tempBuffer qrcode : List UInt8} (order : minVersion.ver ≤ maxVersion.ver) (text : Memory.Text)
    (roomTemp : bufferLen maxVersion.side ≤ tempBuffer.length)
    (room : bufferLen maxVersion.side ≤ qrcode.length) (mask : Option Mask) (boostEcl : Bool)
    {encoded : Encoded} (runs : qrcodegen_encodeText ecl minVersion maxVersion mask boostEcl text tempBuffer
      qrcode = .ok encoded) (returned : encoded.returned = true) :
    ∃ code, Tells code encoded.qrcode ∧ code.qrcodegen_getSize ≤ maxVersion.side ∧
      ∀ (screen : Screen) (x_start y_start zoom : UInt8), screen.Inverted = 0 →
        x_start.toNat + code.side zoom ≤ SSD1306_WIDTH → y_start.toNat + code.side zoom ≤ SSD1306_HEIGHT →
        ∀ pixel : Nat × Nat, pixel.1 < scale zoom ∧ pixel.2 < scale zoom →
          readScreen (ssd1306_PrintQr screen x_start y_start code zoom) x_start y_start zoom
            code.qrcodegen_getSize pixel = some text.val := by
  obtain ⟨same, runsSame, outcome⟩ := encodeText_outcome ecl order text roomTemp room mask boostEcl
  obtain rfl := Except.ok.inj (runs.symm.trans runsSame)
  obtain ⟨version, high, symbol⟩ := outcome.symbol returned
  obtain ⟨code, tells, size⟩ := exists_tells symbol
  have small : code.qrcodegen_getSize ≤ maxVersion.side := by
    rw [size, Version.side, Version.side]
    omega
  refine ⟨code, tells, small, fun screen x_start y_start zoom plain right bottom pixel inPixel => ?_⟩
  rw [readScreen_eq symbol tells plain right bottom inPixel, outcome.reads returned]

/-- Two digits in version 1, printed with squares of two by two pixels. -/
theorem encodeText_readScreen_digits :
    ∃ encoded code, qrcodegen_encodeText .LOW qrcodegen_VERSION_MIN qrcodegen_VERSION_MIN none true
        ⟨[0x36, 0x36], by decide⟩ (List.replicate 57 0) (List.replicate 57 0) = .ok encoded ∧
      Tells code encoded.qrcode ∧
      readScreen (ssd1306_PrintQr black 0 0 code 2) 0 0 2 code.qrcodegen_getSize (1, 1) =
        some [0x36, 0x36] := by
  have room : bufferLen qrcodegen_VERSION_MIN.side ≤ (List.replicate 57 (0 : UInt8)).length := by decide
  obtain ⟨encoded, runs, outcome⟩ := encodeText_outcome .LOW (le_refl qrcodegen_VERSION_MIN.ver)
    ⟨[0x36, 0x36], by decide⟩ room room none true
  have returned : encoded.returned = true :=
    outcome.returned.mpr ⟨_, le_refl _, le_refl _, .inr (by decide +kernel)⟩
  obtain ⟨code, tells, small, reads⟩ := encodeText_readScreen .LOW (le_refl qrcodegen_VERSION_MIN.ver)
    ⟨[0x36, 0x36], by decide⟩ room room none true runs returned
  have fits : code.side 2 ≤ 42 := Nat.mul_le_mul_right 2 small
  refine ⟨encoded, code, runs, tells, reads black 0 0 2 rfl ?_ ?_ (1, 1) (by decide)⟩
  · exact le_trans (Nat.add_le_add_left fits 0) (by decide)
  · exact le_trans (Nat.add_le_add_left fits 0) (by decide)

end WifiIot.Display
