import Mathlib.Data.List.GetD
import WifiIot.Machine.Loop
import WifiIot.Memory.CString
import WifiIot.Oled.Fonts

/-!
# Text on the OLED

`OledShowString` shows a string character by character, each in a cell of eight
columns, and goes on at the left edge two pages below when the right edge is
reached.  The index of the string and the page are bytes, and nothing stops the
page at the lower edge.

Source: `oled_demo/oled_ssd1306.c` and `oled_ssd1306.h`.
-/

namespace WifiIot.Oled

open Memory

inductive Table where
  | F6x8
  | F8X16
  | str
  deriving DecidableEq

inductive Font where
  | FONT6x8
  | FONT8x16
  deriving DecidableEq

def OLED_I2C_CMD : UInt8 := 0x00
def OLED_I2C_DATA : UInt8 := 0x40

/-! Functions that only send return their transfers. -/

def I2cWiteByte (regAddr byte : UInt8) : List UInt8 := [regAddr, byte]

def WriteCmd (cmd : UInt8) : List UInt8 := I2cWiteByte OLED_I2C_CMD cmd

def WriteData (data : UInt8) : List UInt8 := I2cWiteByte OLED_I2C_DATA data

def OledSetPosition (x y : UInt8) : List (List UInt8) :=
  [WriteCmd (0xB0 + y), WriteCmd (x &&& 0x0F), WriteCmd (((x &&& 0xF0) >>> 4) ||| 0x10)]

/-- `F6x8[c][i]` -/
def entryF6x8 (c i : Nat) : Checked Table UInt8 :=
  match F6x8[c]? with
  | some row => listSource .F6x8 row i
  | none => .error ⟨.F6x8, c, .read⟩

def OledShowChar (x y ch : UInt8) (font : Font) : Checked Table (List (List UInt8)) :=
  let c := (ch - 32).toNat
  match font with
  | .FONT8x16 => do
      let upper ← readBytes (fun i => listSource .F8X16 F8X16 (c * 16 + i)) 8
      let lower ← readBytes (fun i => listSource .F8X16 F8X16 (c * 16 + 8 + i)) 8
      .ok (OledSetPosition x y ++ upper.map WriteData ++
        (OledSetPosition x (y + 1) ++ lower.map WriteData))
  | .FONT6x8 => do
      let columns ← readBytes (entryF6x8 c) 6
      .ok (OledSetPosition x y ++ columns.map WriteData)

structure Printing where
  x : UInt8
  y : UInt8
  j : UInt8
  sent : List (List UInt8)

/-- `str[j]` -/
def charAt (str : Text) (j : UInt8) : Checked Table UInt8 :=
  listSource .str (str.val ++ [0]) j.toNat

def pending (str : Text) : Checked Table Printing → Bool
  | .error _ => false
  | .ok printing =>
      match charAt str printing.j with
      | .ok ch => ch != 0
      | .error _ => true

def showNext (str : Text) (font : Font) (printing : Printing) : Checked Table Printing := do
  let ch ← charAt str printing.j
  let shown ← OledShowChar printing.x printing.y ch font
  let x := printing.x + 8
  let (x, y) := if x > 120 then (0, printing.y + 2) else (x, printing.y)
  .ok ⟨x, y, printing.j + 1, printing.sent ++ shown⟩

/-- At most the given number of rounds; `none` if the loop has not ended then. -/
def OledShowString (rounds : Nat) (x y : UInt8) (str : Option Text) (font : Font) :
    Option (Checked Table (List (List UInt8))) :=
  match str with
  | none => some (.ok [])
  | some str =>
      (whileLoop (pending str) (fun printing => printing >>= showNext str font) rounds
        (.ok ⟨x, y, 0, []⟩)).map fun outcome => outcome.map Printing.sent

/-! ## Places -/

section Place

/-- Where the next character goes: its column and its page. -/
def nextPlace (place : Nat × Nat) : Nat × Nat :=
  if place.1 + 8 > 120 then (0, place.2 + 2) else (place.1 + 8, place.2)

def place (x y k : Nat) : Nat × Nat := nextPlace^[k] (x, y)

variable {x y k : Nat}

theorem place_succ (x y k : Nat) : place x y (k + 1) = nextPlace (place x y k) :=
  Function.iterate_succ_apply' ..

theorem column_place (left : x ≤ 120) : (place x y k).1 ≤ 120 := by
  induction k with
  | zero => exact left
  | succ k inductionHypothesis =>
      rw [place_succ, nextPlace]
      split
      · exact Nat.zero_le _
      · rename_i room
        exact not_lt.mp room

theorem place_of_lt {j : Nat} (before : j < k) :
    (place x y k).2 = (place x y j).2 ∧ (place x y j).1 + 8 ≤ (place x y k).1 ∨
      (place x y j).2 + 2 ≤ (place x y k).2 := by
  induction k with
  | zero => exact absurd before (Nat.not_lt_zero j)
  | succ k inductionHypothesis =>
      have step : nextPlace (place x y k) = (0, (place x y k).2 + 2) ∨
          nextPlace (place x y k) = ((place x y k).1 + 8, (place x y k).2) := by
        rw [nextPlace]
        split
        · exact .inl rfl
        · exact .inr rfl
      rw [place_succ]
      rcases Nat.lt_succ_iff_lt_or_eq.mp before with earlier | rfl
      · have there := inductionHypothesis earlier
        rcases step with broken | right
        · rw [broken]
          omega
        · rw [right]
          omega
      · rcases step with broken | right
        · rw [broken]
          exact .inr le_rfl
        · rw [right]
          exact .inl ⟨rfl, le_rfl⟩

theorem le_place (left : x ≤ 120) : 8 * k ≤ 64 * (place x y k).2 + (place x y k).1 := by
  induction k with
  | zero => exact Nat.zero_le _
  | succ k inductionHypothesis =>
      have inside := column_place (y := y) (k := k) left
      rw [place_succ, nextPlace]
      split
      · simp only
        omega
      · simp only
        omega

/-- On the display there is no room for more than 72 characters. -/
theorem lt_of_row_le (left : x ≤ 120) (visible : (place x y k).2 ≤ 7) : k < 72 := by
  have travelled := le_place (y := y) (k := k) left
  have inside := column_place (y := y) (k := k) left
  omega

end Place

/-! ## Glyphs -/

namespace Font

def count : Font → Nat
  | .FONT6x8 => 92
  | .FONT8x16 => 95

def columns : Font → Nat
  | .FONT6x8 => 6
  | .FONT8x16 => 8

def pages : Font → Nat
  | .FONT6x8 => 1
  | .FONT8x16 => 2

/-- The characters from the space on that have a place in the table. -/
def Knows (font : Font) (ch : UInt8) : Prop := 32 ≤ ch.toNat ∧ ch.toNat < 32 + font.count

instance (font : Font) (ch : UInt8) : Decidable (font.Knows ch) :=
  inferInstanceAs (Decidable (_ ∧ _))

/-- The byte in a page and a column of a glyph. -/
def glyph (font : Font) (ch : UInt8) (page column : Nat) : UInt8 :=
  match font with
  | .FONT6x8 => (F6x8.getD (ch.toNat - 32) []).getD column 0
  | .FONT8x16 => F8X16.getD ((ch.toNat - 32) * 16 + 8 * page + column) 0

def strip (font : Font) (ch : UInt8) (page : Nat) : List UInt8 :=
  (List.range font.columns).map (font.glyph ch page)

end Font

def stripTransfers (x y : UInt8) (bytes : List UInt8) : List (List UInt8) :=
  OledSetPosition x y ++ bytes.map WriteData

def cellTransfers (x y ch : UInt8) (font : Font) : List (List UInt8) :=
  (List.range font.pages).flatMap fun page =>
    stripTransfers x (y + UInt8.ofNat page) (font.strip ch page)

section Glyph

variable {x y ch : UInt8} {font : Font}

theorem toNat_sub_space (known : 32 ≤ ch.toNat) : (ch - 32).toNat = ch.toNat - 32 :=
  UInt8.toNat_sub_of_le ch 32 (UInt8.le_iff_toNat_le.mpr known)

theorem OledShowChar_of_knows (x y : UInt8) (known : font.Knows ch) :
    OledShowChar x y ch font = .ok (cellTransfers x y ch font) := by
  obtain ⟨low, high⟩ := known
  have c := toNat_sub_space low
  cases font with
  | FONT6x8 =>
      have inside : ch.toNat - 32 < F6x8.length := by
        rw [length_F6x8]
        change ch.toNat < 32 + 92 at high
        omega
      have row : F6x8[ch.toNat - 32]? = some (F6x8.getD (ch.toNat - 32) []) := by
        rw [List.getElem?_eq_getElem inside, ← List.getElem_eq_getD (h := inside) []]
      have complete : (F6x8.getD (ch.toNat - 32) []).length = 6 :=
        length_of_mem_F6x8 (List.mem_of_getElem? row)
      have read : readBytes (entryF6x8 (ch - 32).toNat) 6 = .ok (Font.FONT6x8.strip ch 0) := by
        apply readBytes_eq_ok
        intro i narrow
        rw [entryF6x8, c, row]
        exact listSource_eq _ (complete.symm ▸ narrow)
      simp only [OledShowChar, read, ok_bind]
      simp [cellTransfers, stripTransfers, Font.pages]
  | FONT8x16 =>
      have read : ∀ page < 2, readBytes (fun i =>
          listSource Table.F8X16 F8X16 ((ch.toNat - 32) * 16 + 8 * page + i)) 8 =
            .ok (Font.FONT8x16.strip ch page) := by
        intro page half
        apply readBytes_eq_ok
        intro i narrow
        apply listSource_eq
        rw [length_F8X16]
        change ch.toNat < 32 + 95 at high
        omega
      have upper : readBytes (fun i => listSource Table.F8X16 F8X16 ((ch.toNat - 32) * 16 + i)) 8 =
          .ok (Font.FONT8x16.strip ch 0) := read 0 (by decide)
      have lower : readBytes (fun i =>
          listSource Table.F8X16 F8X16 ((ch.toNat - 32) * 16 + 8 + i)) 8 =
            .ok (Font.FONT8x16.strip ch 1) := read 1 (by decide)
      simp only [OledShowChar, c, upper, lower, ok_bind]
      simp [cellTransfers, stripTransfers, Font.pages, List.range_succ]

theorem knows_of_OledShowChar {transfers : List (List UInt8)}
    (shown : OledShowChar x y ch font = .ok transfers) : font.Knows ch := by
  have inside : (ch - 32).toNat < font.count := by
    cases font with
    | FONT6x8 =>
        simp only [OledShowChar, bind_eq_ok_iff] at shown
        obtain ⟨columns, read, -⟩ := shown
        obtain ⟨byte, present⟩ := readable_of_readBytes read 0 (by decide)
        rw [entryF6x8] at present
        split at present
        · rename_i row found
          have bound := (List.getElem?_eq_some_iff.mp found).1
          rwa [length_F6x8] at bound
        · cases present
    | FONT8x16 =>
        simp only [OledShowChar, bind_eq_ok_iff] at shown
        obtain ⟨upper, read, -⟩ := shown
        obtain ⟨byte, present⟩ := readable_of_readBytes read 0 (by decide)
        have bound := lt_of_listSource present
        rw [length_F8X16] at bound
        change (ch - 32).toNat < 95
        omega
  have small : font.count ≤ 95 := by cases font <;> decide
  have low : 32 ≤ ch.toNat := by
    have difference : (ch - 32).toNat = (256 - 32 + ch.toNat) % 256 := UInt8.toNat_sub ..
    have bound := ch.toNat_lt
    omega
  rw [toNat_sub_space low] at inside
  exact ⟨low, by omega⟩

end Glyph

/-! ## The loop -/

section Loop

/-- The state in front of round `k`. -/
def printed (x y : UInt8) (text : List UInt8) (font : Font) (k : Nat) : Printing where
  x := UInt8.ofNat (place x.toNat y.toNat k).1
  y := UInt8.ofNat (place x.toNat y.toNat k).2
  j := UInt8.ofNat k
  sent := (List.range k).flatMap fun i =>
    cellTransfers (UInt8.ofNat (place x.toNat y.toNat i).1) (UInt8.ofNat (place x.toNat y.toNat i).2)
      (text.getD (i % 256) 0) font

variable {x y : UInt8} {str : Text} {font : Font} {k : Nat}

theorem charAt_of_lt {j : UInt8} (inside : j.toNat < str.val.length) :
    charAt str j = .ok (str.val.getD j.toNat 0) := by
  rw [charAt, listSource_eq _ (by rw [List.length_append]; omega), List.getD_append _ _ _ _ inside]

theorem charAt_end {j : UInt8} (behind : j.toNat = str.val.length) : charAt str j = .ok 0 := by
  rw [charAt, listSource_eq _ (by rw [List.length_append, List.length_singleton]; omega), behind]
  simp

theorem getD_ne_zero {j : Nat} (inside : j < str.val.length) : str.val.getD j 0 ≠ 0 := by
  intro zero
  have listed : str.val[j] ∈ str.val := List.getElem_mem inside
  rw [List.getElem_eq_getD (h := inside) 0, zero] at listed
  exact str.property listed

theorem printed_zero (x y : UInt8) (text : List UInt8) (font : Font) :
    printed x y text font 0 = ⟨x, y, 0, []⟩ := by
  simp [printed, place]

theorem showNext_printed (left : x.toNat ≤ 120) (inside : k % 256 < str.val.length)
    (known : font.Knows (str.val.getD (k % 256) 0)) :
    showNext str font (printed x y str.val font k) = .ok (printed x y str.val font (k + 1)) := by
  have index : (UInt8.ofNat k).toNat = k % 256 := UInt8.toNat_ofNat'
  have read : charAt str (UInt8.ofNat k) = .ok (str.val.getD (k % 256) 0) := by
    rw [charAt_of_lt (by rwa [index]), index]
  have bound := column_place (y := y.toNat) (k := k) left
  have moved : (UInt8.ofNat (place x.toNat y.toNat k).1 + 8).toNat =
      (place x.toNat y.toNat k).1 + 8 := by
    rw [UInt8.toNat_add, UInt8.toNat_ofNat']
    change ((place x.toNat y.toNat k).1 % 256 + 8) % 256 = _
    omega
  have edge : UInt8.ofNat (place x.toNat y.toNat k).1 + 8 > 120 ↔
      (place x.toNat y.toNat k).1 + 8 > 120 := by
    rw [gt_iff_lt, UInt8.lt_iff_toNat_lt, moved]
    rfl
  simp only [showNext, printed, read, OledShowChar_of_knows _ _ known, ok_bind, place_succ,
    nextPlace, List.range_succ, List.flatMap_append, List.flatMap_singleton]
  by_cases broken : (place x.toNat y.toNat k).1 + 8 > 120
  · simp [edge, broken]
  · simp [edge, broken]

theorem iterate_showNext (left : x.toNat ≤ 120)
    (reads : ∀ i < k, i % 256 < str.val.length ∧ font.Knows (str.val.getD (i % 256) 0)) :
    (fun printing => printing >>= showNext str font)^[k] (.ok ⟨x, y, 0, []⟩) =
      .ok (printed x y str.val font k) := by
  induction k with
  | zero => exact congrArg Except.ok (printed_zero x y str.val font).symm
  | succ k inductionHypothesis =>
      have earlier := inductionHypothesis fun i before => reads i (Nat.lt_succ_of_lt before)
      obtain ⟨inside, known⟩ := reads k (Nat.lt_succ_self k)
      rw [Function.iterate_succ_apply', earlier, ok_bind]
      exact showNext_printed left inside known

theorem pending_printed (inside : k % 256 < str.val.length) :
    pending str (.ok (printed x y str.val font k)) = true := by
  have index : (printed x y str.val font k).j.toNat = k % 256 := UInt8.toNat_ofNat'
  rw [pending, charAt_of_lt (by rwa [index]), index]
  exact bne_iff_ne.mpr (getD_ne_zero inside)

theorem pending_end (behind : k % 256 = str.val.length) :
    pending str (.ok (printed x y str.val font k)) = false := by
  have index : (printed x y str.val font k).j.toNat = k % 256 := UInt8.toNat_ofNat'
  rw [pending, charAt_end (index.trans behind)]
  rfl

/-- The characters are in the font, and their cells on the display. -/
def Fits (x y : Nat) (text : List UInt8) (font : Font) : Prop :=
  (∀ ch ∈ text, font.Knows ch) ∧ ∀ k < text.length, (place x y k).2 + font.pages ≤ 8

instance (x y : Nat) (text : List UInt8) (font : Font) : Decidable (Fits x y text font) :=
  @instDecidableAnd _ _ (List.decidableBAll _ _) inferInstance

theorem one_le_pages (font : Font) : 1 ≤ font.pages := by
  cases font <;> decide

theorem Fits.length_lt (left : x.toNat ≤ 120) (fits : Fits x.toNat y.toNat str.val font) :
    str.val.length < 73 := by
  have one := one_le_pages font
  cases length : str.val.length with
  | zero => decide
  | succ last =>
      have visible := fits.2 last (by omega)
      have few := lt_of_row_le (y := y.toNat) (k := last) left (by omega)
      omega

theorem OledShowString_of_fits (left : x.toNat ≤ 120) (fits : Fits x.toNat y.toNat str.val font)
    (rounds : Nat) :
    OledShowString rounds x y (some str) font =
      if str.val.length ≤ rounds then
        some (.ok (printed x y str.val font str.val.length).sent)
      else none := by
  have short := fits.length_lt left
  have reads : ∀ i < str.val.length,
      i % 256 < str.val.length ∧ font.Knows (str.val.getD (i % 256) 0) := by
    intro i inside
    rw [Nat.mod_eq_of_lt (by omega), ← List.getElem_eq_getD (h := inside)]
    exact ⟨inside, fits.1 _ (List.getElem_mem inside)⟩
  have run : ∀ k ≤ str.val.length,
      (fun printing => printing >>= showNext str font)^[k] (.ok ⟨x, y, 0, []⟩) =
        .ok (printed x y str.val font k) :=
    fun k bound => iterate_showNext left fun i before => reads i (before.trans_le bound)
  have ends : pending str ((fun printing => printing >>= showNext str font)^[str.val.length]
      (.ok ⟨x, y, 0, []⟩)) = false := by
    rw [run _ le_rfl]
    exact pending_end (Nat.mod_eq_of_lt (by omega))
  rw [OledShowString, whileLoop_eq (fun k inside => by
    rw [run k inside.le]
    exact pending_printed (reads k inside).1) ends, run _ le_rfl]
  split
  · rfl
  · rfl

/-- The index comes back to the start of a text of 256 characters or more, and
the loop does not end. -/
theorem OledShowString_endless (left : x.toNat ≤ 120) (long : 256 ≤ str.val.length)
    (known : ∀ ch ∈ str.val, font.Knows ch) (rounds : Nat) :
    OledShowString rounds x y (some str) font = none := by
  have reads : ∀ i, i % 256 < str.val.length ∧ font.Knows (str.val.getD (i % 256) 0) := by
    intro i
    have inside : i % 256 < str.val.length := (Nat.mod_lt i (by decide)).trans_le long
    rw [← List.getElem_eq_getD (h := inside)]
    exact ⟨inside, known _ (List.getElem_mem inside)⟩
  have goesOn : ∀ k, pending str ((fun printing => printing >>= showNext str font)^[k]
      (.ok ⟨x, y, 0, []⟩)) = true := by
    intro k
    rw [iterate_showNext left fun i _ => reads i]
    exact pending_printed (reads k).1
  rw [OledShowString, whileLoop_eq_none goesOn, Option.map_none]

end Loop

end WifiIot.Oled
