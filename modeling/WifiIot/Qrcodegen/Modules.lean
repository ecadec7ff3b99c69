import WifiIot.Memory.Bit
import WifiIot.Qrcodegen.Buffer
import WifiIot.Raster.Rectangle

/-!
# Modules

The first byte of a symbol is its side, and the modules follow, row by row, eight to a
byte with the lowest bit first.

Source: `qrcode_gen/src/qrcodegen.c`.
-/

namespace WifiIot.Qrcodegen

open Memory Raster

def getBit (x i : Nat) : Bool := (x >>> i) &&& 1 ≠ 0

def getModule (name : Buffer) (qrcode : List UInt8) (x y : Nat) : Run Bool := do
  let first ← load name qrcode 0
  let qrsize := first.toNat
  let index := y * qrsize + x
  let byte ← load name qrcode ((index >>> 3) + 1)
  .ok (getBit byte.toNat (index &&& 7))

def setModule (name : Buffer) (qrcode : List UInt8) (x y : Nat) (isBlack : Bool) :
    Run (List UInt8) := do
  let first ← load name qrcode 0
  let qrsize := first.toNat
  let index := y * qrsize + x
  let bitIndex := index &&& 7
  let byteIndex := (index >>> 3) + 1
  let byte ← load name qrcode byteIndex
  store name qrcode byteIndex (if isBlack then byte ||| UInt8.ofNat (1 <<< bitIndex)
    else byte &&& UInt8.ofNat ((1 <<< bitIndex) ^^^ 0xFF))

def setModuleBounded (name : Buffer) (qrcode : List UInt8) (x y : Int) (isBlack : Bool) :
    Run (List UInt8) := do
  let first ← load name qrcode 0
  let qrsize : Int := first.toNat
  if 0 ≤ x ∧ x < qrsize ∧ 0 ≤ y ∧ y < qrsize then setModule name qrcode x.toNat y.toNat isBlack
  else .ok qrcode

/-- `qrcodegen_getSize` -/
def getSize (name : Buffer) (qrcode : List UInt8) : Run Nat := do
  let result ← load name qrcode 0
  .ok result.toNat

/-- `qrcodegen_getModule`, which looks at the side first. -/
def qrcodegen_getModule (qrcode : List UInt8) (x y : Int) : Run Bool := do
  let first ← load .qrcode qrcode 0
  let qrsize : Int := first.toNat
  if 0 ≤ x ∧ x < qrsize ∧ 0 ≤ y ∧ y < qrsize then getModule .qrcode qrcode x.toNat y.toNat
  else .ok false

/-! ## A symbol as a picture -/

/-- `qrcodegen_BUFFER_LEN_FOR_VERSION` for the side of the version. -/
def bufferLen (side : Nat) : Nat := (side * side + 7) / 8 + 1

/-- A buffer with a symbol of the side in it. -/
structure Symbol (qrcode : List UInt8) (side : Nat) : Prop where
  least : 21 ≤ side
  most : side ≤ 177
  room : bufferLen side ≤ qrcode.length
  first : (byteAt qrcode 0).toNat = side

/-- The module in a column and a row, white outside of the symbol. -/
def moduleAt (qrcode : List UInt8) (side : Nat) (point : Nat × Nat) : Bool :=
  if point.1 < side ∧ point.2 < side then
    bit (byteAt qrcode ((point.2 * side + point.1) / 8 + 1)) ((point.2 * side + point.1) % 8)
  else false

section Symbol

variable {name : Buffer} {qrcode : List UInt8} {side x y : Nat}

theorem getBit_eq (k i : Nat) : getBit k i = k.testBit i := by
  rw [getBit]
  change decide (k >>> i &&& (2 ^ 1 - 1) ≠ 0) = _
  rw [Nat.and_two_pow_sub_one_eq_mod, Nat.testBit_eq_decide_div_mod_eq, Nat.shiftRight_eq_div_pow]
  have cases := Nat.mod_two_eq_zero_or_one (k / 2 ^ i)
  rcases cases with even | odd
  · simp [even]
  · simp [odd]

theorem index_lt (inX : x < side) (inY : y < side) : y * side + x < side * side := by
  calc
    y * side + x < y * side + side := Nat.add_lt_add_left inX _
    _ = (y + 1) * side := (Nat.succ_mul _ _).symm
    _ ≤ side * side := Nat.mul_le_mul_right _ inY

theorem Symbol.byte_lt (symbol : Symbol qrcode side) (inX : x < side) (inY : y < side) :
    (y * side + x) / 8 + 1 < qrcode.length := by
  have room := symbol.room
  have inside := index_lt inX inY
  rw [bufferLen] at room
  omega

theorem Symbol.load_first (symbol : Symbol qrcode side) :
    load name qrcode 0 = .ok (byteAt qrcode 0) := by
  have room := symbol.room
  rw [bufferLen] at room
  exact load_eq (by omega)

theorem shiftRight_three (index : Nat) : index >>> 3 = index / 8 := Nat.shiftRight_eq_div_pow _ 3

theorem and_seven (index : Nat) : index &&& 7 = index % 8 := Nat.and_two_pow_sub_one_eq_mod _ 3

theorem getModule_eq (symbol : Symbol qrcode side) (inX : x < side) (inY : y < side) :
    getModule name qrcode x y = .ok (moduleAt qrcode side (x, y)) := by
  rw [getModule, symbol.load_first, run_ok_bind]
  dsimp only
  rw [symbol.first, shiftRight_three, and_seven,
    load_eq (symbol.byte_lt inX inY), run_ok_bind, getBit_eq, moduleAt, if_pos ⟨inX, inY⟩]
  rfl

theorem getSize_eq (symbol : Symbol qrcode side) : getSize name qrcode = .ok side := by
  rw [getSize, symbol.load_first, run_ok_bind, symbol.first]

theorem qrcodegen_getModule_eq (symbol : Symbol qrcode side) (x y : Int) :
    qrcodegen_getModule qrcode x y =
      .ok ((0 ≤ x ∧ 0 ≤ y) && moduleAt qrcode side (x.toNat, y.toNat)) := by
  rw [qrcodegen_getModule, symbol.load_first, run_ok_bind]
  dsimp only
  rw [symbol.first]
  by_cases inside : 0 ≤ x ∧ x < side ∧ 0 ≤ y ∧ y < side
  · rw [if_pos inside, getModule_eq symbol (by omega) (by omega),
      decide_eq_true ⟨inside.1, inside.2.2.1⟩, Bool.true_and]
  · rw [if_neg inside]
    by_cases positive : 0 ≤ x ∧ 0 ≤ y
    · rw [moduleAt, if_neg (by dsimp only; omega), Bool.and_false]
    · rw [decide_eq_false positive, Bool.false_and]

theorem bit_masked (byte : UInt8) {k j : Nat} (small : k < 8) (inside : j < 8) (isBlack : Bool) :
    bit (if isBlack then byte ||| UInt8.ofNat (1 <<< k)
      else byte &&& UInt8.ofNat ((1 <<< k) ^^^ 0xFF)) j =
        if j = k then isBlack else bit byte j := by
  have shift : (UInt8.ofNat k).toNat = k := by
    rw [UInt8.toNat_ofNat']
    omega
  have set : UInt8.ofNat (1 <<< k) = 1 <<< UInt8.ofNat k := by
    have all : ∀ k < 8, UInt8.ofNat (1 <<< k) = 1 <<< UInt8.ofNat k := by decide
    exact all k small
  have clear : UInt8.ofNat ((1 <<< k) ^^^ 0xFF) = ~~~(1 <<< UInt8.ofNat k) := by
    have all : ∀ k < 8, UInt8.ofNat ((1 <<< k) ^^^ 0xFF) = ~~~((1 : UInt8) <<< UInt8.ofNat k) := by decide
    exact all k small
  cases isBlack with
  | true =>
      rw [if_pos rfl, set, bit_set byte (by rwa [shift]), shift]
      by_cases same : j = k
      · simp [same]
      · simp [same, Ne.symm same]
  | false =>
      rw [if_neg Bool.false_ne_true, clear, bit_clear byte (by rwa [shift]) inside, shift]
      by_cases same : j = k
      · simp [same]
      · simp [same, Ne.symm same]

theorem eq_of_index_eq {point : Nat × Nat} (inPoint : point.1 < side) (inX : x < side)
    (same : point.2 * side + point.1 = y * side + x) : point = (x, y) := by
  have column := congrArg (· % side) same
  simp only [Nat.mul_add_mod_self_right, Nat.mod_eq_of_lt inPoint, Nat.mod_eq_of_lt inX] at column
  rw [column] at same
  exact Prod.ext column (Nat.eq_of_mul_eq_mul_right (Nat.zero_lt_of_lt inX) (Nat.add_right_cancel same))

theorem setModule_eq (symbol : Symbol qrcode side) (inX : x < side) (inY : y < side) (isBlack : Bool) :
    ∃ stored, setModule name qrcode x y isBlack = .ok stored ∧ Symbol stored side ∧
      stored.length = qrcode.length ∧
      moduleAt stored side = Function.update (moduleAt qrcode side) (x, y) isBlack := by
  let place := (y * side + x) / 8 + 1
  let byte := byteAt qrcode place
  let value := if isBlack then byte ||| UInt8.ofNat (1 <<< ((y * side + x) % 8))
    else byte &&& UInt8.ofNat ((1 <<< ((y * side + x) % 8)) ^^^ 0xFF)
  have inside : place < qrcode.length := symbol.byte_lt inX inY
  refine ⟨qrcode.set place value, ?_, ⟨symbol.least, symbol.most, ?_, ?_⟩, List.length_set, ?_⟩
  · rw [setModule, symbol.load_first, run_ok_bind]
    dsimp only
    rw [symbol.first, shiftRight_three, and_seven,
      load_eq inside, run_ok_bind]
    exact store_eq inside _
  · rw [List.length_set]
    exact symbol.room
  · rw [byteAt_set inside, Function.update_of_ne (Nat.succ_ne_zero _).symm, symbol.first]
  · funext point
    by_cases inPoint : point.1 < side ∧ point.2 < side
    · rw [moduleAt, if_pos inPoint, byteAt_set inside]
      by_cases here : point = (x, y)
      · subst here
        rw [Function.update_self, Function.update_self,
          bit_masked byte (Nat.mod_lt _ (by decide)) (Nat.mod_lt _ (by decide)), if_pos rfl]
      · rw [Function.update_of_ne here]
        have old : moduleAt qrcode side point = bit (byteAt qrcode
            ((point.2 * side + point.1) / 8 + 1)) ((point.2 * side + point.1) % 8) := if_pos inPoint
        by_cases sameByte : (point.2 * side + point.1) / 8 + 1 = place
        · have otherBit : (point.2 * side + point.1) % 8 ≠ (y * side + x) % 8 := by
            intro sameBit
            refine here (eq_of_index_eq inPoint.1 inX ?_)
            change (point.2 * side + point.1) / 8 + 1 = (y * side + x) / 8 + 1 at sameByte
            omega
          rw [old, sameByte, Function.update_self,
            bit_masked byte (Nat.mod_lt _ (by decide)) (Nat.mod_lt _ (by decide)), if_neg otherBit]
        · rw [old, Function.update_of_ne sameByte]
    · have elsewhere : point ≠ (x, y) := by
        rintro rfl
        exact inPoint ⟨inX, inY⟩
      rw [Function.update_of_ne elsewhere, moduleAt, if_neg inPoint, moduleAt, if_neg inPoint]

/-- The loop bodies that set a module for each of some dots. -/
def draw (name : Buffer) (qrcode : List UInt8) (dots : List ((Nat × Nat) × Bool)) : Run (List UInt8) :=
  dots.foldlM (fun qrcode dot => setModule name qrcode dot.1.1 dot.1.2 dot.2) qrcode

theorem draw_eq (symbol : Symbol qrcode side) {dots : List ((Nat × Nat) × Bool)}
    (inside : ∀ dot ∈ dots, dot.1.1 < side ∧ dot.1.2 < side) :
    ∃ drawn, draw name qrcode dots = .ok drawn ∧ Symbol drawn side ∧ drawn.length = qrcode.length ∧
      moduleAt drawn side = plot (moduleAt qrcode side) dots := by
  induction dots generalizing qrcode with
  | nil => exact ⟨qrcode, rfl, symbol, rfl, rfl⟩
  | cons dot dots inductionHypothesis =>
      obtain ⟨here, later⟩ := List.forall_mem_cons.mp inside
      obtain ⟨stored, sets, symbolStored, same, picture⟩ :=
        @setModule_eq name _ _ _ _ symbol here.1 here.2 dot.2
      obtain ⟨drawn, draws, symbolDrawn, sameDrawn, pictureDrawn⟩ :=
        inductionHypothesis symbolStored later
      refine ⟨drawn, ?_, symbolDrawn, sameDrawn.trans same, ?_⟩
      · rw [draw, List.foldlM_cons, sets]
        exact draws
      · rw [pictureDrawn, picture, plot_cons]

theorem draw_append (first second : List ((Nat × Nat) × Bool)) :
    draw name qrcode (first ++ second) =
      draw name qrcode first >>= fun drawn => draw name drawn second := List.foldlM_append

theorem foldlM_draw {Item : Type} {round : List UInt8 → Item → Run (List UInt8)}
    {dotsOf : Item → List ((Nat × Nat) × Bool)}
    (rounds : ∀ item drawn, round drawn item = draw name drawn (dotsOf item)) (items : List Item) :
    items.foldlM round qrcode = draw name qrcode (items.flatMap dotsOf) := by
  induction items generalizing qrcode with
  | nil => rfl
  | cons item items inductionHypothesis =>
      rw [List.foldlM_cons, rounds, List.flatMap_cons, draw_append]
      exact bind_congr fun drawn => inductionHypothesis

end Symbol

end WifiIot.Qrcodegen
