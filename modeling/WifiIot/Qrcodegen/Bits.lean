import WifiIot.Coding.Groups
import WifiIot.Qrcodegen.Buffer
import WifiIot.Qrcodegen.Field

/-!
# Bits behind each other

`appendBitsToBuffer` puts the bits of a number behind those that a buffer holds.  Where
the buffer was cleared, what it holds in the end is the concatenation.

Source: `qrcode_gen/src/qrcodegen.c`.
-/

namespace WifiIot.Qrcodegen

open Coding Memory Raster

structure BitBuffer where
  buffer : List UInt8
  bitLen : Nat
  deriving DecidableEq

/-- One round of the loop, for the bit `(val >> i) & 1`. -/
def appendBit (name : Buffer) (val : Nat) (state : BitBuffer) (i : Nat) : Run BitBuffer := do
  let byte ← load name state.buffer (state.bitLen >>> 3)
  let buffer ← store name state.buffer (state.bitLen >>> 3)
    (byte ||| UInt8.ofNat (((val >>> i) &&& 1) <<< (7 - (state.bitLen &&& 7))))
  .ok ⟨buffer, state.bitLen + 1⟩

def appendBitsToBuffer (name : Buffer) (val numBits : Nat) (state : BitBuffer) : Run BitBuffer :=
  (List.range numBits).reverse.foldlM (appendBit name val) state

/-! ## Buffers as bits -/

/-- A bit of a buffer, counted from the highest one of each byte. -/
def bitAt (bytes : List UInt8) (k : Nat) : Bool := (byteAt bytes (k / 8)).toNat.testBit (7 - k % 8)

def bytesBits (bytes : List UInt8) : List Bool := bytes.flatMap bitsOf

theorem bitsOf_eq_valueBits (byte : UInt8) : bitsOf byte = valueBits byte.toNat 8 := rfl

theorem length_bytesBits (bytes : List UInt8) : (bytesBits bytes).length = 8 * bytes.length := by
  rw [bytesBits, List.length_flatMap]
  have eight : bytes.map (fun byte => (bitsOf byte).length) = bytes.map fun _ => 8 := rfl
  rw [eight, List.map_const', List.sum_replicate, smul_eq_mul, Nat.mul_comm]

theorem getElem?_bytesBits (bytes : List UInt8) {k : Nat} (inside : k < 8 * bytes.length) :
    (bytesBits bytes)[k]? = some (bitAt bytes k) := by
  induction bytes generalizing k with
  | nil => exact absurd inside (Nat.not_lt_zero k)
  | cons byte bytes inductionHypothesis =>
      have split : bytesBits (byte :: bytes) = bitsOf byte ++ bytesBits bytes := rfl
      have eight : (bitsOf byte).length = 8 := rfl
      rw [split]
      by_cases first : k < 8
      · rw [List.getElem?_append_left (by rwa [eight]), bitAt, Nat.div_eq_of_lt first,
          Nat.mod_eq_of_lt first, bitsOf, List.getElem?_map]
        have place : ∀ k < 8, [7, 6, 5, 4, 3, 2, 1, 0][k]? = some (7 - k) := by decide
        rw [place k first]
        rfl
      · rw [List.length_cons] at inside
        rw [List.getElem?_append_right (by rw [eight]; omega), eight,
          inductionHypothesis (by omega)]
        obtain ⟨k, rfl⟩ := Nat.exists_eq_add_of_le (not_lt.mp first)
        have quotient : (8 + k) / 8 = k / 8 + 1 := by omega
        have rest : (8 + k) % 8 = k % 8 := by omega
        rw [Nat.add_sub_cancel_left, bitAt, bitAt, quotient, rest]
        rfl

theorem bytesBits_eq_map (bytes : List UInt8) :
    bytesBits bytes = (List.range (8 * bytes.length)).map (bitAt bytes) := by
  refine List.ext_getElem? fun k => ?_
  by_cases inside : k < 8 * bytes.length
  · rw [getElem?_bytesBits bytes inside, List.getElem?_map, List.getElem?_range inside]
    rfl
  · rw [List.getElem?_eq_none (by rw [length_bytesBits]; omega),
      List.getElem?_eq_none (by rw [List.length_map, List.length_range]; omega)]

def bytesOf (count : Nat) (bits : List Bool) : List UInt8 :=
  (List.range count).map fun k => UInt8.ofNat (toValue ((bits.drop (8 * k)).take 8))

theorem bytesOf_bytesBits (bytes : List UInt8) (behind : List Bool) :
    bytesOf bytes.length (bytesBits bytes ++ behind) = bytes := by
  induction bytes with
  | nil => rfl
  | cons byte bytes inductionHypothesis =>
      have eight : (bitsOf byte).length = 8 := rfl
      have split : bytesBits (byte :: bytes) ++ behind = bitsOf byte ++ (bytesBits bytes ++ behind) :=
        List.append_assoc _ _ _
      have first : UInt8.ofNat (toValue (bitsOf byte)) = byte := by
        rw [bitsOf_eq_valueBits, toValue_valueBits byte.toNat_lt, UInt8.ofNat_toNat]
      rw [bytesOf] at inductionHypothesis
      rw [bytesOf, List.length_cons, List.range_succ_eq_map, List.map_cons, List.map_map, split,
        Nat.mul_zero, List.drop_zero, List.take_left' eight, first]
      refine congrArg _ (Eq.trans (List.map_congr_left fun k _ => ?_) inductionHypothesis)
      rw [Function.comp_apply, Nat.mul_succ, Nat.add_comm, ← List.drop_drop, List.drop_left' eight]

/-! ## One bit -/

section Append

variable {name : Buffer} {bytes : List UInt8} {cleared : Nat} {bits : List Bool}

theorem bitAt_set {k : Nat} (inside : k / 8 < bytes.length) (val i : Nat) :
    bitAt (bytes.set (k / 8)
        (byteAt bytes (k / 8) ||| UInt8.ofNat (((val >>> i) &&& 1) <<< (7 - k % 8)))) =
      Function.update (bitAt bytes) k (bitAt bytes k || val.testBit i) := by
  have bit : (val >>> i) &&& 1 = (val.testBit i).toNat := by
    change val >>> i &&& (2 ^ 1 - 1) = _
    rw [Nat.and_two_pow_sub_one_eq_mod, Nat.shiftRight_eq_div_pow, Nat.toNat_testBit]
  have shifted : (UInt8.ofNat ((val.testBit i).toNat <<< (7 - k % 8))).toNat =
      (val.testBit i).toNat <<< (7 - k % 8) := by
    have small : ∀ p < 8, ∀ b : Bool, b.toNat <<< (7 - p) < 256 := by decide
    rw [UInt8.toNat_ofNat']
    exact Nat.mod_eq_of_lt (small _ (Nat.mod_lt _ (by decide)) _)
  funext j
  rw [bitAt, byteAt_set inside]
  by_cases same : j = k
  · subst same
    rw [Function.update_self, Function.update_self, bit, UInt8.toNat_or, Nat.testBit_or, shifted, bitAt,
      Nat.testBit_shiftLeft, Nat.sub_self]
    cases val.testBit i <;> simp
  · rw [Function.update_of_ne same, bitAt]
    by_cases place : j / 8 = k / 8
    · rw [place, Function.update_self, bit, UInt8.toNat_or, Nat.testBit_or, shifted,
        Nat.testBit_shiftLeft]
      have other : j % 8 ≠ k % 8 := by omega
      have clear : (decide (7 - j % 8 ≥ 7 - k % 8) &&
          (val.testBit i).toNat.testBit (7 - j % 8 - (7 - k % 8))) = false := by
        by_cases above : 7 - j % 8 ≥ 7 - k % 8
        · have positive : 7 - j % 8 - (7 - k % 8) ≠ 0 := by omega
          obtain ⟨p, shape⟩ := Nat.exists_eq_add_one_of_ne_zero positive
          rw [shape]
          cases val.testBit i <;> simp [Nat.testBit_succ]
        · simp [above]
      rw [clear, Bool.or_false]
    · rw [Function.update_of_ne place]

/-- A buffer holds bits, and what is cleared behind them is clear. -/
structure Packed (bytes : List UInt8) (bits : List Bool) (cleared : Nat) : Prop where
  inside : cleared ≤ bytes.length
  fits : bits.length ≤ 8 * cleared
  holds : ∀ k, bits[k]? = if k < bits.length then some (bitAt bytes k) else none
  clear : ∀ k, bits.length ≤ k → k < 8 * cleared → bitAt bytes k = false

theorem appendBit_eq (packed : Packed bytes bits cleared) (room : bits.length < 8 * cleared)
    (val i : Nat) : ∃ stored, appendBit name val ⟨bytes, bits.length⟩ i =
        .ok ⟨stored, bits.length + 1⟩ ∧ Packed stored (bits ++ [val.testBit i]) cleared ∧
      stored.length = bytes.length ∧ ∀ k, cleared ≤ k → byteAt stored k = byteAt bytes k := by
  have whole := packed.inside
  have inside : bits.length / 8 < bytes.length := by omega
  have quotient : bits.length >>> 3 = bits.length / 8 := Nat.shiftRight_eq_div_pow _ 3
  have rest : bits.length &&& 7 = bits.length % 8 := Nat.and_two_pow_sub_one_eq_mod _ 3
  let place := bits.length / 8
  let byte := byteAt bytes place ||| UInt8.ofNat (((val >>> i) &&& 1) <<< (7 - bits.length % 8))
  have set : bitAt (bytes.set place byte) = Function.update (bitAt bytes) bits.length
      (bitAt bytes bits.length || val.testBit i) := bitAt_set inside val i
  refine ⟨bytes.set place byte, ?_, ⟨?_, ?_, ?_, ?_⟩, List.length_set, ?_⟩
  · rw [appendBit]
    simp only [quotient, rest]
    rw [load_eq inside, run_ok_bind]
    exact congrArg (· >>= _) (store_eq inside _)
  · rwa [List.length_set]
  · rw [List.length_append, List.length_singleton]
    exact room
  · intro k
    rw [set, List.length_append, List.length_singleton]
    by_cases old : k < bits.length
    · rw [List.getElem?_append_left old, packed.holds, if_pos old, if_pos (by omega),
        Function.update_of_ne (Nat.ne_of_lt old)]
    · rw [List.getElem?_append_right (not_lt.mp old)]
      by_cases new : k = bits.length
      · subst new
        rw [Nat.sub_self, Function.update_self, packed.clear _ (le_refl _) room, if_pos (by omega)]
        rfl
      · rw [if_neg (by omega), List.getElem?_eq_none (by rw [List.length_singleton]; omega)]
  · intro k behind below
    rw [List.length_append, List.length_singleton] at behind
    rw [set, Function.update_of_ne (by omega)]
    exact packed.clear k (by omega) below
  · intro k behind
    rw [byteAt_set inside, Function.update_of_ne (by omega)]

theorem appendBitsToBuffer_eq (packed : Packed bytes bits cleared) (val numBits : Nat)
    (room : bits.length + numBits ≤ 8 * cleared) :
    ∃ stored, appendBitsToBuffer name val numBits ⟨bytes, bits.length⟩ =
        .ok ⟨stored, bits.length + numBits⟩ ∧ Packed stored (bits ++ valueBits val numBits) cleared ∧
      stored.length = bytes.length ∧ ∀ k, cleared ≤ k → byteAt stored k = byteAt bytes k := by
  induction numBits generalizing bytes bits with
  | zero => exact ⟨bytes, rfl, by rwa [show valueBits val 0 = [] from rfl, List.append_nil], rfl,
      fun _ _ => rfl⟩
  | succ numBits inductionHypothesis =>
      obtain ⟨first, runs, packedFirst, sameFirst, behindFirst⟩ :=
        @appendBit_eq name _ _ _ packed (by omega) val numBits
      obtain ⟨stored, others, packedAll, same, behind⟩ := inductionHypothesis packedFirst
        (by rw [List.length_append, List.length_singleton]; omega)
      rw [List.length_append, List.length_singleton] at others
      refine ⟨stored, ?_, ?_, same.trans sameFirst, fun k far => (behind k far).trans (behindFirst k far)⟩
      · rw [appendBitsToBuffer] at others ⊢
        rw [List.range_succ, List.reverse_append, List.reverse_singleton, List.singleton_append,
          List.foldlM_cons, runs, run_ok_bind, others, Nat.add_right_comm, Nat.add_assoc]
      · rwa [valueBits_succ, List.append_cons]

theorem Packed.bytesBits_take (packed : Packed bytes bits cleared) {count : Nat}
    (length : bits.length = 8 * count) : bytesBits (bytes.take count) = bits := by
  have fits := packed.fits
  have inside := packed.inside
  have long : (bytes.take count).length = count := by
    rw [List.length_take]
    omega
  refine List.ext_getElem? fun k => ?_
  rw [packed.holds]
  by_cases small : k < bits.length
  · rw [if_pos small, getElem?_bytesBits _ (by rw [long]; omega), bitAt, bitAt, byteAt, byteAt,
      List.getD_eq_getElem?_getD, List.getD_eq_getElem?_getD, List.getElem?_take_of_lt (by omega)]
  · rw [if_neg small, List.getElem?_eq_none (by rw [length_bytesBits, long]; omega)]

theorem packed_replicate (rest : List UInt8) (count : Nat) :
    Packed (List.replicate count 0 ++ rest) [] count := by
  refine ⟨by rw [List.length_append, List.length_replicate]; omega, Nat.zero_le _, fun k => rfl, ?_⟩
  intro k _ small
  have place : k / 8 < (List.replicate count (0 : UInt8)).length := by
    rw [List.length_replicate]
    omega
  rw [bitAt, byteAt, List.getD_eq_getElem?_getD, List.getElem?_append_left place,
    List.getElem?_replicate_of_lt (by omega)]
  exact Nat.zero_testBit _

end Append

end WifiIot.Qrcodegen
