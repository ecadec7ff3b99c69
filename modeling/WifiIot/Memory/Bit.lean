import Mathlib.Data.Nat.Bitwise

/-!
# Bits of a byte

Setting, clearing and testing one bit with the masks `1 << k` and `0x80 >> k`,
joining fields of bits into a word, and cutting an integer to a byte.
-/

namespace WifiIot.Memory

/-- Bit `k`, counted from the least significant one. -/
def bit (byte : UInt8) (k : Nat) : Bool := byte.toNat.testBit k

section Mask

variable {k : UInt8}

theorem toNat_mask (small : k.toNat < 8) : ((1 : UInt8) <<< k).toNat = 2 ^ k.toNat := by
  have bounded : 2 ^ k.toNat < 2 ^ 8 := Nat.pow_lt_pow_right (by decide) small
  rw [UInt8.toNat_shiftLeft, Nat.mod_eq_of_lt small, Nat.shiftLeft_eq]
  change 1 * 2 ^ k.toNat % 2 ^ 8 = _
  rw [Nat.one_mul, Nat.mod_eq_of_lt bounded]

theorem toNat_high_mask (small : k.toNat < 8) :
    ((0x80 : UInt8) >>> k).toNat = 2 ^ (7 - k.toNat) := by
  have shown : ∀ shift < 8, (128 : Nat) >>> shift = 2 ^ (7 - shift) := by decide
  rw [UInt8.toNat_shiftRight, Nat.mod_eq_of_lt small]
  exact shown k.toNat small

theorem bit_set (byte : UInt8) (small : k.toNat < 8) (j : Nat) :
    bit (byte ||| 1 <<< k) j = (bit byte j || decide (k.toNat = j)) := by
  rw [bit, UInt8.toNat_or, Nat.testBit_or, toNat_mask small, Nat.testBit_two_pow]
  rfl

theorem bit_clear (byte : UInt8) (small : k.toNat < 8) {j : Nat} (inside : j < 8) :
    bit (byte &&& ~~~(1 <<< k)) j = (bit byte j && decide (k.toNat ≠ j)) := by
  have bounded : 2 ^ k.toNat < 2 ^ 8 := Nat.pow_lt_pow_right (by decide) small
  have complement : (~~~((1 : UInt8) <<< k)).toNat = 2 ^ 8 - (2 ^ k.toNat + 1) := by
    rw [UInt8.toNat_not, toNat_mask small, Nat.sub_add_eq, Nat.sub_right_comm]
    rfl
  rw [bit, UInt8.toNat_and, Nat.testBit_and, complement, Nat.testBit_two_pow_sub_succ bounded,
    Nat.testBit_two_pow]
  simp [bit, inside]

theorem and_high_mask_ne_zero (byte : UInt8) (small : k.toNat < 8) :
    byte &&& 0x80 >>> k ≠ 0 ↔ bit byte (7 - k.toNat) = true := by
  have positive : 0 < 2 ^ (7 - k.toNat) := Nat.two_pow_pos _
  rw [ne_eq, ← UInt8.toNat_inj, UInt8.toNat_and, toNat_high_mask small, Nat.and_two_pow]
  change ¬(bit byte (7 - k.toNat)).toNat * 2 ^ (7 - k.toNat) = 0 ↔ _
  cases bit byte (7 - k.toNat) with
  | false => simp
  | true => simp

end Mask

section Field

theorem toNat_shiftLeft_or {high low shift : UInt32} {k : Nat} (width : shift.toNat = k)
    (small : k < 32) (below : low.toNat < 2 ^ k) (room : high.toNat * 2 ^ k < 2 ^ 32) :
    (high <<< shift ||| low).toNat = high.toNat * 2 ^ k + low.toNat := by
  rw [UInt32.toNat_or, UInt32.toNat_shiftLeft, width, Nat.mod_eq_of_lt small]
  rw [Nat.mod_eq_of_lt (by rwa [Nat.shiftLeft_eq]), ← Nat.shiftLeft_add_eq_or_of_lt below,
    Nat.shiftLeft_eq]

theorem toNat_and_low (byte : UInt8) : (byte &&& 0x0F).toNat = byte.toNat % 16 := by
  rw [UInt8.toNat_and]
  exact Nat.and_two_pow_sub_one_eq_mod byte.toNat 4

theorem toNat_and_high (byte : UInt8) : ((byte &&& 0xF0) >>> 4).toNat = byte.toNat / 16 := by
  rw [UInt8.toNat_shiftRight, UInt8.toNat_and]
  change (byte.toNat &&& 0xF0) >>> 4 = _
  rw [Nat.shiftRight_and_distrib, Nat.shiftRight_eq_div_pow]
  change byte.toNat / 16 &&& (2 ^ 4 - 1) = _
  rw [Nat.and_two_pow_sub_one_eq_mod]
  exact Nat.mod_eq_of_lt (Nat.div_lt_of_lt_mul byte.toNat_lt)

theorem toNat_high_or_mark (byte : UInt8) :
    (((byte &&& 0xF0) >>> 4) ||| 0x10).toNat = 16 + byte.toNat / 16 := by
  have small : byte.toNat / 16 < 2 ^ 4 := Nat.div_lt_of_lt_mul byte.toNat_lt
  rw [UInt8.toNat_or, toNat_and_high, Nat.or_comm]
  exact (Nat.two_pow_add_eq_or_of_lt small 1).symm

end Field

theorem shiftLeft_and_high_ne_zero (word : UInt16) {j : Nat} (small : j < 16) :
    word.toUInt32 <<< UInt32.ofNat j &&& 0x8000 ≠ 0 ↔ word.toNat.testBit (15 - j) = true := by
  have shift : (UInt32.ofNat j).toNat % 32 = j := by
    rw [UInt32.toNat_ofNat']
    omega
  have top : (word.toNat <<< j % 2 ^ 32).testBit 15 = word.toNat.testBit (15 - j) := by
    rw [Nat.testBit_mod_two_pow, Nat.testBit_shiftLeft]
    simp [Nat.le_of_lt_succ small]
  have mask : (0x8000 : UInt32).toNat = 2 ^ 15 := rfl
  rw [ne_eq, ← UInt32.toNat_inj, UInt32.toNat_and, UInt32.toNat_shiftLeft, UInt16.toNat_toUInt32,
    shift, mask, Nat.and_two_pow, top]
  cases word.toNat.testBit (15 - j) with
  | false => simp
  | true => simp

theorem toNat_ofInt (value : Int) : ((UInt8.ofInt value).toNat : Int) = value % 256 := by
  rw [UInt8.ofInt, UInt8.toNat_ofNat']
  omega

end WifiIot.Memory
