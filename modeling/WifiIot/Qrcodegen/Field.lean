import Mathlib.Data.Nat.Bitwise
import Mathlib.GroupTheory.OrderOfElement
import Mathlib.Tactic.NormNum.Prime

/-!
# The field of the codewords

`reedSolomonMultiply` multiplies two bytes as polynomials over the field with two
elements, modulo `0x11D`.  The bytes are a field with it, in which the addition is the
exclusive or, and every element other than 0 is a power of 2.

Source: `qrcode_gen/src/qrcodegen.c`.
-/

namespace WifiIot.Qrcodegen

/-- `(z << 1) ^ ((z >> 7) * 0x11D)` -/
def double (z : UInt8) : UInt8 := UInt8.ofNat (z.toNat <<< 1 ^^^ (z.toNat >>> 7) * 0x11D)

def reedSolomonMultiply (x y : UInt8) : UInt8 :=
  [(7 : UInt8), 6, 5, 4, 3, 2, 1, 0].foldl (fun z i => double z ^^^ ((y >>> i) &&& 1) * x) 0

/-! ## The laws of the multiplication -/

theorem forall_byte {property : UInt8 → Prop} (all : ∀ k < 256, property (UInt8.ofNat k))
    (byte : UInt8) : property byte := by
  have this := all byte.toNat byte.toNat_lt
  rwa [UInt8.ofNat_toNat] at this

theorem double_xor (a b : UInt8) : double (a ^^^ b) = double a ^^^ double b := by
  have carry : ∀ p < 2, ∀ q < 2, (p ^^^ q) * 0x11D = p * 0x11D ^^^ q * 0x11D := by decide
  have small : ∀ byte : UInt8, byte.toNat >>> 7 < 2 := by
    intro byte
    have bounded := byte.toNat_lt
    rw [Nat.shiftRight_eq_div_pow]
    omega
  rw [double, double, double, UInt8.toNat_xor, Nat.shiftLeft_xor_distrib, Nat.shiftRight_xor_distrib,
    carry _ (small a) _ (small b), ← UInt8.ofNat_xor]
  congr 1
  rw [Nat.xor_assoc, Nat.xor_assoc, ← Nat.xor_assoc (b.toNat <<< 1), Nat.xor_comm (b.toNat <<< 1),
    Nat.xor_assoc]

def peasant (x : UInt8) (z : UInt8) (bit : Bool) : UInt8 := double z ^^^ if bit then x else 0

def bitsOf (byte : UInt8) : List Bool := [7, 6, 5, 4, 3, 2, 1, 0].map byte.toNat.testBit

theorem reedSolomonMultiply_eq (x y : UInt8) :
    reedSolomonMultiply x y = (bitsOf y).foldl (peasant x) 0 := by
  have masked : ∀ i < 8, ∀ z : UInt8,
      double z ^^^ ((y >>> UInt8.ofNat i) &&& 1) * x = peasant x z (y.toNat.testBit i) := by
    intro i inside z
    have bit : (y >>> UInt8.ofNat i) &&& 1 = if y.toNat.testBit i then 1 else 0 := by
      have shift : (UInt8.ofNat i).toNat % 8 = i := by
        rw [UInt8.toNat_ofNat']
        omega
      rw [← UInt8.toNat_inj, UInt8.toNat_and, UInt8.toNat_shiftRight, shift]
      change y.toNat >>> i &&& (2 ^ 1 - 1) = _
      rw [Nat.and_two_pow_sub_one_eq_mod, Nat.testBit_eq_decide_div_mod_eq, Nat.shiftRight_eq_div_pow]
      rcases Nat.mod_two_eq_zero_or_one (y.toNat / 2 ^ i) with even | odd
      · simp [even]
      · simp [odd]
    rw [bit, peasant]
    cases y.toNat.testBit i with
    | false => simp
    | true => simp
  simp only [reedSolomonMultiply, bitsOf, List.foldl_cons, List.foldl_nil, List.map_cons,
    List.map_nil]
  rw [← masked 7 (by decide), ← masked 6 (by decide), ← masked 5 (by decide), ← masked 4 (by decide),
    ← masked 3 (by decide), ← masked 2 (by decide), ← masked 1 (by decide), ← masked 0 (by decide)]
  rfl

theorem bitsOf_xor (a b : UInt8) : bitsOf (a ^^^ b) = List.zipWith xor (bitsOf a) (bitsOf b) := by
  simp only [bitsOf, UInt8.toNat_xor, Nat.testBit_xor, List.map_cons, List.map_nil,
    List.zipWith_cons_cons, List.zipWith_nil_left]

theorem xor_exchange (a b c d : UInt8) : a ^^^ b ^^^ (c ^^^ d) = a ^^^ c ^^^ (b ^^^ d) := by
  rw [UInt8.xor_assoc, UInt8.xor_assoc, ← UInt8.xor_assoc b, UInt8.xor_comm b c, UInt8.xor_assoc c]

theorem foldl_peasant_bits (x z w : UInt8) {ps qs : List Bool} (same : ps.length = qs.length) :
    (List.zipWith xor ps qs).foldl (peasant x) (z ^^^ w) =
      ps.foldl (peasant x) z ^^^ qs.foldl (peasant x) w := by
  induction ps generalizing qs z w with
  | nil =>
      obtain rfl := List.eq_nil_of_length_eq_zero same.symm
      rfl
  | cons p ps inductionHypothesis =>
      obtain ⟨q, qs, rfl⟩ := List.exists_cons_of_length_eq_add_one same.symm
      have round : peasant x (z ^^^ w) (xor p q) = peasant x z p ^^^ peasant x w q := by
        rw [peasant, peasant, peasant, double_xor, xor_exchange]
        cases p <;> cases q <;> simp
      rw [List.zipWith_cons_cons, List.foldl_cons, round, inductionHypothesis _ _ (Nat.succ.inj same)]
      rfl

theorem foldl_peasant_xor (x y z w : UInt8) (bits : List Bool) :
    bits.foldl (peasant (x ^^^ y)) (z ^^^ w) =
      bits.foldl (peasant x) z ^^^ bits.foldl (peasant y) w := by
  induction bits generalizing z w with
  | nil => rfl
  | cons bit bits inductionHypothesis =>
      have round : peasant (x ^^^ y) (z ^^^ w) bit = peasant x z bit ^^^ peasant y w bit := by
        rw [peasant, peasant, peasant, double_xor, xor_exchange]
        cases bit <;> simp
      rw [List.foldl_cons, round, inductionHypothesis]
      rfl

theorem reedSolomonMultiply_xor (x y z : UInt8) : reedSolomonMultiply x (y ^^^ z) =
    reedSolomonMultiply x y ^^^ reedSolomonMultiply x z := by
  have zero : (0 : UInt8) = 0 ^^^ 0 := rfl
  rw [reedSolomonMultiply_eq, reedSolomonMultiply_eq, reedSolomonMultiply_eq, bitsOf_xor]
  conv_lhs => rw [zero]
  exact foldl_peasant_bits x 0 0 rfl

theorem xor_reedSolomonMultiply (x y z : UInt8) : reedSolomonMultiply (x ^^^ y) z =
    reedSolomonMultiply x z ^^^ reedSolomonMultiply y z := by
  have zero : (0 : UInt8) = 0 ^^^ 0 := rfl
  rw [reedSolomonMultiply_eq, reedSolomonMultiply_eq, reedSolomonMultiply_eq]
  conv_lhs => rw [zero]
  exact foldl_peasant_xor x y 0 0 (bitsOf z)

/-- Every byte is a sum of powers of the indeterminate. -/
theorem byte_induction {property : UInt8 → Prop} (zero : property 0)
    (powers : ∀ k < 8, property (1 <<< UInt8.ofNat k))
    (sum : ∀ a b, property a → property b → property (a ^^^ b)) (byte : UInt8) : property byte := by
  have term : ∀ k < 8, property (if byte.toNat.testBit k then 1 <<< UInt8.ofNat k else 0) := by
    intro k inside
    split
    · exact powers k inside
    · exact zero
  have terms : ∀ ks : List Nat, (∀ k ∈ ks, k < 8) → ∀ start, property start → property
      (ks.foldl (fun z k => z ^^^ if byte.toNat.testBit k then 1 <<< UInt8.ofNat k else 0) start) := by
    intro ks
    induction ks with
    | nil => exact fun _ start holds => holds
    | cons k ks inductionHypothesis =>
        intro inside start holds
        obtain ⟨first, others⟩ := List.forall_mem_cons.mp inside
        exact inductionHypothesis others _ (sum _ _ holds (term k first))
  have whole : ∀ k < 256, (List.range 8).foldl (fun z j =>
      z ^^^ if (UInt8.ofNat k).toNat.testBit j then 1 <<< UInt8.ofNat j else 0) 0 = UInt8.ofNat k := by
    decide +kernel
  have all := terms (List.range 8) (fun k => List.mem_range.mp) 0 zero
  have same := @forall_byte (fun byte => (List.range 8).foldl (fun z j =>
      z ^^^ if byte.toNat.testBit j then 1 <<< UInt8.ofNat j else 0) 0 = byte) whole byte
  rwa [same] at all

theorem reedSolomonMultiply_zero (x : UInt8) : reedSolomonMultiply x 0 = 0 := by
  have self := reedSolomonMultiply_xor x 0 0
  rwa [UInt8.xor_self, UInt8.xor_self] at self

theorem zero_reedSolomonMultiply (x : UInt8) : reedSolomonMultiply 0 x = 0 := by
  have self := xor_reedSolomonMultiply 0 0 x
  rwa [UInt8.xor_self, UInt8.xor_self] at self

/-- Here the modulus comes in. -/
theorem reedSolomonMultiply_double (x y : UInt8) :
    reedSolomonMultiply x (double y) = double (reedSolomonMultiply x y) := by
  have basis : ∀ k < 8, ∀ j < 8,
      reedSolomonMultiply (1 <<< UInt8.ofNat k) (double (1 <<< UInt8.ofNat j)) =
        double (reedSolomonMultiply (1 <<< UInt8.ofNat k) (1 <<< UInt8.ofNat j)) := by
    decide +kernel
  induction y using byte_induction with
  | zero => exact (reedSolomonMultiply_zero x).trans (congrArg double (reedSolomonMultiply_zero x).symm)
  | powers j inside =>
      induction x using byte_induction with
      | zero => rw [zero_reedSolomonMultiply, zero_reedSolomonMultiply]; rfl
      | powers k small => exact basis k small j inside
      | sum a b holdsA holdsB =>
          rw [xor_reedSolomonMultiply, holdsA, holdsB, ← double_xor, ← xor_reedSolomonMultiply]
  | sum a b holdsA holdsB =>
      rw [double_xor, reedSolomonMultiply_xor, holdsA, holdsB, reedSolomonMultiply_xor, double_xor]

theorem double_induction {property : UInt8 → Prop} (zero : property 0) (one : property 1)
    (next : ∀ a, property a → property (double a))
    (sum : ∀ a b, property a → property b → property (a ^^^ b)) (byte : UInt8) : property byte := by
  refine byte_induction zero ?_ sum byte
  intro k inside
  induction k with
  | zero => exact one
  | succ k inductionHypothesis =>
      have step : ∀ k < 7, double (1 <<< UInt8.ofNat k) = 1 <<< UInt8.ofNat (k + 1) := by decide
      rw [← step k (by omega)]
      exact next _ (inductionHypothesis (by omega))

theorem reedSolomonMultiply_one (x : UInt8) : reedSolomonMultiply x 1 = x :=
  @forall_byte (fun x => reedSolomonMultiply x 1 = x) (by decide +kernel) x

theorem one_reedSolomonMultiply (x : UInt8) : reedSolomonMultiply 1 x = x :=
  @forall_byte (fun x => reedSolomonMultiply 1 x = x) (by decide +kernel) x

theorem double_reedSolomonMultiply (x y : UInt8) :
    reedSolomonMultiply (double x) y = double (reedSolomonMultiply x y) := by
  induction y using double_induction with
  | zero => rw [reedSolomonMultiply_zero, reedSolomonMultiply_zero]; rfl
  | one => rw [reedSolomonMultiply_one, reedSolomonMultiply_one]
  | next a holds => rw [reedSolomonMultiply_double, holds, reedSolomonMultiply_double]
  | sum a b holdsA holdsB =>
      rw [reedSolomonMultiply_xor, holdsA, holdsB, reedSolomonMultiply_xor, double_xor]

theorem reedSolomonMultiply_comm (x y : UInt8) :
    reedSolomonMultiply x y = reedSolomonMultiply y x := by
  induction y using double_induction with
  | zero => rw [reedSolomonMultiply_zero, zero_reedSolomonMultiply]
  | one => rw [reedSolomonMultiply_one, one_reedSolomonMultiply]
  | next a holds => rw [reedSolomonMultiply_double, holds, double_reedSolomonMultiply]
  | sum a b holdsA holdsB => rw [reedSolomonMultiply_xor, holdsA, holdsB, xor_reedSolomonMultiply]

theorem reedSolomonMultiply_assoc (x y z : UInt8) :
    reedSolomonMultiply (reedSolomonMultiply x y) z =
      reedSolomonMultiply x (reedSolomonMultiply y z) := by
  induction z using double_induction with
  | zero => rw [reedSolomonMultiply_zero, reedSolomonMultiply_zero, reedSolomonMultiply_zero]
  | one => rw [reedSolomonMultiply_one, reedSolomonMultiply_one]
  | next a holds =>
      rw [reedSolomonMultiply_double, holds, reedSolomonMultiply_double, reedSolomonMultiply_double]
  | sum a b holdsA holdsB =>
      rw [reedSolomonMultiply_xor, holdsA, holdsB, reedSolomonMultiply_xor, reedSolomonMultiply_xor]

/-! ## The field -/

structure Codeword where
  byte : UInt8
  deriving DecidableEq

namespace Codeword

instance : Zero Codeword := ⟨⟨0⟩⟩
instance : One Codeword := ⟨⟨1⟩⟩
instance : Add Codeword := ⟨fun a b => ⟨a.byte ^^^ b.byte⟩⟩
instance : Sub Codeword := ⟨fun a b => ⟨a.byte ^^^ b.byte⟩⟩
instance : Neg Codeword := ⟨id⟩
instance : Mul Codeword := ⟨fun a b => ⟨reedSolomonMultiply a.byte b.byte⟩⟩

instance : CommRing Codeword where
  add_assoc a b c := congrArg mk (UInt8.xor_assoc a.byte b.byte c.byte)
  zero_add a := congrArg mk UInt8.zero_xor
  add_zero a := congrArg mk UInt8.xor_zero
  add_comm a b := congrArg mk (UInt8.xor_comm a.byte b.byte)
  neg_add_cancel a := congrArg mk UInt8.xor_self
  nsmul := nsmulRec
  zsmul := zsmulRec
  left_distrib a b c := congrArg mk (reedSolomonMultiply_xor a.byte b.byte c.byte)
  right_distrib a b c := congrArg mk (xor_reedSolomonMultiply a.byte b.byte c.byte)
  zero_mul a := congrArg mk (zero_reedSolomonMultiply a.byte)
  mul_zero a := congrArg mk (reedSolomonMultiply_zero a.byte)
  mul_assoc a b c := congrArg mk (reedSolomonMultiply_assoc a.byte b.byte c.byte)
  one_mul a := congrArg mk (one_reedSolomonMultiply a.byte)
  mul_one a := congrArg mk (reedSolomonMultiply_one a.byte)
  mul_comm a b := congrArg mk (reedSolomonMultiply_comm a.byte b.byte)

def places : Fin 256 ≃ Codeword where
  toFun k := ⟨UInt8.ofNat k⟩
  invFun a := ⟨a.byte.toNat, a.byte.toNat_lt⟩
  left_inv k := Fin.ext (by simp)
  right_inv a := congrArg mk UInt8.ofNat_toNat

instance : Fintype Codeword := Fintype.ofEquiv _ places

theorem card_codeword : Fintype.card Codeword = 256 :=
  (Fintype.card_congr places.symm).trans (Fintype.card_fin 256)

instance : Nontrivial Codeword := ⟨0, 1, by decide⟩

theorem orderOf_two : orderOf (⟨2⟩ : Codeword) = 255 := by
  refine orderOf_eq_of_pow_and_pow_div_prime (by decide) (by decide +kernel) ?_
  intro p prime divides
  have factors : p ∣ 3 * (5 * 17) := divides
  rw [prime.dvd_mul, prime.dvd_mul, Nat.prime_dvd_prime_iff_eq prime (by norm_num),
    Nat.prime_dvd_prime_iff_eq prime (by norm_num),
    Nat.prime_dvd_prime_iff_eq prime (by norm_num)] at factors
  rcases factors with rfl | rfl | rfl
  · decide +kernel
  · decide +kernel
  · decide +kernel

theorem two_pow_order : (⟨2⟩ : Codeword) ^ 255 = 1 := by
  rw [← orderOf_two]
  exact pow_orderOf_eq_one _

theorem exists_two_pow {a : Codeword} (nonzero : a ≠ 0) : ∃ k < 255, (⟨2⟩ : Codeword) ^ k = a := by
  have injective : Set.InjOn (fun k => (⟨2⟩ : Codeword) ^ k) (Finset.range 255) := by
    intro i inI j inJ same
    rw [Finset.coe_range, ← orderOf_two] at inI inJ
    exact pow_injOn_Iio_orderOf inI inJ same
  have inside : (Finset.range 255).image (fun k => (⟨2⟩ : Codeword) ^ k) ⊆ Finset.univ.erase 0 := by
    intro power mem
    obtain ⟨k, -, rfl⟩ := Finset.mem_image.mp mem
    refine Finset.mem_erase.mpr ⟨fun zero => ?_, Finset.mem_univ _⟩
    have vanishes : ((⟨2⟩ : Codeword) ^ k) ^ 255 = 0 := by
      rw [zero]
      exact zero_pow (by decide)
    rw [pow_right_comm, two_pow_order, one_pow] at vanishes
    exact one_ne_zero vanishes
  have all := Finset.eq_of_subset_of_card_le inside (by
    rw [Finset.card_erase_of_mem (Finset.mem_univ _), Finset.card_univ, card_codeword,
      Finset.card_image_of_injOn injective, Finset.card_range])
  have mem : a ∈ (Finset.range 255).image fun k => (⟨2⟩ : Codeword) ^ k := by
    rw [all]
    exact Finset.mem_erase.mpr ⟨nonzero, Finset.mem_univ a⟩
  obtain ⟨k, small, rfl⟩ := Finset.mem_image.mp mem
  exact ⟨k, Finset.mem_range.mp small, rfl⟩

instance : Inv Codeword := ⟨fun a => a ^ 254⟩

theorem mul_inv (a : Codeword) (nonzero : a ≠ 0) : a * a⁻¹ = 1 := by
  obtain ⟨k, -, rfl⟩ := exists_two_pow nonzero
  change (⟨2⟩ : Codeword) ^ k * ((⟨2⟩ : Codeword) ^ k) ^ 254 = 1
  rw [← pow_succ', pow_right_comm, two_pow_order, one_pow]

instance : Field Codeword where
  exists_pair_ne := ⟨0, 1, by decide⟩
  mul_inv_cancel := mul_inv
  inv_zero := zero_pow (by decide)
  nnqsmul := _
  nnqsmul_def := fun _ _ => rfl
  qsmul := _
  qsmul_def := fun _ _ => rfl

end Codeword

end WifiIot.Qrcodegen
