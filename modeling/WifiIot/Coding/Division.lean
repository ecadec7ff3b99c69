import Mathlib.Algebra.BigOperators.Fin
import Mathlib.Algebra.Polynomial.BigOperators

/-!
# Division by a shift register

A list of coefficients, the highest power first, stands for a polynomial.  A register
that is shifted by one place for every coefficient of a dividend, and from which the
divisor is taken as often as its first place says, holds the remainder in the end; a
register that is multiplied by one root after the other holds the product.
-/

namespace WifiIot.Coding

open Polynomial

universe u

variable {F : Type u}

section Poly

variable [CommRing F]

/-- The polynomial with the given coefficients, the constant one last. -/
noncomputable def poly : List F → F[X]
  | [] => 0
  | first :: rest => C first * X ^ rest.length + poly rest

@[simp]
theorem poly_nil : poly ([] : List F) = 0 := rfl

theorem poly_cons (first : F) (rest : List F) :
    poly (first :: rest) = C first * X ^ rest.length + poly rest := rfl

theorem poly_append (front back : List F) :
    poly (front ++ back) = poly front * X ^ back.length + poly back := by
  induction front with
  | nil => rw [List.nil_append, poly_nil, zero_mul, zero_add]
  | cons first front inductionHypothesis =>
      rw [List.cons_append, poly_cons, poly_cons, inductionHypothesis, List.length_append, pow_add]
      ring

theorem poly_concat (front : List F) (last : F) :
    poly (front ++ [last]) = X * poly front + C last := by
  rw [poly_append, List.length_singleton, poly_cons, List.length_nil, poly_nil]
  ring

@[simp]
theorem poly_replicate_zero (count : Nat) : poly (List.replicate count (0 : F)) = 0 := by
  induction count with
  | zero => rfl
  | succ count inductionHypothesis =>
      rw [List.replicate_succ, poly_cons, inductionHypothesis, C_0, zero_mul, zero_add]

theorem poly_zipWith_sub (factor : F) {first second : List F} (same : first.length = second.length) :
    poly (List.zipWith (fun a b => a - b * factor) first second) =
      poly first - C factor * poly second := by
  induction first generalizing second with
  | nil =>
      obtain rfl := List.eq_nil_of_length_eq_zero same.symm
      simp
  | cons a first inductionHypothesis =>
      obtain ⟨b, second, rfl⟩ := List.exists_cons_of_length_eq_add_one same.symm
      have rest : first.length = second.length := Nat.succ.inj same
      rw [List.zipWith_cons_cons, poly_cons, poly_cons, poly_cons, inductionHypothesis rest,
        List.length_zipWith, rest, Nat.min_self, C_sub, C_mul]
      ring

theorem degree_poly_lt (coefficients : List F) :
    (poly coefficients).degree < coefficients.length := by
  induction coefficients with
  | nil =>
      rw [poly_nil, degree_zero]
      exact WithBot.bot_lt_coe 0
  | cons first rest inductionHypothesis =>
      rw [poly_cons, List.length_cons]
      refine lt_of_le_of_lt (degree_add_le _ _) (max_lt ?_ ?_)
      · refine lt_of_le_of_lt (degree_C_mul_X_pow_le _ _) ?_
        exact_mod_cast Nat.lt_succ_self rest.length
      · refine lt_trans inductionHypothesis ?_
        exact_mod_cast Nat.lt_succ_self rest.length

theorem coeff_poly_cons_length (first : F) (rest : List F) :
    (poly (first :: rest)).coeff rest.length = first := by
  rw [poly_cons, coeff_add, coeff_C_mul_X_pow, if_pos rfl,
    coeff_eq_zero_of_degree_lt (degree_poly_lt rest), add_zero]

theorem eval_poly (coefficients : List F) (x : F) :
    (poly coefficients).eval x =
      ∑ k : Fin coefficients.length, coefficients[k] * x ^ (coefficients.length - 1 - k) := by
  induction coefficients with
  | nil => simp
  | cons first rest inductionHypothesis =>
      rw [poly_cons, eval_add, inductionHypothesis]
      simp only [List.length_cons, Fin.sum_univ_succ]
      congr 1
      · simp
      · refine Finset.sum_congr rfl fun k _ => ?_
        have power : rest.length + 1 - 1 - (k.succ : Nat) = rest.length - 1 - k := by
          rw [Fin.val_succ]
          omega
        simp only [power]
        rfl

end Poly

/-! ## The remainder -/

section Remainder

variable [CommRing F]

def shifted (register : List F) : List F := register.tail ++ [0]

theorem length_shifted {register : List F} (nonempty : register ≠ []) :
    (shifted register).length = register.length := by
  obtain ⟨first, rest, rfl⟩ := List.exists_cons_of_ne_nil nonempty
  simp [shifted]

theorem poly_shifted {register : List F} (nonempty : register ≠ []) :
    poly (shifted register) =
      X * poly register - C (register.headD 0) * X ^ register.length := by
  obtain ⟨first, rest, rfl⟩ := List.exists_cons_of_ne_nil nonempty
  rw [shifted, List.tail_cons, poly_concat, poly_cons, List.headD_cons, List.length_cons, C_0]
  ring

/-- The next coefficient comes in and the divisor is taken off. -/
def divideStep (divisor register : List F) (value : F) : List F :=
  List.zipWith (fun a b => a - b * (value + register.headD 0)) (shifted register) divisor

def remainder (divisor coefficients : List F) : List F :=
  coefficients.foldl (divideStep divisor) (List.replicate divisor.length 0)

noncomputable def monic (divisor : List F) : F[X] := X ^ divisor.length + poly divisor

variable {divisor : List F}

theorem length_divideStep (nonempty : divisor ≠ []) {register : List F}
    (same : register.length = divisor.length) (value : F) :
    (divideStep divisor register value).length = divisor.length := by
  have filled : register ≠ [] := by
    rintro rfl
    exact nonempty (List.eq_nil_of_length_eq_zero same.symm)
  rw [divideStep, List.length_zipWith, length_shifted filled, same, Nat.min_self]

theorem poly_divideStep (nonempty : divisor ≠ []) {register : List F}
    (same : register.length = divisor.length) (value : F) :
    poly (divideStep divisor register value) =
      X * poly register + C value * X ^ divisor.length -
        C (value + register.headD 0) * monic divisor := by
  have filled : register ≠ [] := by
    rintro rfl
    exact nonempty (List.eq_nil_of_length_eq_zero same.symm)
  have lengths : (shifted register).length = divisor.length :=
    (length_shifted filled).trans same
  rw [divideStep, poly_zipWith_sub _ lengths, poly_shifted filled, monic, same, C_add]
  ring

theorem length_foldl_divideStep (nonempty : divisor ≠ []) (coefficients : List F) {register : List F}
    (same : register.length = divisor.length) :
    (coefficients.foldl (divideStep divisor) register).length = divisor.length := by
  induction coefficients generalizing register with
  | nil => exact same
  | cons value coefficients inductionHypothesis =>
      exact inductionHypothesis (length_divideStep nonempty same value)

theorem length_remainder (nonempty : divisor ≠ []) (coefficients : List F) :
    (remainder divisor coefficients).length = divisor.length :=
  length_foldl_divideStep nonempty coefficients List.length_replicate

/-- What the register holds is what has come in, up to multiples of the divisor. -/
theorem monic_dvd_foldl_divideStep (nonempty : divisor ≠ []) (coefficients : List F)
    {register : List F} (same : register.length = divisor.length) :
    monic divisor ∣
      poly register * X ^ coefficients.length + poly coefficients * X ^ divisor.length -
        poly (coefficients.foldl (divideStep divisor) register) := by
  induction coefficients generalizing register with
  | nil => simp
  | cons value coefficients inductionHypothesis =>
      have later := inductionHypothesis (length_divideStep nonempty same value)
      have split : poly register * X ^ (value :: coefficients).length +
            poly (value :: coefficients) * X ^ divisor.length -
            poly ((value :: coefficients).foldl (divideStep divisor) register) =
          (poly (divideStep divisor register value) * X ^ coefficients.length +
              poly coefficients * X ^ divisor.length -
              poly (coefficients.foldl (divideStep divisor) (divideStep divisor register value))) +
            C (value + register.headD 0) * X ^ coefficients.length * monic divisor := by
        rw [poly_divideStep nonempty same, poly_cons, List.length_cons, List.foldl_cons, pow_succ]
        ring
      rw [split]
      exact dvd_add later (dvd_mul_left _ _)

/-- The coefficients with the negative of the remainder behind them are a multiple of the divisor. -/
theorem monic_dvd_append (nonempty : divisor ≠ []) (coefficients : List F) :
    monic divisor ∣ poly coefficients * X ^ divisor.length - poly (remainder divisor coefficients) := by
  have whole := monic_dvd_foldl_divideStep nonempty coefficients
    (List.length_replicate (n := divisor.length) (a := (0 : F)))
  rwa [poly_replicate_zero, zero_mul, zero_add] at whole

end Remainder

/-! ## The product -/

section Product

variable [CommRing F]

/-- The register times `X - root`, without the power that leaves it. -/
def timesRoot (register : List F) (root : F) : List F :=
  List.zipWith (fun a b => a - b * root) (shifted register) register

theorem length_timesRoot {register : List F} (nonempty : register ≠ []) (root : F) :
    (timesRoot register root).length = register.length := by
  rw [timesRoot, List.length_zipWith, length_shifted nonempty, Nat.min_self]

theorem poly_timesRoot {register : List F} (nonempty : register ≠ []) (root : F) :
    poly (timesRoot register root) = (X - C root) * poly register -
      C (register.headD 0) * X ^ register.length := by
  rw [timesRoot, poly_zipWith_sub _ (length_shifted nonempty), poly_shifted nonempty]
  ring

def unit (degree : Nat) : List F := List.replicate (degree - 1) 0 ++ [1]

theorem length_unit {degree : Nat} (positive : 0 < degree) : (unit degree : List F).length = degree := by
  rw [unit, List.length_append, List.length_replicate, List.length_singleton]
  omega

theorem poly_unit (degree : Nat) : poly (unit degree : List F) = 1 := by
  rw [unit, poly_concat, poly_replicate_zero, mul_zero, zero_add, C_1]

theorem headD_eq_coeff {register : List F} (nonempty : register ≠ []) :
    register.headD 0 = (poly register).coeff (register.length - 1) := by
  obtain ⟨first, rest, rfl⟩ := List.exists_cons_of_ne_nil nonempty
  rw [List.headD_cons, List.length_cons, Nat.add_sub_cancel, coeff_poly_cons_length]

noncomputable def rootProduct (roots : List F) : F[X] := (roots.map fun root => X - C root).prod

theorem rootProduct_cons (root : F) (roots : List F) :
    rootProduct (root :: roots) = (X - C root) * rootProduct roots := by
  rw [rootProduct, List.map_cons, List.prod_cons, ← rootProduct]

theorem monic_rootProduct (roots : List F) : (rootProduct roots).Monic := by
  induction roots with
  | nil => exact monic_one
  | cons root roots inductionHypothesis =>
      rw [rootProduct_cons]
      exact (monic_X_sub_C root).mul inductionHypothesis

theorem natDegree_rootProduct [Nontrivial F] (roots : List F) :
    (rootProduct roots).natDegree = roots.length := by
  induction roots with
  | nil => exact natDegree_one
  | cons root roots inductionHypothesis =>
      rw [rootProduct_cons, (monic_X_sub_C root).natDegree_mul (monic_rootProduct roots),
        natDegree_X_sub_C, inductionHypothesis, List.length_cons, Nat.add_comm]

theorem length_foldl_timesRoot (roots : List F) {register : List F} (nonempty : register ≠ []) :
    (roots.foldl timesRoot register).length = register.length := by
  induction roots generalizing register with
  | nil => rfl
  | cons root roots inductionHypothesis =>
      have same := length_timesRoot nonempty root
      have filled : timesRoot register root ≠ [] := by
        intro empty
        rw [empty] at same
        exact nonempty (List.eq_nil_of_length_eq_zero same.symm)
      exact (inductionHypothesis filled).trans same

/-- As long as the roots are fewer than the places, nothing leaves the register. -/
theorem poly_foldl_timesRoot [Nontrivial F] (roots : List F) {degree : Nat}
    (few : roots.length < degree) :
    poly (roots.foldl timesRoot (unit degree)) = rootProduct roots := by
  induction roots using List.reverseRecOn with
  | nil => exact poly_unit degree
  | append_singleton roots root inductionHypothesis =>
      have less : roots.length + 1 < degree := by
        rwa [List.length_append, List.length_singleton] at few
      have product := inductionHypothesis (by omega)
      have length : (roots.foldl timesRoot (unit degree)).length = degree := by
        have filled : (unit degree : List F) ≠ [] := by simp [unit]
        rw [length_foldl_timesRoot roots filled, length_unit (by omega)]
      have filled : roots.foldl timesRoot (unit degree) ≠ [] := by
        rintro empty
        rw [empty, List.length_nil] at length
        omega
      have zero : (roots.foldl timesRoot (unit degree)).headD 0 = 0 := by
        rw [headD_eq_coeff filled, product, length]
        refine coeff_eq_zero_of_natDegree_lt ?_
        rw [natDegree_rootProduct]
        omega
      rw [List.foldl_append, List.foldl_cons, List.foldl_nil, poly_timesRoot filled, zero, product,
        C_0, zero_mul, sub_zero, rootProduct, rootProduct, List.map_append, List.prod_append,
        List.map_singleton, List.prod_singleton, mul_comm]

theorem monic_foldl_timesRoot [Nontrivial F] {roots : List F} (nonempty : roots ≠ []) :
    monic (roots.foldl timesRoot (unit roots.length)) = rootProduct roots := by
  obtain ⟨front, last, rfl⟩ := (List.eq_nil_or_concat roots).resolve_left nonempty
  rw [List.concat_eq_append, List.length_append, List.length_singleton]
  have product := poly_foldl_timesRoot front (Nat.lt_succ_self front.length)
  have unitFilled : (unit (front.length + 1) : List F) ≠ [] := by simp [unit]
  have length : (front.foldl timesRoot (unit (front.length + 1))).length = front.length + 1 := by
    rw [length_foldl_timesRoot front unitFilled, length_unit (Nat.succ_pos _)]
  have filled : front.foldl timesRoot (unit (front.length + 1)) ≠ [] := by
    rintro empty
    rw [empty, List.length_nil] at length
    omega
  have leading : (front.foldl timesRoot (unit (front.length + 1))).headD 0 = 1 := by
    rw [headD_eq_coeff filled, product, length, Nat.add_sub_cancel, ← natDegree_rootProduct front]
    exact monic_rootProduct front
  rw [List.foldl_append, List.foldl_cons, List.foldl_nil, monic, length_timesRoot filled,
    poly_timesRoot filled, leading, product, length, rootProduct, rootProduct, List.map_append,
    List.prod_append, List.map_singleton, List.prod_singleton, C_1]
  ring

theorem eval_rootProduct {roots : List F} {root : F} (mem : root ∈ roots) :
    (rootProduct roots).eval root = 0 := by
  rw [rootProduct, eval_list_prod, List.map_map]
  refine List.prod_eq_zero (List.mem_map.mpr ⟨root, mem, ?_⟩)
  simp

end Product

end WifiIot.Coding
