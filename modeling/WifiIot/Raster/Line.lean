import Mathlib.Algebra.Order.Ring.Abs
import Mathlib.Data.Rat.Cast.Order
import Mathlib.Tactic.FieldSimp
import Mathlib.Tactic.Linarith

/-!
# Straight lines on a grid

A line with a major and a minor extent is drawn by one step along the major axis
at a time; the minor axis follows when it has fallen behind by more than half a
step.  `track` is how far it has come, and `Nearest` says that it is never more
than half a step off the ideal line.  All comparisons are multiplied out.
-/

namespace WifiIot.Raster

variable {major minor : Nat}

def follows (major minor steps taken : Nat) : Prop :=
  (2 * taken + 1) * major < 2 * (steps + 1) * minor

instance (major minor steps taken : Nat) : Decidable (follows major minor steps taken) :=
  inferInstanceAs (Decidable (_ < _))

/-- The minor steps taken after a number of major ones. -/
def track (major minor : Nat) : Nat → Nat
  | 0 => 0
  | steps + 1 =>
      if follows major minor steps (track major minor steps) then track major minor steps + 1
      else track major minor steps

theorem track_succ_cases (major minor steps : Nat) :
    track major minor (steps + 1) = track major minor steps ∨
      track major minor (steps + 1) = track major minor steps + 1 := by
  rw [track]
  split
  · exact .inr rfl
  · exact .inl rfl

/-- Within half a step of the ideal line. -/
structure Nearest (major minor steps taken : Nat) : Prop where
  above : 2 * (taken * major) < 2 * (steps * minor) + major
  below : 2 * (steps * minor) ≤ 2 * (taken * major) + major

theorem follows_iff {steps taken : Nat} : follows major minor steps taken ↔
    2 * (taken * major) + major < 2 * (steps * minor) + 2 * minor := by
  have left : (2 * taken + 1) * major = 2 * (taken * major) + major := by
    rw [Nat.add_one_mul (2 * taken), Nat.mul_assoc]
  have right : 2 * (steps + 1) * minor = 2 * (steps * minor) + 2 * minor := by
    rw [Nat.mul_assoc, Nat.add_one_mul steps, Nat.mul_add]
  rw [follows, left, right]

theorem nearest_track (positive : 0 < major) (flat : minor ≤ major) (steps : Nat) :
    Nearest major minor steps (track major minor steps) := by
  induction steps with
  | zero => exact ⟨by simpa [track] using positive, by simp [track]⟩
  | succ steps inductionHypothesis =>
      obtain ⟨above, below⟩ := inductionHypothesis
      have forward : (steps + 1) * minor = steps * minor + minor := Nat.add_one_mul steps minor
      unfold track
      split
      · rename_i followed
        rw [follows_iff] at followed
        have upward := Nat.add_one_mul (track major minor steps) major
        exact ⟨by omega, by omega⟩
      · rename_i stayed
        rw [follows_iff] at stayed
        exact ⟨by omega, by omega⟩

theorem Nearest.advances {steps taken : Nat} (nearest : Nearest major minor steps taken)
    (positive : 0 < major) (flat : minor ≤ major) : follows minor major taken steps := by
  obtain ⟨above, below⟩ := nearest
  rw [follows_iff]
  rcases Nat.lt_or_eq_of_le flat with steep | rfl
  · omega
  · -- on the diagonal both have come equally far
    have behind : steps ≤ taken := by
      by_contra ahead
      have further : (taken + 1) * minor ≤ steps * minor := Nat.mul_le_mul_right minor (not_le.mp ahead)
      rw [Nat.add_one_mul] at further
      omega
    have scaled : steps * minor ≤ taken * minor := Nat.mul_le_mul_right minor behind
    omega

/-- The line stays within its extents and ends at their corner. -/
theorem Nearest.le_minor {steps taken : Nat} (nearest : Nearest major minor steps taken)
    (within : steps ≤ major) : taken ≤ minor := by
  have above := nearest.above
  have scaled : steps * minor ≤ major * minor := Nat.mul_le_mul_right minor within
  by_contra beyond
  have further : (minor + 1) * major ≤ taken * major := Nat.mul_le_mul_right major (not_le.mp beyond)
  rw [Nat.add_one_mul, Nat.mul_comm minor] at further
  omega

theorem Nearest.eq_minor {taken : Nat} (nearest : Nearest major minor major taken)
    (positive : 0 < major) : taken = minor := by
  have below := nearest.below
  have upper := nearest.le_minor le_rfl
  by_contra different
  have short : taken + 1 ≤ minor := Nat.lt_of_le_of_ne upper different
  have further : (taken + 1) * major ≤ minor * major := Nat.mul_le_mul_right major short
  rw [Nat.add_one_mul, Nat.mul_comm minor] at further
  omega

/-- `Nearest` in terms of the slope. -/
theorem Nearest.within_half {steps taken : Nat} (nearest : Nearest major minor steps taken)
    (positive : 0 < major) : |(taken : ℚ) - steps * (minor / major)| ≤ 1 / 2 := by
  have width : (0 : ℚ) < major := by exact_mod_cast positive
  have above : (2 : ℚ) * (taken * major) < 2 * (steps * minor) + major := by
    exact_mod_cast nearest.above
  have below : (2 : ℚ) * (steps * minor) ≤ 2 * (taken * major) + major := by
    exact_mod_cast nearest.below
  have scaled : ((taken : ℚ) - steps * (minor / major)) * major = taken * major - steps * minor := by
    rw [sub_mul, mul_assoc (steps : ℚ), div_mul_cancel₀ _ width.ne']
  rw [abs_le]
  constructor
  · refine le_of_mul_le_mul_right ?_ width
    rw [scaled]
    linarith
  · refine le_of_mul_le_mul_right ?_ width
    rw [scaled]
    linarith

theorem Nearest.within_half_signed {steps taken : Nat} {forward upward : ℚ}
    (nearest : Nearest major minor steps taken) (positive : 0 < major)
    (forwardSign : forward = 1 ∨ forward = -1) (upwardSign : upward = 1 ∨ upward = -1) :
    |upward * taken - forward * steps * (upward * minor / (forward * major))| ≤ 1 / 2 := by
  have near := nearest.within_half positive
  have width : (major : ℚ) ≠ 0 := by exact_mod_cast positive.ne'
  have same : upward * taken - forward * steps * (upward * minor / (forward * major)) =
      upward * (taken - steps * (minor / major)) := by
    rcases forwardSign with rfl | rfl
    · field_simp
    · field_simp
  rw [same, abs_mul]
  rcases upwardSign with rfl | rfl
  · simpa using near
  · simpa using near

end WifiIot.Raster
