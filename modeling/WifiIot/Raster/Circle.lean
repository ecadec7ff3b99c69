import Mathlib

/-!
# Circles on a grid

A quarter of a circle is followed from its leftmost place to its lowest.  `NearCircle` says
that a place is off the circle by half a step at most: the square of its distance differs by
no more than its larger coordinate.
-/

namespace WifiIot.Raster

/-- How much the square of the distance from the centre is too large. -/
def excess (radius x y : Int) : Int := x * x + y * y - radius * radius

def NearCircle (radius x y : Int) : Prop := |excess radius x y| ≤ max |x| |y|

section Quarter

variable {radius x y : Int}

theorem excess_right (radius x y : Int) : excess radius (x + 1) y = excess radius x y + (2 * x + 1) := by
  rw [excess, excess]
  ring

theorem excess_down (radius x y : Int) : excess radius x (y + 1) = excess radius x y + (2 * y + 1) := by
  rw [excess, excess]
  ring

theorem nearCircle_iff (left : x ≤ 0) (below : 0 ≤ y) :
    NearCircle radius x y ↔ -max (-x) y ≤ excess radius x y ∧ excess radius x y ≤ max (-x) y := by
  rw [NearCircle, abs_le, abs_of_nonpos left, abs_of_nonneg below]

theorem nearCircle_leftmost (radius : Int) : NearCircle radius (-radius) 0 := by
  have hit : excess radius (-radius) 0 = 0 := by
    rw [excess]
    ring
  rw [NearCircle, hit, abs_zero]
  exact le_max_right _ _

theorem eq_radius_of_near (near : NearCircle radius 0 y) (below : 0 ≤ y) (inside : y ≤ radius) :
    y = radius := by
  obtain ⟨above, -⟩ := (nearCircle_iff le_rfl below).mp near
  rw [neg_zero, max_eq_right below, excess] at above
  by_contra short
  have less : y + 1 ≤ radius := lt_of_le_of_ne inside short
  nlinarith

/-- Below the lowest place the excess is too large to go further down. -/
theorem lt_radius_of_excess_le (below : 0 ≤ y) (inside : y ≤ radius)
    (small : excess radius x y + 2 * x + 2 * y + 2 ≤ y) : y < radius := by
  by_contra lowest
  obtain rfl : y = radius := le_antisymm inside (not_lt.mp lowest)
  rw [excess] at small
  nlinarith [mul_self_nonneg (x + 1)]

end Quarter

end WifiIot.Raster
