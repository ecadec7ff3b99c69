import Mathlib.Algebra.BigOperators.Ring.Finset
import Mathlib.Data.Fintype.BigOperators

/-!
# Counting threads by where they stand

An invariant over an arbitrary number of threads often needs no more than how
many of them stand at each place.  A step moves one thread, which changes two
of the counts.
-/

namespace WifiIot

universe u v

variable {Thread : Type u} {Place : Type v} [Fintype Thread] [DecidableEq Place]

def census (pc : Thread → Place) (place : Place) : Nat :=
  (Finset.univ.filter fun thread => pc thread = place).card

theorem census_pos {pc : Thread → Place} {place : Place} {thread : Thread}
    (at_ : pc thread = place) : 0 < census pc place := by
  apply Finset.card_pos.mpr
  exact ⟨thread, by simp [at_]⟩

theorem census_const (here place : Place) :
    census (fun _ : Thread => here) place = if here = place then Fintype.card Thread else 0 := by
  unfold census
  split
  · rename_i same
    simp [same, Finset.card_univ]
  · rename_i different
    simp [different]

/-- A thread that moves is counted where it arrives and no longer where it was. -/
theorem census_update [DecidableEq Thread] (pc : Thread → Place) (thread : Thread) (next place : Place) :
    census (Function.update pc thread next) place + (if pc thread = place then 1 else 0) =
      census pc place + (if next = place then 1 else 0) := by
  have split (current : Thread → Place) : census current place =
      (if current thread = place then 1 else 0) +
        ∑ other ∈ Finset.univ.erase thread, if current other = place then 1 else 0 := by
    unfold census
    rw [Finset.card_filter]
    exact (Finset.add_sum_erase _ (fun other => if current other = place then 1 else 0)
      (Finset.mem_univ thread)).symm
  have others : (∑ other ∈ Finset.univ.erase thread,
      if Function.update pc thread next other = place then 1 else 0) =
      ∑ other ∈ Finset.univ.erase thread, if pc other = place then 1 else 0 := by
    apply Finset.sum_congr rfl
    intro other membership
    rw [Function.update_of_ne (Finset.ne_of_mem_erase membership)]
  rw [split, split pc, others, Function.update_self]
  omega

section Moves

variable [DecidableEq Thread] {pc : Thread → Place} {thread : Thread} {here : Place}

theorem census_left (at_ : pc thread = here) (next : Place) (moved : next ≠ here) :
    census (Function.update pc thread next) here + 1 = census pc here := by
  have counted := census_update pc thread next here
  rwa [if_pos at_, if_neg moved] at counted

theorem census_entered (at_ : pc thread = here) (next : Place) (moved : next ≠ here) :
    census (Function.update pc thread next) next = census pc next + 1 := by
  have counted := census_update pc thread next next
  rwa [at_, if_neg moved.symm, if_pos rfl] at counted

theorem census_elsewhere (at_ : pc thread = here) (next place : Place)
    (different : here ≠ place ∧ next ≠ place) :
    census (Function.update pc thread next) place = census pc place := by
  have counted := census_update pc thread next place
  rwa [at_, if_neg different.1, if_neg different.2] at counted

end Moves

end WifiIot
