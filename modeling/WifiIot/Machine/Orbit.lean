import Mathlib.Data.List.Iterate

/-!
# Orbits that close

A deterministic course that returns to one of its first states never leaves
them, so what holds of these holds for ever.
-/

namespace WifiIot.Orbit

universe u

variable {State : Type u} {next : State → State} {start : State} {count : Nat}

/-- The first states of the course, the last of which leads back into them. -/
def Closes (next : State → State) (start : State) (count : Nat) : Prop :=
  0 < count ∧ next^[count] start ∈ List.iterate next start count

instance [DecidableEq State] : Decidable (Closes next start count) := by
  unfold Closes
  infer_instance

theorem Closes.start_mem (closes : Closes next start count) :
    start ∈ List.iterate next start count :=
  List.mem_iterate.mpr ⟨0, closes.1, rfl⟩

theorem Closes.next_mem (closes : Closes next start count) {state : State}
    (visited : state ∈ List.iterate next start count) :
    next state ∈ List.iterate next start count := by
  obtain ⟨time, before, rfl⟩ := List.mem_iterate.mp visited
  have later : next (next^[time] start) = next^[time + 1] start :=
    (Function.iterate_succ_apply' next time start).symm
  rw [later]
  by_cases last : time + 1 = count
  · rw [last]
    exact closes.2
  · exact List.mem_iterate.mpr ⟨time + 1, by omega, rfl⟩

end WifiIot.Orbit
