import Mathlib.Logic.Function.Iterate

/-!
# Loops with a count of rounds

`whileLoop` makes as many rounds as it is given and then says whether the loop
had ended.  A loop that ends after a number of rounds returns exactly if it is
given that many; one whose condition never fails does not return.
-/

namespace WifiIot

universe u

variable {State : Type u}

def whileLoop (condition : State → Bool) (body : State → State) : Nat → State → Option State
  | 0, state => if condition state then none else some state
  | rounds + 1, state =>
      if condition state then whileLoop condition body rounds (body state) else some state

variable {condition : State → Bool} {body : State → State}

theorem whileLoop_of_false {state : State} (ended : condition state = false) (rounds : Nat) :
    whileLoop condition body rounds state = some state := by
  cases rounds with
  | zero => simp [whileLoop, ended]
  | succ rounds => simp [whileLoop, ended]

theorem whileLoop_of_true {state : State} (goesOn : condition state = true) (rounds : Nat) :
    whileLoop condition body (rounds + 1) state = whileLoop condition body rounds (body state) :=
  if_pos goesOn

/-- The loop returns exactly if it is given the rounds it needs. -/
theorem whileLoop_eq {needed : Nat} {start : State}
    (goesOn : ∀ k < needed, condition (body^[k] start) = true)
    (ends : condition (body^[needed] start) = false) (rounds : Nat) :
    whileLoop condition body rounds start =
      if needed ≤ rounds then some (body^[needed] start) else none := by
  induction rounds generalizing needed start with
  | zero =>
      cases needed with
      | zero => exact whileLoop_of_false ends 0
      | succ needed =>
          have first : condition start = true := goesOn 0 (Nat.succ_pos needed)
          simp [whileLoop, first]
  | succ rounds inductionHypothesis =>
      cases needed with
      | zero => exact whileLoop_of_false ends (rounds + 1)
      | succ needed =>
          have first : condition start = true := goesOn 0 (Nat.succ_pos needed)
          have later : ∀ k < needed, condition (body^[k] (body start)) = true := by
            intro k before
            rw [← Function.iterate_succ_apply]
            exact goesOn (k + 1) (Nat.succ_lt_succ before)
          rw [whileLoop, if_pos first, inductionHypothesis later ends, Function.iterate_succ_apply]
          simp only [Nat.succ_le_succ_iff]

theorem exists_of_whileLoop_eq_some {rounds : Nat} {start final : State}
    (returned : whileLoop condition body rounds start = some final) :
    ∃ needed, body^[needed] start = final ∧ condition final = false := by
  induction rounds generalizing start with
  | zero =>
      simp only [whileLoop] at returned
      split at returned
      · cases returned
      · rename_i ended
        cases returned
        exact ⟨0, rfl, eq_false_of_ne_true ended⟩
  | succ rounds inductionHypothesis =>
      simp only [whileLoop] at returned
      split at returned
      · obtain ⟨needed, reached, ended⟩ := inductionHypothesis returned
        exact ⟨needed + 1, reached, ended⟩
      · rename_i ended
        cases returned
        exact ⟨0, rfl, eq_false_of_ne_true ended⟩

theorem whileLoop_eq_none {start : State}
    (goesOn : ∀ k, condition (body^[k] start) = true) (rounds : Nat) :
    whileLoop condition body rounds start = none := by
  induction rounds generalizing start with
  | zero => simp [whileLoop, show condition start = true from goesOn 0]
  | succ rounds inductionHypothesis =>
      have first : condition start = true := goesOn 0
      rw [whileLoop, if_pos first]
      apply inductionHypothesis
      intro k
      rw [← Function.iterate_succ_apply]
      exact goesOn (k + 1)

end WifiIot
