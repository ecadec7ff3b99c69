import Mathlib

/-!
# Runs

The lengths of the runs of equal colours in a line.
-/

namespace WifiIot.Coding

variable {Colour : Type*} [DecidableEq Colour]

/-- The runs of a line, behind so many places of a colour. -/
def runsFrom (colour : Colour) (run : Nat) : List Colour → List Nat
  | [] => [run]
  | next :: line => if next = colour then runsFrom colour (run + 1) line else run :: runsFrom next 1 line

variable {colour : Colour} {run : Nat} {line : List Colour}

theorem runsFrom_cons_same : runsFrom colour run (colour :: line) = runsFrom colour (run + 1) line :=
  if_pos rfl

theorem runsFrom_cons_other {next : Colour} (other : next ≠ colour) :
    runsFrom colour run (next :: line) = run :: runsFrom next 1 line := if_neg other

theorem runsFrom_replicate (count : Nat) :
    runsFrom colour run (List.replicate count colour ++ line) = runsFrom colour (run + count) line := by
  induction count generalizing run with
  | zero => rfl
  | succ count inductionHypothesis =>
      rw [List.replicate_succ, List.cons_append, runsFrom_cons_same, inductionHypothesis,
        Nat.add_right_comm, Nat.add_assoc]

theorem sum_runsFrom : (runsFrom colour run line).sum = run + line.length := by
  induction line generalizing colour run with
  | nil => rfl
  | cons next line inductionHypothesis =>
      rw [runsFrom, List.length_cons]
      split
      · rw [inductionHypothesis, Nat.add_right_comm, Nat.add_assoc]
      · rw [List.sum_cons, inductionHypothesis, Nat.add_comm 1]

theorem length_runsFrom_le : (runsFrom colour run line).length ≤ line.length + 1 := by
  induction line generalizing colour run with
  | nil => exact Nat.le_refl _
  | cons next line inductionHypothesis =>
      rw [runsFrom, List.length_cons]
      split
      · exact Nat.le_trans inductionHypothesis (Nat.le_succ _)
      · exact Nat.succ_le_succ inductionHypothesis

theorem runsFrom_turn {next : Colour} (other : next ≠ colour) {count : Nat} (positive : 0 < count) :
    runsFrom colour run (List.replicate count next ++ line) = run :: runsFrom next count line := by
  obtain ⟨rest, rfl⟩ := Nat.exists_eq_add_one_of_ne_zero (Nat.ne_of_gt positive)
  rw [List.replicate_succ, List.cons_append, runsFrom_cons_other other, runsFrom_replicate, Nat.add_comm]

theorem exists_first_run (colour : Colour) (run : Nat) (line : List Colour) :
    ∃ first rest, runsFrom colour run line = first :: rest ∧ run ≤ first := by
  induction line generalizing run with
  | nil => exact ⟨run, [], rfl, le_refl _⟩
  | cons next line inductionHypothesis =>
      rw [runsFrom]
      split
      · obtain ⟨first, rest, same, least⟩ := inductionHypothesis (run + 1)
        exact ⟨first, rest, same, Nat.le_of_succ_le least⟩
      · exact ⟨run, _, rfl, le_refl _⟩

theorem runsFrom_append {last next : Colour} (other : next ≠ last) (front back : List Colour) :
    runsFrom colour run (front ++ last :: next :: back) =
      runsFrom colour run (front ++ [last]) ++ runsFrom next 0 (next :: back) := by
  induction front generalizing colour run with
  | nil =>
      by_cases same : last = colour
      · subst same
        rw [List.nil_append, List.nil_append, runsFrom_cons_same, runsFrom_cons_other other,
          runsFrom_cons_same, runsFrom_cons_same]
        rfl
      · rw [List.nil_append, List.nil_append, runsFrom_cons_other same, runsFrom_cons_other same,
          runsFrom_cons_other other, runsFrom_cons_same]
        rfl
  | cons first front inductionHypothesis =>
      rw [List.cons_append, List.cons_append, runsFrom, runsFrom]
      split
      · exact inductionHypothesis
      · rw [inductionHypothesis, List.cons_append]

/-! ## Two colours -/

def expand (colour : Bool) : List Nat → List Bool
  | [] => []
  | run :: runs => List.replicate run colour ++ expand (!colour) runs

theorem expand_runsFrom (colour : Bool) (run : Nat) (line : List Bool) :
    expand colour (runsFrom colour run line) = List.replicate run colour ++ line := by
  induction line generalizing colour run with
  | nil => rfl
  | cons next line inductionHypothesis =>
      by_cases same : next = colour
      · subst same
        rw [runsFrom_cons_same, inductionHypothesis, List.replicate_succ', List.append_assoc]
        rfl
      · have turned : (!colour) = next := (Bool.eq_not.mpr same).symm
        rw [runsFrom_cons_other same, expand, turned, inductionHypothesis]
        rfl

theorem expand_append (colour : Bool) {before : List Nat} (even : before.length % 2 = 0)
    (runs : List Nat) : expand colour (before ++ runs) = expand colour before ++ expand colour runs := by
  match before with
  | [] => rfl
  | [_] => exact absurd even (by simp)
  | first :: second :: before =>
      have shorter : before.length % 2 = 0 := by
        rw [List.length_cons, List.length_cons] at even
        omega
      rw [List.cons_append, List.cons_append, expand, expand, Bool.not_not,
        expand_append colour shorter runs, expand, expand, Bool.not_not, List.append_assoc,
        List.append_assoc]

/-- The last run, and whether an even number of runs is in front of it. -/
theorem exists_last_run (colour last : Bool) (run : Nat) {count : Nat} (positive : 0 < count)
    (front : List Bool) :
    ∃ before final, runsFrom colour run (front ++ List.replicate count last) = before ++ [final] ∧
      count ≤ final ∧ (before.length % 2 = 0 ↔ last = colour) := by
  induction front generalizing colour run with
  | nil =>
      rw [List.nil_append, ← List.append_nil (List.replicate count last)]
      by_cases same : last = colour
      · subst same
        rw [runsFrom_replicate]
        exact ⟨[], run + count, rfl, Nat.le_add_left _ _, iff_of_true rfl rfl⟩
      · rw [runsFrom_turn same positive]
        exact ⟨[run], count, rfl, le_refl _, iff_of_false (by simp) same⟩
  | cons first front inductionHypothesis =>
      by_cases same : first = colour
      · subst same
        rw [List.cons_append, runsFrom_cons_same]
        exact inductionHypothesis first (run + 1)
      · obtain ⟨before, final, runs, least, parity⟩ := inductionHypothesis first 1
        rw [List.cons_append, runsFrom_cons_other same, runs]
        refine ⟨run :: before, final, rfl, least, ?_⟩
        have flipped : last = first ↔ ¬last = colour := by
          cases last <;> cases first <;> cases colour <;> simp_all
        rw [List.length_cons]
        rw [flipped] at parity
        by_cases even : before.length % 2 = 0
        · exact iff_of_false (by omega) (parity.mp even)
        · exact iff_of_true (by omega) (not_not.mp (mt parity.mpr even))

end WifiIot.Coding
