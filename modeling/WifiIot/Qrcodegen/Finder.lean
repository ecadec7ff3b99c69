import WifiIot.Qrcodegen.Penalty

/-!
# Finder-like patterns

What the counting of runs finds in a line: modules in the proportions 1:1:3:1:1 of a finder
pattern, with light modules of four units on one side of them and of one on the other.

Source: `qrcode_gen/src/qrcodegen.c`.
-/

namespace WifiIot.Qrcodegen

open Coding

/-- Dark, light, dark, light and dark modules in the proportions 1:1:3:1:1. -/
def finderCore (unit : Nat) (line : List Bool) : List Bool :=
  List.replicate unit true ++ (List.replicate unit false ++ (List.replicate (unit * 3) true ++
    (List.replicate unit false ++ (List.replicate unit true ++ line))))

/-- A line with a pattern like that of a finder between light modules. -/
def FinderLike (line : List Bool) : Prop :=
  ∃ unit > 0, ∃ left right, (unit * 4 ≤ left ∧ unit ≤ right ∨ unit * 4 ≤ right ∧ unit ≤ left) ∧
    ∃ before after, line = before ++ List.replicate left false ++
      finderCore unit (List.replicate right false ++ after)

theorem finderPenaltyCountPatterns_pos_iff {window : List Nat} :
    0 < finderPenaltyCountPatterns window ↔ ∃ unit > 0, ∃ left right rest,
      window = left :: unit :: unit :: unit * 3 :: unit :: unit :: right :: rest ∧
        (unit * 4 ≤ left ∧ unit ≤ right ∨ unit * 4 ≤ right ∧ unit ≤ left) := by
  constructor
  · intro found
    match window with
    | [] | [_] | [_, _] | [_, _, _] | [_, _, _, _] | [_, _, _, _, _] | [_, _, _, _, _, _] =>
        rw [finderPenaltyCountPatterns_short (by simp)] at found
        exact absurd found (lt_irrefl 0)
    | left :: unit :: r2 :: r3 :: r4 :: r5 :: right :: rest =>
        simp only [finderPenaltyCountPatterns, List.getD_cons_zero, List.getD_cons_succ,
          Bool.and_eq_true, decide_eq_true_eq] at found
        split_ifs at found with first second
        · obtain ⟨⟨⟨⟨⟨⟨positive, rfl⟩, rfl⟩, rfl⟩, rfl⟩, wide⟩, narrow⟩ := first
          exact ⟨_, positive, left, right, rest, rfl, .inl ⟨wide, narrow⟩⟩
        · obtain ⟨⟨⟨⟨⟨⟨positive, rfl⟩, rfl⟩, rfl⟩, rfl⟩, wide⟩, narrow⟩ := first
          exact ⟨_, positive, left, right, rest, rfl, .inl ⟨wide, narrow⟩⟩
        · rename_i second
          obtain ⟨⟨⟨⟨⟨⟨positive, rfl⟩, rfl⟩, rfl⟩, rfl⟩, wide⟩, narrow⟩ := second
          exact ⟨_, positive, left, right, rest, rfl, .inr ⟨wide, narrow⟩⟩
        · exact absurd found (lt_irrefl 0)
  · rintro ⟨unit, positive, left, right, rest, rfl, lights⟩
    rcases lights with lights | lights
    · simp [finderPenaltyCountPatterns, positive, lights.1, lights.2]
    · simp [finderPenaltyCountPatterns, positive, lights.1, lights.2]

theorem finderPatterns_pos_iff {runs : List Nat} :
    0 < finderPatterns runs ↔ ∃ before window, runs = before ++ window ∧ before.length % 2 = 0 ∧
      0 < finderPenaltyCountPatterns window := by
  induction runs using finderPatterns.induct with
  | case1 white black rest inductionHypothesis =>
      rw [finderPatterns, Nat.add_pos_iff_pos_or_pos, inductionHypothesis]
      constructor
      · rintro (here | ⟨before, window, rfl, even, found⟩)
        · exact ⟨[], _, rfl, rfl, here⟩
        · exact ⟨white :: black :: before, window, rfl, by rw [List.length_cons, List.length_cons]; omega,
            found⟩
      · rintro ⟨before, window, split, even, found⟩
        rcases before with _ | ⟨first, _ | ⟨second, before⟩⟩
        · obtain rfl := split
          exact .inl found
        · exact absurd even (by simp)
        · simp only [List.cons_append, List.cons.injEq] at split
          refine .inr ⟨before, window, split.2.2, ?_, found⟩
          rw [List.length_cons, List.length_cons] at even
          omega
  | case2 runs short =>
      have few : runs.length ≤ 1 := by
        rcases runs with _ | ⟨white, _ | ⟨black, rest⟩⟩
        · exact Nat.zero_le 1
        · exact le_refl 1
        · exact absurd rfl (short white black rest)
      have nothing : finderPatterns runs = 0 := finderPatterns.eq_2 runs short
      refine iff_of_false (by rw [nothing]; exact lt_irrefl 0) ?_
      rintro ⟨before, window, rfl, -, found⟩
      rw [List.length_append] at few
      rw [finderPenaltyCountPatterns_short (by omega)] at found
      exact absurd found (lt_irrefl 0)

theorem runsFrom_finderCore {unit right : Nat} (positive : 0 < unit) (light : 0 < right)
    (after : List Bool) :
    runsFrom true 0 (finderCore unit (List.replicate right false ++ after)) =
      unit :: unit :: unit * 3 :: unit :: unit :: runsFrom false right after := by
  have dark : true ≠ false := Bool.noConfusion
  have triple : 0 < unit * 3 := by omega
  rw [finderCore, runsFrom_replicate, Nat.zero_add, runsFrom_turn dark.symm positive,
    runsFrom_turn dark triple, runsFrom_turn dark.symm positive, runsFrom_turn dark positive,
    runsFrom_turn dark.symm light]

/-- Counting runs finds the finder-like patterns of a line. -/
theorem finderPatterns_pos_iff_finderLike (line : List Bool) :
    0 < finderPatterns (runsFrom false 0 line) ↔ FinderLike line := by
  rw [finderPatterns_pos_iff]
  constructor
  · rintro ⟨before, window, split, even, found⟩
    obtain ⟨unit, positive, left, right, rest, rfl, lights⟩ :=
      finderPenaltyCountPatterns_pos_iff.mp found
    refine ⟨unit, positive, left, right, lights, expand false before, expand true rest, ?_⟩
    have whole := expand_runsFrom false 0 line
    rw [split, expand_append false even] at whole
    rw [finderCore, List.append_assoc]
    exact whole.symm
  · rintro ⟨unit, positive, left, right, lights, before, after, rfl⟩
    -- the light runs may be longer than the pattern needs
    obtain ⟨front, final, runs, least, parity⟩ :=
      exists_last_run false false 0 (show 0 < left by omega) before
    obtain ⟨first, rest, followed, most⟩ := exists_first_run false right after
    refine ⟨front, final :: unit :: unit :: unit * 3 :: unit :: unit :: first :: rest, ?_,
      parity.mpr rfl, finderPenaltyCountPatterns_pos_iff.mpr
        ⟨unit, positive, final, first, rest, rfl, by omega⟩⟩
    obtain ⟨fewer, rfl⟩ := Nat.exists_eq_add_one_of_ne_zero (show left ≠ 0 by omega)
    obtain ⟨others, rfl⟩ := Nat.exists_eq_add_one_of_ne_zero (Nat.ne_of_gt positive)
    have core := @runsFrom_finderCore (others + 1) right positive (by omega) after
    have turn := @runsFrom_append _ _ false 0 false true Bool.noConfusion
      (before ++ List.replicate fewer false)
    rw [followed] at core
    rw [List.replicate_succ', ← List.append_assoc] at runs
    rw [List.replicate_succ', ← List.append_assoc before, List.append_assoc, List.singleton_append]
    rw [finderCore, List.replicate_succ, List.cons_append] at core ⊢
    rw [turn, runs, core, List.append_assoc]
    rfl

end WifiIot.Qrcodegen
