import Mathlib.Algebra.Order.BigOperators.Group.List
import Mathlib.Algebra.Order.Ring.Nat
import WifiIot.Coding.Runs
import WifiIot.Qrcodegen.Modules

/-!
# The penalty score

A mask is chosen by its penalty.  The lines of a symbol are read once, with the last
seven runs at hand; what comes out is what the runs of the line between two white borders
say as a whole.

Source: `qrcode_gen/src/qrcodegen.c`.
-/

namespace WifiIot.Qrcodegen

open Coding Raster

def PENALTY_N1 : Nat := 3

def PENALTY_N2 : Nat := 3

def PENALTY_N3 : Nat := 40

def PENALTY_N4 : Nat := 10

def LONG_MAX : Int := 2147483647

def finderPenaltyAddHistory (currentRunLength : Nat) (runHistory : List Nat) (qrsize : Nat) : List Nat :=
  let currentRunLength :=
    if runHistory.getD 0 0 = 0 then currentRunLength + qrsize else currentRunLength
  currentRunLength :: runHistory.take 6

/-- The patterns in the last seven runs, of which the last is white. -/
def finderPenaltyCountPatterns (runHistory : List Nat) : Nat :=
  let n := runHistory.getD 1 0
  let core : Bool := 0 < n && runHistory.getD 2 0 = n && runHistory.getD 3 0 = n * 3 &&
    runHistory.getD 4 0 = n && runHistory.getD 5 0 = n
  (if core && n * 4 ≤ runHistory.getD 0 0 && n ≤ runHistory.getD 6 0 then 1 else 0) +
    if core && n * 4 ≤ runHistory.getD 6 0 && n ≤ runHistory.getD 0 0 then 1 else 0

def finderPenaltyTerminateAndCount (currentRunColor : Bool) (currentRunLength : Nat)
    (runHistory : List Nat) (qrsize : Nat) : Nat :=
  let (currentRunLength, runHistory) :=
    if currentRunColor then (0, finderPenaltyAddHistory currentRunLength runHistory qrsize)
    else (currentRunLength, runHistory)
  finderPenaltyCountPatterns (finderPenaltyAddHistory (currentRunLength + qrsize) runHistory qrsize)

/-- `runColor`, `runX` or `runY`, `runHistory` and `result`. -/
structure LineState where
  runColor : Bool
  run : Nat
  runHistory : List Nat
  result : Nat

def penaltyModule (qrsize : Nat) (state : LineState) (color : Bool) : LineState :=
  if color = state.runColor then
    let run := state.run + 1
    ⟨state.runColor, run, state.runHistory,
      if run = 5 then state.result + PENALTY_N1
      else if 5 < run then state.result + 1 else state.result⟩
  else
    let runHistory := finderPenaltyAddHistory state.run state.runHistory qrsize
    let found := if state.runColor then 0 else finderPenaltyCountPatterns runHistory
    ⟨color, 1, runHistory, state.result + found * PENALTY_N3⟩

def penaltyLine (qrcode : List UInt8) (qrsize : Nat) (place : Nat → Nat × Nat) (result : Nat) :
    Run Nat := do
  let state ← (List.range qrsize).foldlM (fun state k => do
    let color ← getModule .qrcode qrcode (place k).1 (place k).2
    .ok (penaltyModule qrsize state color)) ⟨false, 0, List.replicate 7 0, result⟩
  let found := finderPenaltyTerminateAndCount state.runColor state.run state.runHistory qrsize
  .ok (state.result + found * PENALTY_N3)

/-- The modules at a place and at those to the right of it and below it. -/
def penaltySquare (qrcode : List UInt8) (result : Nat) (place : Nat × Nat) : Run Nat := do
  let (x, y) := place
  let color ← getModule .qrcode qrcode x y
  let right ← getModule .qrcode qrcode (x + 1) y
  let below ← getModule .qrcode qrcode x (y + 1)
  let both ← getModule .qrcode qrcode (x + 1) (y + 1)
  .ok (if color = right ∧ color = below ∧ color = both then result + PENALTY_N2 else result)

def getPenaltyScore (qrcode : List UInt8) : Run Int := do
  let qrsize ← getSize .qrcode qrcode
  let result ← (List.range qrsize).foldlM (fun result y =>
    penaltyLine qrcode qrsize (fun x => (x, y)) result) 0
  let result ← (List.range qrsize).foldlM (fun result x =>
    penaltyLine qrcode qrsize (fun y => (x, y)) result) result
  let result ← (scan (qrsize - 1) (qrsize - 1) fun y x => (x, y)).foldlM (penaltySquare qrcode) result
  let black ← (scan qrsize qrsize fun y x => (x, y)).foldlM (fun (black : Nat) place => do
    let color ← getModule .qrcode qrcode place.1 place.2
    .ok (if color then black + 1 else black)) 0
  let total := qrsize * qrsize
  let k : Int := ((((black : Int) * 20 - total * 10).natAbs + total - 1) / total : Nat) - 1
  .ok (result + k * PENALTY_N4)

/-! ## The runs of a line -/

/-- Five equal modules in a row, and each one more. -/
def runPenalty (run : Nat) : Nat := if 5 ≤ run then run - 2 else 0

/-- The finder-like patterns in runs of which the first is white. -/
def finderPatterns : List Nat → Nat
  | white :: black :: rest => finderPenaltyCountPatterns (white :: black :: rest) + finderPatterns rest
  | _ => 0

/-- The penalty of a line: its runs, and the patterns between white borders. -/
def linePenalty (line : List Bool) : Nat :=
  let border := List.replicate line.length false
  ((runsFrom false 0 line).map runPenalty).sum +
    finderPatterns (runsFrom false 0 (border ++ line ++ border)) * PENALTY_N3

/-- The same patterns, looked for in the runs that end with a white one. -/
def patternsAfter : Bool → List Nat → List Nat → Nat
  | _, _, [] => 0
  | black, done, run :: rest =>
      (if black then 0 else finderPenaltyCountPatterns (run :: done)) +
        patternsAfter (!black) (run :: done) rest

theorem finderPenaltyCountPatterns_short {window : List Nat} (short : window.length < 7) :
    finderPenaltyCountPatterns window = 0 := by
  have missing : window.getD 6 0 = 0 := by
    rw [List.getD_eq_getElem?_getD, List.getElem?_eq_none (Nat.le_of_lt_succ short)]
    rfl
  rw [finderPenaltyCountPatterns]
  simp only [missing]
  by_cases black : 0 < window.getD 1 0
  · rw [if_neg, if_neg]
    · simp only [Bool.and_eq_true, decide_eq_true_eq]
      omega
    · simp only [Bool.and_eq_true, decide_eq_true_eq]
      omega
  · rw [if_neg, if_neg]
    all_goals
      simp only [Bool.and_eq_true, decide_eq_true_eq]
      omega

/-- Seven runs are looked at, and both directions are the same. -/
theorem finderPenaltyCountPatterns_reverse (h0 h1 h2 h3 h4 h5 h6 : Nat) (more rest : List Nat) :
    finderPenaltyCountPatterns (h0 :: h1 :: h2 :: h3 :: h4 :: h5 :: h6 :: more) =
      finderPenaltyCountPatterns (h6 :: h5 :: h4 :: h3 :: h2 :: h1 :: h0 :: rest) := by
  simp only [finderPenaltyCountPatterns, List.getD_cons_zero, List.getD_cons_succ, Bool.and_eq_true,
    decide_eq_true_eq]
  split_ifs <;> omega

theorem finderPatterns_short {runs : List Nat} (short : runs.length < 7) : finderPatterns runs = 0 := by
  match runs with
  | [] => rfl
  | [_] => rfl
  | white :: black :: rest =>
      rw [finderPatterns, finderPenaltyCountPatterns_short short,
        finderPatterns_short (by simp at short ⊢; omega)]

theorem patternsAfter_eq (d0 d1 d2 d3 d4 : Nat) (more rest : List Nat) :
    patternsAfter true (d0 :: d1 :: d2 :: d3 :: d4 :: more) rest =
      finderPatterns (d4 :: d3 :: d2 :: d1 :: d0 :: rest) := by
  match rest with
  | [] => exact (finderPatterns_short (by simp)).symm
  | [black] => exact (finderPatterns_short (by simp)).symm
  | black :: white :: rest =>
      have later := patternsAfter_eq white black d0 d1 d2 (d3 :: d4 :: more) rest
      rw [patternsAfter, if_pos rfl, Nat.zero_add, Bool.not_true, patternsAfter,
        if_neg Bool.false_ne_true, Bool.not_false, later,
        finderPenaltyCountPatterns_reverse white black d0 d1 d2 d3 d4 more rest]
      rfl

theorem patternsAfter_short {done runs : List Nat} (black : Bool) (short : done.length + runs.length < 7) :
    patternsAfter black done runs = 0 := by
  induction runs generalizing black done with
  | nil => rfl
  | cons run runs inductionHypothesis =>
      rw [List.length_cons] at short
      rw [patternsAfter, inductionHypothesis _ (by rw [List.length_cons]; omega),
        finderPenaltyCountPatterns_short (by rw [List.length_cons]; omega), ite_self]

theorem patternsAfter_nil (runs : List Nat) : patternsAfter false [] runs = finderPatterns runs := by
  match runs with
  | w0 :: b1 :: w1 :: b2 :: w2 :: rest =>
      rw [← patternsAfter_eq w2 b2 w1 b1 w0 [] rest]
      simp [patternsAfter, finderPenaltyCountPatterns_short]
  | [] | [_] | [_, _] | [_, _, _] | [_, _, _, _] =>
      rw [finderPatterns_short (by simp), patternsAfter_short _ (by simp)]

/-! ## One line -/

def history (done : List Nat) : List Nat := (done ++ List.replicate 7 0).take 7

theorem getD_history (done : List Nat) {k : Nat} (inside : k < 7) :
    (history done).getD k 0 = done.getD k 0 := by
  rw [history, List.getD_eq_getElem?_getD, List.getElem?_take_of_lt inside, List.getD_eq_getElem?_getD]
  by_cases listed : k < done.length
  · rw [List.getElem?_append_left listed]
  · have behind := not_lt.mp listed
    rw [List.getElem?_append_right behind, List.getElem?_eq_none behind,
      List.getElem?_replicate_of_lt (by omega)]
    rfl

theorem finderPenaltyCountPatterns_history (done : List Nat) :
    finderPenaltyCountPatterns (history done) = finderPenaltyCountPatterns done := by
  simp only [finderPenaltyCountPatterns, getD_history done (show 0 < 7 by decide),
    getD_history done (show 1 < 7 by decide), getD_history done (show 2 < 7 by decide),
    getD_history done (show 3 < 7 by decide), getD_history done (show 4 < 7 by decide),
    getD_history done (show 5 < 7 by decide), getD_history done (show 6 < 7 by decide)]

def wide (qrsize : Nat) (done : List Nat) (run : Nat) : Nat := if done = [] then run + qrsize else run

section Line

variable {qrsize : Nat} {done : List Nat}

theorem finderPenaltyAddHistory_eq (positive : ∀ run ∈ done, 0 < run) (run : Nat) :
    finderPenaltyAddHistory run (history done) qrsize = history (wide qrsize done run :: done) := by
  have rest : (history done).take 6 = (done ++ List.replicate 7 0).take 6 := by
    rw [history, List.take_take]
    rfl
  have first : (if (history done).getD 0 0 = 0 then run + qrsize else run) = wide qrsize done run := by
    rw [getD_history done (by decide), wide]
    cases done with
    | nil => rfl
    | cons last done =>
        have long := positive last List.mem_cons_self
        rw [List.getD_cons_zero, if_neg (Nat.ne_of_gt long), if_neg (List.cons_ne_nil _ _)]
  rw [finderPenaltyAddHistory, first, rest]
  rfl

theorem runPenalty_succ (run : Nat) : runPenalty (run + 1) =
    runPenalty run + if run + 1 = 5 then PENALTY_N1 else if 5 < run + 1 then 1 else 0 := by
  rw [runPenalty, runPenalty, PENALTY_N1]
  split_ifs <;> omega

theorem finderPenaltyTerminateAndCount_eq (filled : 0 < qrsize) {color : Bool} {run : Nat}
    (positive : ∀ run ∈ done, 0 < run) (first : done = [] → color = false) (later : done ≠ [] → 0 < run) :
    finderPenaltyTerminateAndCount color run (history done) qrsize = patternsAfter color done
      (runsFrom color (wide qrsize done run) (List.replicate qrsize false)) := by
  cases color with
  | false =>
      have last : runsFrom false (wide qrsize done run) (List.replicate qrsize false) =
          [wide qrsize done (run + qrsize)] := by
        rw [← List.append_nil (List.replicate qrsize false), runsFrom_replicate, wide, wide]
        split
        · rw [Nat.add_right_comm]
          rfl
        · rfl
      change finderPenaltyCountPatterns (finderPenaltyAddHistory (run + qrsize) (history done) qrsize) = _
      rw [finderPenaltyAddHistory_eq positive, finderPenaltyCountPatterns_history, last, patternsAfter,
        patternsAfter, if_neg Bool.false_ne_true, Nat.add_zero]
  | true =>
      have notFirst : done ≠ [] := fun empty => Bool.noConfusion (first empty)
      have here : wide qrsize done run = run := if_neg notFirst
      have positiveNext : ∀ other ∈ run :: done, 0 < other :=
        List.forall_mem_cons.mpr ⟨later notFirst, positive⟩
      have last : runsFrom true run (List.replicate qrsize false) = [run, qrsize] := by
        obtain ⟨rest, border⟩ := Nat.exists_eq_add_one_of_ne_zero (Nat.ne_of_gt filled)
        rw [border, List.replicate_succ, runsFrom_cons_other Bool.false_ne_true,
          ← List.append_nil (List.replicate rest false), runsFrom_replicate, Nat.add_comm 1]
        rfl
      change finderPenaltyCountPatterns (finderPenaltyAddHistory (0 + qrsize)
        (finderPenaltyAddHistory run (history done) qrsize) qrsize) = _
      rw [finderPenaltyAddHistory_eq positive, here, finderPenaltyAddHistory_eq positiveNext, Nat.zero_add,
        wide, if_neg (List.cons_ne_nil _ _), finderPenaltyCountPatterns_history, last, patternsAfter,
        patternsAfter, patternsAfter, if_pos rfl, Bool.not_true, if_neg Bool.false_ne_true, Nat.zero_add,
        Nat.add_zero]

theorem penaltyModule_other {color next : Bool} {run : Nat} (other : next ≠ color)
    (positive : ∀ run ∈ done, 0 < run) (result : Nat) :
    penaltyModule qrsize ⟨color, run, history done, result⟩ next =
      ⟨next, 1, history (wide qrsize done run :: done), result +
        (if color then 0 else finderPenaltyCountPatterns (wide qrsize done run :: done)) * PENALTY_N3⟩ := by
  rw [penaltyModule, if_neg other]
  dsimp only
  rw [finderPenaltyAddHistory_eq positive, finderPenaltyCountPatterns_history]

theorem wide_pos (filled : 0 < qrsize) {run : Nat} (later : done ≠ [] → 0 < run) :
    0 < wide qrsize done run := by
  rw [wide]
  split
  · exact Nat.add_pos_right run filled
  · rename_i notFirst
    exact later notFirst

theorem foldl_penaltyModule (filled : 0 < qrsize) {line : List Bool} {color : Bool} {run result : Nat}
    (positive : ∀ run ∈ done, 0 < run) (first : done = [] → color = false)
    (later : done ≠ [] → 0 < run) :
    let last := line.foldl (penaltyModule qrsize) ⟨color, run, history done, result⟩
    last.result + finderPenaltyTerminateAndCount last.runColor last.run last.runHistory qrsize *
        PENALTY_N3 + runPenalty run =
      result + ((runsFrom color run line).map runPenalty).sum +
        patternsAfter color done (runsFrom color (wide qrsize done run)
          (line ++ List.replicate qrsize false)) * PENALTY_N3 := by
  induction line generalizing color run result done with
  | nil =>
      dsimp only [List.foldl_nil]
      rw [finderPenaltyTerminateAndCount_eq filled positive first later, List.nil_append, runsFrom,
        List.map_singleton, List.sum_singleton]
      exact Nat.add_right_comm _ _ _
  | cons next line inductionHypothesis =>
      by_cases same : next = color
      · subst same
        have round : penaltyModule qrsize ⟨next, run, history done, result⟩ next = ⟨next, run + 1,
            history done, if run + 1 = 5 then result + PENALTY_N1
              else if 5 < run + 1 then result + 1 else result⟩ := if_pos rfl
        have total := @inductionHypothesis _ next (run + 1)
          (if run + 1 = 5 then result + PENALTY_N1 else if 5 < run + 1 then result + 1 else result)
          positive first fun _ => Nat.succ_pos run
        have longer : wide qrsize done (run + 1) = wide qrsize done run + 1 := by
          rw [wide, wide]
          split
          · exact Nat.add_right_comm _ _ _
          · rfl
        rw [runPenalty_succ, longer] at total
        rw [List.foldl_cons, round, List.cons_append, runsFrom_cons_same, runsFrom_cons_same]
        dsimp only at total ⊢
        split_ifs at total ⊢ <;> omega
      · have widened := @wide_pos _ done filled run later
        have total := @inductionHypothesis (wide qrsize done run :: done) next 1
          (result + (if color then 0 else finderPenaltyCountPatterns (wide qrsize done run :: done)) *
            PENALTY_N3)
          (List.forall_mem_cons.mpr ⟨widened, positive⟩)
          (fun empty => absurd empty (List.cons_ne_nil _ _)) fun _ => Nat.one_pos
        have turned : (!color) = next := by
          cases color <;> cases next <;> simp_all
        have one : wide qrsize (wide qrsize done run :: done) 1 = 1 := if_neg (List.cons_ne_nil _ _)
        have single : runPenalty 1 = 0 := rfl
        rw [one, single] at total
        rw [List.foldl_cons, penaltyModule_other same positive, List.cons_append,
          runsFrom_cons_other same, runsFrom_cons_other same, List.map_cons, List.sum_cons, patternsAfter,
          turned, Nat.add_mul]
        dsimp only at total ⊢
        omega

end Line

/-! ## The whole symbol -/

section Picture

variable (picture : Nat × Nat → Bool) (side : Nat)

def line (place : Nat → Nat × Nat) : List Bool := (List.range side).map fun k => picture (place k)

/-- The places with equal modules to the right of them and below. -/
def squares : Nat :=
  (scan (side - 1) (side - 1) fun y x => (x, y)).countP fun place =>
    let color := picture place
    color = picture (place.1 + 1, place.2) ∧ color = picture (place.1, place.2 + 1) ∧
      color = picture (place.1 + 1, place.2 + 1)

def blackModules : Nat := (scan side side fun y x => (x, y)).countP picture

/-- The steps of five percent that the black modules are away from one half. -/
def balance : Nat :=
  (((blackModules picture side : Int) * 20 - (side * side : Nat) * 10).natAbs + side * side - 1) /
    (side * side) - 1

def penalty : Nat :=
  ((List.range side).map fun y => linePenalty (line picture side fun x => (x, y))).sum +
    ((List.range side).map fun x => linePenalty (line picture side fun y => (x, y))).sum +
    squares picture side * PENALTY_N2 + balance picture side * PENALTY_N4

end Picture

section Score

variable {qrcode : List UInt8} {picture : Nat × Nat → Bool} {side : Nat}

theorem foldlM_add {Item : Type} {round : Nat → Item → Run Nat} {add : Item → Nat} {items : List Item}
    (rounds : ∀ item ∈ items, ∀ result, round result item = .ok (result + add item)) (result : Nat) :
    items.foldlM round result = .ok (result + (items.map add).sum) := by
  induction items generalizing result with
  | nil => rfl
  | cons item items inductionHypothesis =>
      obtain ⟨here, later⟩ := List.forall_mem_cons.mp rounds
      rw [List.foldlM_cons, here, run_ok_bind, inductionHypothesis later, List.map_cons, List.sum_cons,
        Nat.add_assoc]

theorem sum_map_ite {Item : Type} (items : List Item) (counted : Item → Bool) (value : Nat) :
    (items.map fun item => if counted item then value else 0).sum = items.countP counted * value := by
  induction items with
  | nil => exact (Nat.zero_mul _).symm
  | cons item items inductionHypothesis =>
      rw [List.map_cons, List.sum_cons, inductionHypothesis, List.countP_cons]
      split
      · rw [Nat.succ_mul, Nat.add_comm]
      · rw [Nat.zero_add, Nat.add_zero]

theorem penaltyLine_eq (symbol : Symbol qrcode side) {place : Nat → Nat × Nat}
    (inside : ∀ k < side, (place k).1 < side ∧ (place k).2 < side) (result : Nat) :
    penaltyLine qrcode side place result =
      .ok (result + linePenalty (line (moduleAt qrcode side) side place)) := by
  have filled : 0 < side := lt_of_lt_of_le (by decide) symbol.least
  have length : (line (moduleAt qrcode side) side place).length = side := by
    rw [line, List.length_map, List.length_range]
  have reads : (List.range side).foldlM (fun state k => do
      let color ← getModule .qrcode qrcode (place k).1 (place k).2
      .ok (penaltyModule side state color)) (⟨false, 0, List.replicate 7 0, result⟩ : LineState) =
        .ok ((line (moduleAt qrcode side) side place).foldl (penaltyModule side)
          ⟨false, 0, history [], result⟩) := by
    rw [line, List.foldl_map]
    refine foldlM_ok (fun k mem state => ?_) _
    have here := inside k (List.mem_range.mp mem)
    rw [getModule_eq symbol here.1 here.2, run_ok_bind]
  have total := @foldl_penaltyModule side [] filled (line (moduleAt qrcode side) side place) false 0 result
    (fun _ mem => absurd mem List.not_mem_nil) (fun _ => rfl) fun full => absurd rfl full
  have bordered : runsFrom false (wide side [] 0)
      (line (moduleAt qrcode side) side place ++ List.replicate side false) =
      runsFrom false 0 (List.replicate side false ++ line (moduleAt qrcode side) side place ++
        List.replicate side false) := by
    rw [List.append_assoc, runsFrom_replicate]
    rfl
  rw [bordered, patternsAfter_nil] at total
  rw [penaltyLine, reads, run_ok_bind, linePenalty, length, ← Nat.add_assoc, ← total]
  rfl

theorem penaltySquare_eq (symbol : Symbol qrcode side) {place : Nat × Nat}
    (inside : place.1 < side - 1 ∧ place.2 < side - 1) (result : Nat) :
    penaltySquare qrcode result place = .ok (result +
      if moduleAt qrcode side place = moduleAt qrcode side (place.1 + 1, place.2) ∧
        moduleAt qrcode side place = moduleAt qrcode side (place.1, place.2 + 1) ∧
        moduleAt qrcode side place = moduleAt qrcode side (place.1 + 1, place.2 + 1)
      then PENALTY_N2 else 0) := by
  obtain ⟨x, y⟩ := place
  rw [penaltySquare, getModule_eq symbol (by omega) (by omega), run_ok_bind,
    getModule_eq symbol (by omega) (by omega), run_ok_bind,
    getModule_eq symbol (by omega) (by omega), run_ok_bind,
    getModule_eq symbol (by omega) (by omega), run_ok_bind]
  split_ifs <;> rfl

/-- The side is odd, so no symbol is half black. -/
theorem balance_succ (odd : side % 2 = 1) :
    (((blackModules picture side : Int) * 20 - (side * side : Nat) * 10).natAbs + side * side - 1) /
      (side * side) = balance picture side + 1 := by
  have total : side * side % 2 = 1 := by rw [Nat.mul_mod, odd]
  have positive : 0 < side * side := by omega
  have away : 1 ≤ ((blackModules picture side : Int) * 20 - (side * side : Nat) * 10).natAbs := by
    generalize side * side = total at *
    omega
  have one : 1 ≤ (((blackModules picture side : Int) * 20 - (side * side : Nat) * 10).natAbs +
      side * side - 1) / (side * side) := by
    rw [Nat.one_le_div_iff positive]
    omega
  rw [balance]
  omega

theorem countBlack_eq (symbol : Symbol qrcode side) :
    (scan side side fun y x => (x, y)).foldlM (fun (black : Nat) place => do
      let color ← getModule .qrcode qrcode place.1 place.2
      .ok (if color then black + 1 else black)) 0 = .ok (blackModules (moduleAt qrcode side) side) := by
  have rounds := @foldlM_add _ (fun (black : Nat) place => do
      let color ← getModule .qrcode qrcode place.1 place.2
      .ok (if color then black + 1 else black))
    (fun place => if moduleAt qrcode side place then 1 else 0) (scan side side fun y x => (x, y))
    (fun place mem result => by
      obtain ⟨y, above, x, before, rfl⟩ := (mem_scan _).mp mem
      rw [getModule_eq symbol before above, run_ok_bind]
      split_ifs <;> rfl) 0
  rw [rounds, sum_map_ite, Nat.zero_add, Nat.mul_one]
  rfl

theorem getPenaltyScore_run (symbol : Symbol qrcode side) (odd : side % 2 = 1) :
    getPenaltyScore qrcode = .ok (penalty (moduleAt qrcode side) side : Nat) := by
  have rows := @foldlM_add _ (fun result y => penaltyLine qrcode side (fun x => (x, y)) result) _
    (List.range side) fun y mem result =>
      penaltyLine_eq symbol (fun x inside => ⟨inside, List.mem_range.mp mem⟩) result
  have columns := @foldlM_add _ (fun result x => penaltyLine qrcode side (fun y => (x, y)) result) _
    (List.range side) fun x mem result =>
      penaltyLine_eq symbol (fun y inside => ⟨List.mem_range.mp mem, inside⟩) result
  have others := @foldlM_add _ (penaltySquare qrcode) (fun place =>
    if moduleAt qrcode side place = moduleAt qrcode side (place.1 + 1, place.2) ∧
      moduleAt qrcode side place = moduleAt qrcode side (place.1, place.2 + 1) ∧
      moduleAt qrcode side place = moduleAt qrcode side (place.1 + 1, place.2 + 1)
    then PENALTY_N2 else 0) (scan (side - 1) (side - 1) fun y x => (x, y))
    (fun place mem result => by
      obtain ⟨y, above, x, before, rfl⟩ := (mem_scan _).mp mem
      exact penaltySquare_eq symbol ⟨before, above⟩ result)
  have counted := sum_map_ite (scan (side - 1) (side - 1) fun y x => (x, y)) (fun place =>
    moduleAt qrcode side place = moduleAt qrcode side (place.1 + 1, place.2) ∧
      moduleAt qrcode side place = moduleAt qrcode side (place.1, place.2 + 1) ∧
      moduleAt qrcode side place = moduleAt qrcode side (place.1 + 1, place.2 + 1)) PENALTY_N2
  simp only [decide_eq_true_eq] at counted
  rw [getPenaltyScore, getSize_eq symbol, run_ok_bind]
  dsimp only
  rw [rows, run_ok_bind, columns, run_ok_bind, others, run_ok_bind, counted, countBlack_eq symbol,
    run_ok_bind, balance_succ odd, penalty, squares, Nat.zero_add]
  push_cast
  rw [Int.add_sub_cancel]

/-! ## How large it can be -/

theorem runPenalty_le (run : Nat) : runPenalty run ≤ run := by
  rw [runPenalty]
  split_ifs <;> omega

theorem finderPenaltyCountPatterns_le (window : List Nat) : finderPenaltyCountPatterns window ≤ 2 := by
  rw [finderPenaltyCountPatterns]
  split_ifs <;> omega

theorem finderPatterns_le (runs : List Nat) : finderPatterns runs ≤ runs.length := by
  match runs with
  | [] => exact Nat.zero_le _
  | [_] => exact Nat.zero_le _
  | white :: black :: rest =>
      have here := finderPenaltyCountPatterns_le (white :: black :: rest)
      have others := finderPatterns_le rest
      rw [finderPatterns, List.length_cons, List.length_cons]
      omega

theorem linePenalty_le (line : List Bool) : linePenalty line ≤ 121 * line.length + 40 := by
  have single : ((runsFrom false 0 line).map runPenalty).sum ≤ line.length := by
    calc
      ((runsFrom false 0 line).map runPenalty).sum ≤ ((runsFrom false 0 line).map id).sum :=
        List.sum_le_sum fun run _ => runPenalty_le run
      _ = line.length := by rw [List.map_id, sum_runsFrom, Nat.zero_add]
  have few := finderPatterns_le (runsFrom false 0
    (List.replicate line.length false ++ line ++ List.replicate line.length false))
  have length := @length_runsFrom_le _ _ false 0
    (List.replicate line.length false ++ line ++ List.replicate line.length false)
  rw [List.length_append, List.length_append, List.length_replicate] at length
  rw [linePenalty, PENALTY_N3]
  omega

/-- The least `k` for which from `(45-5k)%` to `(55+5k)%` of the modules are black. -/
theorem balance_le_iff (filled : 0 < side) {k : Nat} : balance picture side ≤ k ↔
    (45 - 5 * k : Int) * (side * side) ≤ 100 * blackModules picture side ∧
      100 * (blackModules picture side : Int) ≤ (55 + 5 * k) * (side * side) := by
  have positive : 0 < side * side := Nat.mul_pos filled filled
  have steps : balance picture side ≤ k ↔
      (((blackModules picture side : Int) * 20 - (side * side : Nat) * 10).natAbs + side * side - 1) /
        (side * side) < k + 2 := by
    rw [balance]
    omega
  have low : (45 - 5 * k : Int) * (side * side) = 45 * (side * side : Nat) - 5 * (k * (side * side) : Nat) := by
    push_cast
    ring
  have high : (55 + 5 * k : Int) * (side * side) = 55 * (side * side : Nat) + 5 * (k * (side * side) : Nat) := by
    push_cast
    ring
  rw [steps, Nat.div_lt_iff_lt_mul positive, low, high, Nat.add_mul]
  generalize side * side = total at *
  generalize k * total = part at *
  omega

theorem balance_le (filled : 0 < side) (picture : Nat × Nat → Bool) : balance picture side ≤ 10 := by
  have few : blackModules picture side ≤ side * side := by
    rw [blackModules, ← @length_scan _ side side fun y x => (x, y)]
    exact List.countP_le_length
  refine (balance_le_iff filled).mpr ⟨?_, ?_⟩
  · have most : (0 : Int) ≤ side * side := by positivity
    push_cast
    omega
  · push_cast at few ⊢
    have cast : (blackModules picture side : Int) ≤ side * side := by exact_mod_cast few
    omega

/-- Some mask is always better than none. -/
theorem penalty_lt (filled : 0 < side) (most : side ≤ 177) : (penalty picture side : Int) < LONG_MAX := by
  have lines : ∀ place : Nat → Nat → Nat × Nat,
      ((List.range side).map fun k => linePenalty (line picture side (place k))).sum ≤ 177 * 21457 := by
    intro place
    calc
      ((List.range side).map fun k => linePenalty (line picture side (place k))).sum ≤
          ((List.range side).map fun k => linePenalty (line picture side (place k))).length • 21457 := by
        refine List.sum_le_card_nsmul _ _ fun value mem => ?_
        obtain ⟨k, -, rfl⟩ := List.mem_map.mp mem
        have here := linePenalty_le (line picture side (place k))
        rw [line, List.length_map, List.length_range, ← line] at here
        omega
      _ ≤ 177 * 21457 := by
        rw [List.length_map, List.length_range, nsmul_eq_mul, Nat.cast_id]
        exact Nat.mul_le_mul_right _ most
  have rows := lines fun y x => (x, y)
  have columns := lines fun x y => (x, y)
  have few : squares picture side ≤ 177 * 177 := by
    calc
      squares picture side ≤ (side - 1) * (side - 1) := by
        rw [← @length_scan _ (side - 1) (side - 1) fun y x => (x, y)]
        exact List.countP_le_length
      _ ≤ 177 * 177 := Nat.mul_le_mul (by omega) (by omega)
  have near := balance_le filled picture
  rw [penalty, LONG_MAX, PENALTY_N2, PENALTY_N4]
  omega

end Score

/-- The score is the penalty of the picture, whatever else is in the buffer, and any score is
lower than the one the search for a mask starts with. -/
theorem getPenaltyScore_eq {qrcode : List UInt8} {side : Nat} (symbol : Symbol qrcode side)
    (odd : side % 2 = 1) :
    getPenaltyScore qrcode = .ok (penalty (moduleAt qrcode side) side : Nat) ∧
      (penalty (moduleAt qrcode side) side : Int) < LONG_MAX :=
  ⟨getPenaltyScore_run symbol odd, penalty_lt (lt_of_lt_of_le (by decide) symbol.least) symbol.most⟩

/-- A light symbol with the proportions of a finder pattern at the front of its first row. -/
theorem getPenaltyScore_eq_finder : getPenaltyScore (21 :: 0x5D :: List.replicate 55 0) = .ok 2135 := by
  have symbol : Symbol (21 :: 0x5D :: List.replicate 55 0) 21 := ⟨by decide, by decide, by decide, rfl⟩
  have value : penalty (moduleAt (21 :: 0x5D :: List.replicate 55 0) 21) 21 = 2135 := by decide +kernel
  rw [(getPenaltyScore_eq symbol rfl).1, value]
  rfl

end WifiIot.Qrcodegen
