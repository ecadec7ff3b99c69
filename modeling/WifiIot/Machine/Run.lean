import Mathlib.Data.List.Basic
import Mathlib.Data.List.Infix

/-!
# Machines driven by their environment

A machine is deterministic: whatever is open about a run (what a peer sends,
which party moves next, what a device register reads) is an input.  A step may
be undefined, either because the input does not fit the state or because the
modelled program has no defined behaviour there; no run goes through it.

Runs grow at their end, so an invariant is proved by one step lemma.
-/

namespace WifiIot

universe u v w

/-- A deterministic machine that emits a list of outputs at each step. -/
structure Machine (State : Type u) (Input : Type v) (Output : Type w) where
  /-- The successor and the outputs, or `none` where the step is undefined. -/
  step : State → Input → Option (State × List Output)

namespace Machine

variable {State : Type u} {Input : Type v} {Output : Type w}
  (machine : Machine State Input Output)

/-- Finite runs, with the inputs consumed and the log of all outputs. -/
inductive Run (start : State) : List Input → State → List Output → Prop where
  | refl : Run start [] start []
  | snoc {inputs state log input next emitted} :
      Run start inputs state log →
      machine.step state input = some (next, emitted) →
      Run start (inputs ++ [input]) next (log ++ emitted)

def exec : State → List Input → Option (State × List Output)
  | state, [] => some (state, [])
  | state, input :: inputs =>
      match machine.step state input with
      | none => none
      | some (next, emitted) =>
          match exec next inputs with
          | none => none
          | some (last, rest) => some (last, emitted ++ rest)

@[simp]
theorem exec_nil (state : State) : machine.exec state [] = some (state, []) := rfl

theorem exec_append (state : State) (first second : List Input) :
    machine.exec state (first ++ second) =
      (machine.exec state first).bind fun middle =>
        (machine.exec middle.1 second).map fun last =>
          (last.1, middle.2 ++ last.2) := by
  induction first generalizing state with
  | nil => simp
  | cons input rest inductionHypothesis =>
      simp only [List.cons_append, exec]
      cases machine.step state input with
      | none => rfl
      | some result =>
          obtain ⟨next, emitted⟩ := result
          simp only [inductionHypothesis]
          cases machine.exec next rest with
          | none => rfl
          | some middle =>
              simp only [Option.bind_some]
              cases machine.exec middle.1 second with
              | none => rfl
              | some last => simp [List.append_assoc]

theorem run_iff_exec (start state : State) (inputs : List Input) (log : List Output) :
    machine.Run start inputs state log ↔ machine.exec start inputs = some (state, log) := by
  constructor
  · intro run
    induction run with
    | refl => rfl
    | @snoc inputs state log input next emitted _ stepped inductionHypothesis =>
        rw [exec_append, inductionHypothesis]
        simp [exec, stepped]
  · intro executed
    induction inputs using List.reverseRecOn generalizing state log with
    | nil =>
        simp only [exec_nil, Option.some.injEq, Prod.mk.injEq] at executed
        obtain ⟨rfl, rfl⟩ := executed
        exact .refl
    | append_singleton inputs input inductionHypothesis =>
        rw [exec_append] at executed
        cases before : machine.exec start inputs with
        | none => simp [before] at executed
        | some middle =>
            obtain ⟨middleState, middleLog⟩ := middle
            cases stepped : machine.step middleState input with
            | none => simp [before, exec, stepped] at executed
            | some result =>
                obtain ⟨next, emitted⟩ := result
                simp [before, exec, stepped] at executed
                obtain ⟨rfl, rfl⟩ := executed
                exact .snoc (inductionHypothesis _ _ before) stepped

/-- A run from what an execution shows of its result. -/
theorem exists_run_of_exec {Seen : Type u} (observe : State × List Output → Seen)
    (start : State) (inputs : List Input) (seen : Seen)
    (executed : (machine.exec start inputs).map observe = some seen) :
    ∃ state log, machine.Run start inputs state log ∧ observe (state, log) = seen := by
  obtain ⟨⟨state, log⟩, result, observed⟩ := Option.map_eq_some_iff.mp executed
  exact ⟨state, log, (machine.run_iff_exec ..).mpr result, observed⟩

variable {machine}

theorem Run.deterministic {start first second : State} {inputs : List Input}
    {firstLog secondLog : List Output}
    (left : machine.Run start inputs first firstLog)
    (right : machine.Run start inputs second secondLog) :
    first = second ∧ firstLog = secondLog := by
  rw [run_iff_exec] at left right
  simpa using left.symm.trans right

theorem Run.single {state next : State} {input : Input} {emitted : List Output}
    (stepped : machine.step state input = some (next, emitted)) :
    machine.Run state [input] next emitted := by
  simpa using Run.snoc Run.refl stepped

theorem Run.append {start middle last : State} {first second : List Input}
    {firstLog secondLog : List Output}
    (left : machine.Run start first middle firstLog)
    (right : machine.Run middle second last secondLog) :
    machine.Run start (first ++ second) last (firstLog ++ secondLog) := by
  induction right with
  | refl => simpa using left
  | snoc _ stepped inductionHypothesis =>
      simpa only [List.append_assoc] using Run.snoc inductionHypothesis stepped

theorem Run.split {start last : State} {first second : List Input} {log : List Output}
    (run : machine.Run start (first ++ second) last log) :
    ∃ middle firstLog secondLog, machine.Run start first middle firstLog ∧
      machine.Run middle second last secondLog ∧ log = firstLog ++ secondLog := by
  rw [run_iff_exec, exec_append] at run
  cases before : machine.exec start first with
  | none => simp [before] at run
  | some middle =>
      cases after : machine.exec middle.1 second with
      | none => simp [before, after] at run
      | some final =>
          simp only [before, after, Option.bind_some, Option.map_some, Option.some.injEq,
            Prod.mk.injEq] at run
          obtain ⟨rfl, rfl⟩ := run
          exact ⟨middle.1, middle.2, final.2, (run_iff_exec ..).mpr before,
            (run_iff_exec ..).mpr after, rfl⟩

theorem run_cons_iff {start last : State} {input : Input} {inputs : List Input} {log : List Output} :
    machine.Run start (input :: inputs) last log ↔
      ∃ next emitted rest, machine.step start input = some (next, emitted) ∧
        machine.Run next inputs last rest ∧ log = emitted ++ rest := by
  constructor
  · intro run
    rw [run_iff_exec, exec] at run
    cases stepped : machine.step start input with
    | none => simp [stepped] at run
    | some result =>
        obtain ⟨next, emitted⟩ := result
        cases later : machine.exec next inputs with
        | none => simp [stepped, later] at run
        | some final =>
            simp only [stepped, later, Option.some.injEq, Prod.mk.injEq] at run
            obtain ⟨rfl, rfl⟩ := run
            exact ⟨next, emitted, final.2, rfl, (run_iff_exec ..).mpr later, rfl⟩
  · rintro ⟨next, emitted, rest, stepped, run, rfl⟩
    exact (Run.single stepped).append run

theorem run_nil_iff {start last : State} {log : List Output} :
    machine.Run start [] last log ↔ last = start ∧ log = [] := by
  rw [run_iff_exec, exec_nil, Option.some.injEq, Prod.mk.injEq, eq_comm, @eq_comm _ []]

/-- Whatever holds at the start and is kept by every step holds after every run. -/
theorem Run.invariant {start state : State} {inputs : List Input} {log : List Output}
    (Holds : State → List Output → Prop)
    (initially : Holds start [])
    (kept : ∀ state log input next emitted, Holds state log →
      machine.step state input = some (next, emitted) → Holds next (log ++ emitted))
    (run : machine.Run start inputs state log) : Holds state log := by
  induction run with
  | refl => exact initially
  | snoc _ stepped inductionHypothesis => exact kept _ _ _ _ _ inductionHypothesis stepped

variable (machine)

/-- Every input of the list is consumed in a state, and after a log, that
satisfies the condition. -/
def Meets (condition : State → List Output → Input → Prop)
    (start : State) (inputs : List Input) : Prop :=
  ∀ before input after, inputs = before ++ input :: after →
    ∀ state log, machine.Run start before state log → condition state log input

variable {machine} {condition : State → List Output → Input → Prop}

@[simp]
theorem meets_nil (start : State) : machine.Meets condition start [] := by
  intro before input after equality
  simp at equality

theorem meets_congr {other : State → List Output → Input → Prop}
    (same : ∀ state log input, condition state log input ↔ other state log input)
    (start : State) (inputs : List Input) :
    machine.Meets condition start inputs ↔ machine.Meets other start inputs := by
  simp only [Meets, same]

theorem meets_snoc_iff {start state : State} {inputs : List Input} {log : List Output}
    (run : machine.Run start inputs state log) (input : Input) :
    machine.Meets condition start (inputs ++ [input]) ↔
      machine.Meets condition start inputs ∧ condition state log input := by
  constructor
  · intro met
    refine ⟨fun before earlier after equality => ?_, met inputs input [] rfl state log run⟩
    exact met before earlier (after ++ [input]) (by simp [equality])
  · rintro ⟨met, last⟩ before earlier after equality reached reachedLog reachedRun
    rcases List.eq_nil_or_concat after with rfl | ⟨rest, final, rfl⟩
    · obtain ⟨rfl, same⟩ := List.append_inj' equality rfl
      obtain rfl : input = earlier := by simpa using same
      obtain ⟨rfl, rfl⟩ := run.deterministic reachedRun
      exact last
    · rw [List.concat_eq_append, ← List.cons_append, ← List.append_assoc] at equality
      obtain ⟨same, -⟩ := List.append_inj' equality rfl
      exact met before earlier rest same reached reachedLog reachedRun

theorem meets_single_iff (start : State) (input : Input) :
    machine.Meets condition start [input] ↔ condition start [] input := by
  have extended : machine.Meets condition start ([] ++ [input]) ↔
      machine.Meets condition start [] ∧ condition start [] input := meets_snoc_iff .refl input
  simpa using extended

theorem Run.invariant_of_meets {start state : State} {inputs : List Input} {log : List Output}
    (Holds : State → List Output → Prop)
    (initially : Holds start [])
    (kept : ∀ state log input next emitted, Holds state log → condition state log input →
      machine.step state input = some (next, emitted) → Holds next (log ++ emitted))
    (run : machine.Run start inputs state log)
    (met : machine.Meets condition start inputs) : Holds state log := by
  induction run with
  | refl => exact initially
  | snoc before stepped inductionHypothesis =>
      obtain ⟨earlier, now⟩ := (meets_snoc_iff before _).mp met
      exact kept _ _ _ _ _ (inductionHypothesis earlier) now stepped

variable (machine)

/-- Execute the inputs and check the condition before each step. -/
def meetsFrom (check : State → List Output → Input → Bool) :
    State → List Output → List Input → Bool
  | _, _, [] => true
  | state, log, input :: inputs =>
      check state log input &&
        match machine.step state input with
        | none => false
        | some (next, emitted) => meetsFrom check next (log ++ emitted) inputs

variable {machine}

theorem meetsFrom_sound (check : State → List Output → Input → Bool)
    (checked : ∀ state log input, check state log input = true → condition state log input)
    {start state : State} {first second : List Input} {log : List Output}
    (run : machine.Run start first state log)
    (met : machine.Meets condition start first)
    (passed : machine.meetsFrom check state log second = true) :
    machine.Meets condition start (first ++ second) := by
  induction second generalizing first state log with
  | nil => simpa using met
  | cons input rest inductionHypothesis =>
      simp only [meetsFrom, Bool.and_eq_true] at passed
      have extended : machine.Meets condition start (first ++ [input]) :=
        (meets_snoc_iff run input).mpr ⟨met, checked _ _ _ passed.1⟩
      cases stepped : machine.step state input with
      | none => simp [stepped] at passed
      | some result =>
          obtain ⟨next, emitted⟩ := result
          simp only [stepped] at passed
          simpa using inductionHypothesis (.snoc run stepped) extended passed.2

theorem meets_of_meetsFrom (check : State → List Output → Input → Bool)
    (checked : ∀ state log input, check state log input = true → condition state log input)
    {start : State} {inputs : List Input}
    (passed : machine.meetsFrom check start [] inputs = true) :
    machine.Meets condition start inputs := by
  simpa using meetsFrom_sound check checked .refl (meets_nil start) passed

/-! ## Two parties on one state -/

section Interleave

variable {LeftInput RightInput : Type v}

/-- Either party may move at any time; the input says which one does. -/
def interleave (left : Machine State LeftInput Output) (right : Machine State RightInput Output) :
    Machine State (LeftInput ⊕ RightInput) Output where
  step
    | state, .inl input => left.step state input
    | state, .inr input => right.step state input

@[simp]
theorem interleave_step_inl (left : Machine State LeftInput Output)
    (right : Machine State RightInput Output) (state : State) (input : LeftInput) :
    (left.interleave right).step state (.inl input) = left.step state input := rfl

@[simp]
theorem interleave_step_inr (left : Machine State LeftInput Output)
    (right : Machine State RightInput Output) (state : State) (input : RightInput) :
    (left.interleave right).step state (.inr input) = right.step state input := rfl

end Interleave

/-! ## A memory of the past -/

section Remember

variable {Memory : Type u} (note : Memory → State → Input → Memory)

/-- The machine with a memory of its steps, which none of them looks at. -/
def remember (machine : Machine State Input Output) :
    Machine (State × Memory) Input Output where
  step past input :=
    (machine.step past.1 input).map fun result =>
      ((result.1, note past.2 past.1 input), result.2)

variable {note}

theorem remember_step_eq {past next : State × Memory} {input : Input} {emitted : List Output}
    (stepped : (machine.remember note).step past input = some (next, emitted)) :
    machine.step past.1 input = some (next.1, emitted) ∧ next.2 = note past.2 past.1 input := by
  obtain ⟨result, moved, same⟩ := Option.map_eq_some_iff.mp stepped
  cases same
  exact ⟨moved, rfl⟩

theorem Run.remember {start state : State} {inputs : List Input} {log : List Output}
    (run : machine.Run start inputs state log) (memory : Memory) :
    ∃ past, (machine.remember note).Run (start, memory) inputs (state, past) log := by
  induction run with
  | refl => exact ⟨memory, .refl⟩
  | @snoc inputs state log input next emitted _ stepped inductionHypothesis =>
      obtain ⟨past, remembered⟩ := inductionHypothesis
      exact ⟨note past state input, .snoc remembered (Option.map_eq_some_iff.mpr ⟨_, stepped, rfl⟩)⟩

end Remember

end Machine

end WifiIot
