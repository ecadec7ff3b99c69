import WifiIot.Machine.Run

/-!
# States that behave alike

Two states behave alike when every list of inputs runs from both or from
neither, with the same log and the same observation at the end.  As this holds
for every list, the observations agree all the way.
-/

namespace WifiIot

namespace Machine

universe u v w

variable {State : Type u} {Input : Type v} {Output : Type w} {Seen : Type u}
  (machine : Machine State Input Output) (observe : State → Seen)

def observed (start : State) (inputs : List Input) : Option (Seen × List Output) :=
  (machine.exec start inputs).map fun result => (observe result.1, result.2)

def BehaveAlike (first second : State) : Prop :=
  ∀ inputs, machine.observed observe first inputs = machine.observed observe second inputs

def Bisimulates (Related : State → State → Prop) : Prop :=
  ∀ first second input, Related first second →
    (machine.step first input = none ∧ machine.step second input = none) ∨
    ∃ next other emitted, machine.step first input = some (next, emitted) ∧
      machine.step second input = some (other, emitted) ∧ Related next other

variable {machine observe}

@[simp]
theorem observed_nil (start : State) : machine.observed observe start [] = some (observe start, []) :=
  rfl

theorem observed_cons (start : State) (input : Input) (inputs : List Input) :
    machine.observed observe start (input :: inputs) =
      (machine.step start input).bind fun result =>
        (machine.observed observe result.1 inputs).map fun seen => (seen.1, result.2 ++ seen.2) := by
  unfold observed
  rw [exec]
  cases machine.step start input with
  | none => rfl
  | some result =>
      obtain ⟨next, emitted⟩ := result
      cases later : machine.exec next inputs with
      | none => simp [later]
      | some final => simp [later]

theorem Bisimulates.behaveAlike {Related : State → State → Prop}
    (bisimulates : machine.Bisimulates Related)
    (sees : ∀ first second, Related first second → observe first = observe second)
    {first second : State} (related : Related first second) :
    machine.BehaveAlike observe first second := by
  intro inputs
  induction inputs generalizing first second with
  | nil => simp only [observed_nil, sees first second related]
  | cons input inputs inductionHypothesis =>
      rw [observed_cons, observed_cons]
      rcases bisimulates first second input related with
        ⟨firstStuck, secondStuck⟩ | ⟨next, other, emitted, firstStep, secondStep, later⟩
      · rw [firstStuck, secondStuck]
      · simp only [firstStep, secondStep, Option.bind_some, inductionHypothesis later]

end Machine

end WifiIot
