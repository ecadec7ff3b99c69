import WifiIot.Machine.Run

/-!
# What holds all along a run

A property that the steps may break and mend again is not an invariant.  Where
an invariant tells exactly which steps keep the property, the runs that have it
in all their states are the runs that make only such steps.
-/

namespace WifiIot

namespace Machine

universe u v w

variable {State : Type u} {Input : Type v} {Output : Type w}
  (machine : Machine State Input Output)

/-- The property holds in every state that the inputs pass through. -/
def Throughout (property : State → List Output → Prop)
    (start : State) (inputs : List Input) : Prop :=
  ∀ before after, inputs = before ++ after →
    ∀ state log, machine.Run start before state log → property state log

variable {machine} {property : State → List Output → Prop}
  {condition other : State → List Output → Input → Prop}

theorem throughout_nil_iff (start : State) :
    machine.Throughout property start [] ↔ property start [] := by
  constructor
  · intro throughout
    exact throughout [] [] rfl start [] .refl
  · intro holds before after equality state log run
    obtain ⟨rfl, rfl⟩ := List.append_eq_nil_iff.mp equality.symm
    obtain ⟨rfl, rfl⟩ := run_nil_iff.mp run
    exact holds

theorem Throughout.last {start state : State} {inputs : List Input} {log : List Output}
    (throughout : machine.Throughout property start inputs)
    (run : machine.Run start inputs state log) : property state log :=
  throughout inputs [] (List.append_nil inputs).symm state log run

theorem Throughout.imp {weaker : State → List Output → Prop} {start : State} {inputs : List Input}
    (throughout : machine.Throughout property start inputs)
    (implies : ∀ state log, property state log → weaker state log) :
    machine.Throughout weaker start inputs :=
  fun before after equality state log run =>
    implies state log (throughout before after equality state log run)

theorem throughout_snoc_iff {start next : State} {inputs : List Input} {input : Input}
    {log : List Output} (run : machine.Run start (inputs ++ [input]) next log) :
    machine.Throughout property start (inputs ++ [input]) ↔
      machine.Throughout property start inputs ∧ property next log := by
  constructor
  · intro throughout
    refine ⟨fun before after equality => ?_, throughout.last run⟩
    exact throughout before (after ++ [input]) (by simp [equality])
  · rintro ⟨earlier, now⟩ before after equality state reachedLog reached
    rcases List.eq_nil_or_concat after with rfl | ⟨rest, final, rfl⟩
    · rw [List.append_nil] at equality
      rw [equality] at run
      obtain ⟨rfl, rfl⟩ := run.deterministic reached
      exact now
    · rw [List.concat_eq_append, ← List.append_assoc] at equality
      obtain ⟨same, -⟩ := List.append_inj' equality rfl
      exact earlier before rest same state reachedLog reached

/-- A run has the property all along, and its steps keep a frame, exactly if the
steps meet the condition, when the condition says which steps keep both. -/
theorem Run.throughout_and_meets_iff {frame : State → List Output → Input → Prop}
    {start state : State} {inputs : List Input} {log : List Output}
    (run : machine.Run start inputs state log) (invariant : State → List Output → Prop)
    (initially : invariant start [] ∧ property start [])
    (kept : ∀ state log input next emitted, invariant state log →
      machine.step state input = some (next, emitted) → invariant next (log ++ emitted))
    (decides : ∀ state log input next emitted, invariant state log → property state log →
      machine.step state input = some (next, emitted) →
      (property next (log ++ emitted) ∧ frame state log input ↔ condition state log input)) :
    machine.Throughout property start inputs ∧ machine.Meets frame start inputs ↔
      machine.Meets condition start inputs := by
  induction run with
  | refl =>
      exact iff_of_true ⟨(throughout_nil_iff start).mpr initially.2, meets_nil start⟩
        (meets_nil start)
  | @snoc inputs state log input next emitted before stepped inductionHypothesis =>
      have sound : invariant state log := before.invariant invariant initially.1 kept
      rw [throughout_snoc_iff (.snoc before stepped), meets_snoc_iff before,
        meets_snoc_iff before, ← inductionHypothesis, and_and_and_comm]
      apply and_congr_right
      intro earlier
      exact decides _ _ _ _ _ sound (earlier.1.last before) stepped

/-- A run has the property all along exactly if its steps meet the condition,
when the condition says which steps keep the property. -/
theorem Run.throughout_iff_meets {start state : State} {inputs : List Input} {log : List Output}
    (run : machine.Run start inputs state log) (invariant : State → List Output → Prop)
    (initially : invariant start [] ∧ property start [])
    (kept : ∀ state log input next emitted, invariant state log →
      machine.step state input = some (next, emitted) → invariant next (log ++ emitted))
    (decides : ∀ state log input next emitted, invariant state log → property state log →
      machine.step state input = some (next, emitted) →
      (property next (log ++ emitted) ↔ condition state log input)) :
    machine.Throughout property start inputs ↔ machine.Meets condition start inputs := by
  have unframed : machine.Meets (fun _ _ _ => True) start inputs := fun _ _ _ _ _ _ _ => trivial
  refine (and_iff_left unframed).symm.trans
    (run.throughout_and_meets_iff invariant initially kept ?_)
  intro state log input next emitted sound holds stepped
  rw [and_true]
  exact decides state log input next emitted sound holds stepped

/-- A run ends with the property exactly if its steps meet the condition, when
each step keeps what is lost already and the condition says which steps lose
the property; what the environment promises of the steps is assumed. -/
theorem Run.property_iff_meets_of_meets {promised : State → List Output → Input → Prop}
    {start state : State} {inputs : List Input} {log : List Output}
    (run : machine.Run start inputs state log) (invariant : State → List Output → Prop)
    (initially : invariant start [] ∧ property start [])
    (kept : ∀ state log input next emitted, invariant state log → promised state log input →
      machine.step state input = some (next, emitted) → invariant next (log ++ emitted))
    (decides : ∀ state log input next emitted, invariant state log → promised state log input →
      machine.step state input = some (next, emitted) →
      (property next (log ++ emitted) ↔ property state log ∧ condition state log input))
    (met : machine.Meets promised start inputs) :
    property state log ↔ machine.Meets condition start inputs := by
  induction run with
  | refl => exact iff_of_true initially.2 (meets_nil start)
  | snoc before stepped inductionHypothesis =>
      obtain ⟨earlier, promise⟩ := (meets_snoc_iff before _).mp met
      have sound := before.invariant_of_meets invariant initially.1 kept earlier
      rw [decides _ _ _ _ _ sound promise stepped, meets_snoc_iff before,
        inductionHypothesis earlier]

theorem Run.property_iff_meets {start state : State} {inputs : List Input} {log : List Output}
    (run : machine.Run start inputs state log) (invariant : State → List Output → Prop)
    (initially : invariant start [] ∧ property start [])
    (kept : ∀ state log input next emitted, invariant state log →
      machine.step state input = some (next, emitted) → invariant next (log ++ emitted))
    (decides : ∀ state log input next emitted, invariant state log →
      machine.step state input = some (next, emitted) →
      (property next (log ++ emitted) ↔ property state log ∧ condition state log input)) :
    property state log ↔ machine.Meets condition start inputs := by
  have promised : machine.Meets (fun _ _ _ => True) start inputs := fun _ _ _ _ _ _ _ => trivial
  refine run.property_iff_meets_of_meets invariant initially ?_ ?_ promised
  · intro state log input next emitted sound _ stepped
    exact kept state log input next emitted sound stepped
  · intro state log input next emitted sound _ stepped
    exact decides state log input next emitted sound stepped

theorem throughout_of_meets {start : State} {inputs : List Input}
    (initially : property start [])
    (kept : ∀ state log input next emitted, property state log → condition state log input →
      machine.step state input = some (next, emitted) → property next (log ++ emitted))
    (met : machine.Meets condition start inputs) : machine.Throughout property start inputs := by
  intro before after equality state log run
  refine run.invariant_of_meets property initially kept ?_
  intro first input rest same
  exact met first input (rest ++ after) (by simp [equality, same])

theorem Run.meets_congr {start state : State} {inputs : List Input} {log : List Output}
    (run : machine.Run start inputs state log) (invariant : State → List Output → Prop)
    (initially : invariant start [])
    (kept : ∀ state log input next emitted, invariant state log →
      machine.step state input = some (next, emitted) → invariant next (log ++ emitted))
    (same : ∀ state log input next emitted, invariant state log →
      machine.step state input = some (next, emitted) →
      (condition state log input ↔ other state log input)) :
    machine.Meets condition start inputs ↔ machine.Meets other start inputs := by
  induction run with
  | refl => exact iff_of_true (meets_nil start) (meets_nil start)
  | snoc before stepped inductionHypothesis =>
      have sound := before.invariant invariant initially kept
      rw [meets_snoc_iff before, meets_snoc_iff before, inductionHypothesis]
      exact and_congr_right fun _ => same _ _ _ _ _ sound stepped

end Machine

end WifiIot
