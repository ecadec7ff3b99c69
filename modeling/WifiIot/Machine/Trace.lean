import Mathlib.Data.List.DropRight
import WifiIot.Machine.Throughout

/-!
# Events that keep others apart

Of a trace one often asks that some event comes between two others: a release
between two acquisitions, a reset between two alarms.  Such a law is decided
event by event, from whether an opening event still stands.
-/

namespace WifiIot.Trace

universe u v w

variable {Event : Type u} {opens closes resets : Event → Prop}

/-- Between an opening event and any later closing one there is a reset. -/
def Separated (opens closes resets : Event → Prop) (events : List Event) : Prop :=
  ∀ before first between second after,
    events = before ++ first :: (between ++ second :: after) → opens first → closes second →
      ∃ event ∈ between, resets event

/-- No reset came since some opening event. -/
def Standing (opens resets : Event → Prop) (events : List Event) : Prop :=
  ∃ before first later, events = before ++ first :: later ∧ opens first ∧
    ∀ event ∈ later, ¬resets event

@[simp]
theorem separated_nil : Separated opens closes resets [] := by
  intro before first between second after equality
  simp at equality

@[simp]
theorem not_standing_nil : ¬Standing opens resets [] := by
  rintro ⟨before, first, later, equality, -⟩
  simp at equality

theorem standing_snoc_iff (events : List Event) (event : Event) :
    Standing opens resets (events ++ [event]) ↔
      opens event ∨ Standing opens resets events ∧ ¬resets event := by
  constructor
  · rintro ⟨before, first, later, equality, opened, quiet⟩
    rcases List.eq_nil_or_concat later with rfl | ⟨rest, last, rfl⟩
    · obtain ⟨-, same⟩ := List.append_inj' equality rfl
      obtain rfl : event = first := by simpa using same
      exact .inl opened
    · rw [List.concat_eq_append, ← List.cons_append, ← List.append_assoc] at equality
      obtain ⟨same, lastSame⟩ := List.append_inj' equality rfl
      obtain rfl : event = last := by simpa using lastSame
      refine .inr ⟨⟨before, first, rest, same, opened, ?_⟩, quiet event (by simp)⟩
      intro other membership
      exact quiet other (by simp [membership])
  · rintro (opened | ⟨⟨before, first, later, rfl, opened, quiet⟩, kept⟩)
    · exact ⟨events, event, [], rfl, opened, by simp⟩
    · refine ⟨before, first, later ++ [event], by simp, opened, ?_⟩
      intro other membership
      rcases List.mem_append.mp membership with earlier | last
      · exact quiet other earlier
      · rw [List.mem_singleton.mp last]
        exact kept

theorem standing_append_iff_of_forall {more : List Event}
    (quiet : ∀ event ∈ more, ¬opens event ∧ ¬resets event) (events : List Event) :
    Standing opens resets (events ++ more) ↔ Standing opens resets events := by
  induction more using List.reverseRecOn with
  | nil => rw [List.append_nil]
  | append_singleton more event inductionHypothesis =>
      obtain ⟨unopened, kept⟩ := quiet event (by simp)
      have earlier := inductionHypothesis fun other membership => quiet other (by simp [membership])
      rw [← List.append_assoc, standing_snoc_iff, earlier]
      exact ⟨fun later => (later.resolve_left unopened).1, fun standing => .inr ⟨standing, kept⟩⟩

/-- Whether an event stands is computed along the trace. -/
theorem standing_iff_foldl [DecidablePred opens] [DecidablePred resets] (events : List Event) :
    Standing opens resets events ↔ events.foldl
      (fun standing event => decide (opens event) || standing && !decide (resets event)) false = true := by
  induction events using List.reverseRecOn with
  | nil => simp
  | append_singleton events event inductionHypothesis =>
      rw [standing_snoc_iff, inductionHypothesis, List.foldl_append]
      simp

instance [DecidablePred opens] [DecidablePred resets] (events : List Event) :
    Decidable (Standing opens resets events) :=
  decidable_of_iff' _ (standing_iff_foldl events)

theorem separated_snoc_iff (events : List Event) (event : Event) :
    Separated opens closes resets (events ++ [event]) ↔
      Separated opens closes resets events ∧
        (closes event → ¬Standing opens resets events) := by
  constructor
  · intro separated
    constructor
    · intro before first between second after equality
      exact separated before first between second (after ++ [event]) (by simp [equality])
    · rintro closed ⟨before, first, later, rfl, opened, quiet⟩
      obtain ⟨other, membership, reset⟩ :=
        separated before first later event [] (by simp) opened closed
      exact quiet other membership reset
  · rintro ⟨separated, last⟩ before first between second after equality opened closed
    rcases List.eq_nil_or_concat after with rfl | ⟨rest, final, rfl⟩
    · rw [← List.cons_append, ← List.append_assoc] at equality
      obtain ⟨same, lastSame⟩ := List.append_inj' equality rfl
      obtain rfl : event = second := by simpa using lastSame
      by_contra unreset
      push Not at unreset
      exact last closed ⟨before, first, between, same, opened, unreset⟩
    · have longer : events ++ [event] =
          (before ++ first :: (between ++ second :: rest)) ++ [final] := by
        simpa using equality
      obtain ⟨shorter, -⟩ := List.append_inj' longer rfl
      exact separated before first between second rest shorter opened closed

/-! ## Laws about each event -/

/-- Each event satisfies the law after the events before it. -/
def Everywhere (law : List Event → Event → Prop) (events : List Event) : Prop :=
  ∀ before event after, events = before ++ event :: after → law before event

section Everywhere

variable {law : List Event → Event → Prop}

@[simp]
theorem everywhere_nil : Everywhere law [] := by
  intro before event after equality
  simp at equality

theorem everywhere_snoc_iff (events : List Event) (event : Event) :
    Everywhere law (events ++ [event]) ↔ Everywhere law events ∧ law events event := by
  constructor
  · intro everywhere
    refine ⟨fun before earlier after equality => ?_, everywhere events event [] rfl⟩
    exact everywhere before earlier (after ++ [event]) (by simp [equality])
  · rintro ⟨earlier, last⟩ before other after equality
    rcases List.eq_nil_or_concat after with rfl | ⟨rest, final, rfl⟩
    · obtain ⟨rfl, same⟩ := List.append_inj' equality rfl
      obtain rfl : event = other := by simpa using same
      exact last
    · rw [List.concat_eq_append, ← List.cons_append, ← List.append_assoc] at equality
      obtain ⟨shorter, -⟩ := List.append_inj' equality rfl
      exact earlier before other rest shorter

theorem everywhere_append_iff_of_forall {more : List Event}
    (free : ∀ event ∈ more, ∀ before, law before event) (events : List Event) :
    Everywhere law (events ++ more) ↔ Everywhere law events := by
  induction more using List.reverseRecOn with
  | nil => rw [List.append_nil]
  | append_singleton more event inductionHypothesis =>
      have earlier := inductionHypothesis fun other membership => free other (by simp [membership])
      rw [← List.append_assoc, everywhere_snoc_iff, earlier]
      exact and_iff_left (free event (by simp) _)

end Everywhere

/-! ## Counting since a reset -/

section Since

variable [DecidablePred resets] {counts : Event → Prop} [DecidablePred counts]

/-- How many of the counted events came since the last reset. -/
def since (resets counts : Event → Prop) [DecidablePred resets] [DecidablePred counts]
    (events : List Event) : Nat :=
  (events.rtakeWhile fun event => !decide (resets event)).countP fun event => decide (counts event)

theorem since_snoc (events : List Event) (event : Event) :
    since resets counts (events ++ [event]) =
      if resets event then 0 else since resets counts events + if counts event then 1 else 0 := by
  unfold since
  rw [List.rtakeWhile_concat]
  by_cases reset : resets event
  · simp [reset]
  · by_cases counted : counts event <;> simp [reset, counted, List.countP_append]

theorem since_le_since {more : Event → Prop} [DecidablePred more]
    (implies : ∀ event, resets event → more event) (events : List Event) :
    since more counts events ≤ since resets counts events := by
  induction events using List.reverseRecOn with
  | nil => exact Nat.le_refl 0
  | append_singleton events event inductionHypothesis =>
      rw [since_snoc, since_snoc]
      by_cases reset : more event
      · rw [if_pos reset]
        exact Nat.zero_le _
      · rw [if_neg reset, if_neg fun earlier => reset (implies event earlier)]
        exact Nat.add_le_add_right inductionHypothesis _

theorem since_append_of_forall {more : List Event}
    (quiet : ∀ event ∈ more, ¬resets event ∧ ¬counts event) (events : List Event) :
    since resets counts (events ++ more) = since resets counts events := by
  induction more using List.reverseRecOn with
  | nil => rw [List.append_nil]
  | append_singleton more event inductionHypothesis =>
      obtain ⟨kept, uncounted⟩ := quiet event (by simp)
      rw [← List.append_assoc, since_snoc, if_neg kept, if_neg uncounted, Nat.add_zero]
      exact inductionHypothesis fun other membership => quiet other (by simp [membership])

end Since

end WifiIot.Trace
