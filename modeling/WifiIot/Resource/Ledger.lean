import Mathlib.Data.Finset.Basic
import Mathlib.Data.List.Count

/-!
# Ledgers of resources

A ledger records when a resource (a descriptor, a lock, a buffer) is acquired
and when it is released.  Names may be reused: what matters is that nothing is
acquired while it is held, and nothing released while it is not.
-/

namespace WifiIot

universe u

inductive Entry (Resource : Type u) where
  | acquired (resource : Resource)
  | released (resource : Resource)
  deriving DecidableEq

namespace Ledger

variable {Resource : Type u} [DecidableEq Resource]

/-- The effect of one entry on the set of held resources. -/
def apply (held : Finset Resource) : Entry Resource → Finset Resource
  | .acquired resource => insert resource held
  | .released resource => held.erase resource

/-- The resources acquired and not released since. -/
def held (ledger : List (Entry Resource)) : Finset Resource :=
  ledger.foldl apply ∅

/-- An entry is legal when it changes the set of held resources. -/
def Legal (held : Finset Resource) : Entry Resource → Prop
  | .acquired resource => resource ∉ held
  | .released resource => resource ∈ held

/-- Ledgers all of whose entries are legal. -/
inductive Disciplined : List (Entry Resource) → Prop where
  | nil : Disciplined []
  | snoc {ledger entry} :
      Disciplined ledger → Legal (held ledger) entry → Disciplined (ledger ++ [entry])

@[simp]
theorem held_nil : held ([] : List (Entry Resource)) = ∅ := rfl

@[simp]
theorem held_append_acquired (ledger : List (Entry Resource)) (resource : Resource) :
    held (ledger ++ [.acquired resource]) = insert resource (held ledger) := by
  simp [held, apply]

@[simp]
theorem held_append_released (ledger : List (Entry Resource)) (resource : Resource) :
    held (ledger ++ [.released resource]) = (held ledger).erase resource := by
  simp [held, apply]

theorem Disciplined.acquire {ledger : List (Entry Resource)} (disciplined : Disciplined ledger)
    {resource : Resource} (fresh : resource ∉ held ledger) :
    Disciplined (ledger ++ [.acquired resource]) :=
  .snoc disciplined fresh

theorem Disciplined.release {ledger : List (Entry Resource)} (disciplined : Disciplined ledger)
    {resource : Resource} (present : resource ∈ held ledger) :
    Disciplined (ledger ++ [.released resource]) :=
  .snoc disciplined present

/-- In a disciplined ledger every acquisition but the one still held has
exactly one release. -/
theorem Disciplined.count_acquired {ledger : List (Entry Resource)}
    (disciplined : Disciplined ledger) (resource : Resource) :
    ledger.count (.acquired resource) =
      ledger.count (.released resource) + if resource ∈ held ledger then 1 else 0 := by
  induction disciplined with
  | nil => simp
  | @snoc ledger entry _ legal inductionHypothesis =>
      cases entry with
      | acquired other =>
          by_cases same : other = resource
          · subst other
            have fresh : resource ∉ held ledger := legal
            simp [inductionHypothesis, fresh]
          · simp [inductionHypothesis, same, Ne.symm same]
      | released other =>
          by_cases same : other = resource
          · subst other
            have present : resource ∈ held ledger := legal
            simp [inductionHypothesis, present]
          · simp [inductionHypothesis, same, Ne.symm same]

theorem Disciplined.balanced {ledger : List (Entry Resource)} (disciplined : Disciplined ledger)
    (empty : held ledger = ∅) (resource : Resource) :
    ledger.count (.acquired resource) = ledger.count (.released resource) := by
  simpa [empty] using disciplined.count_acquired resource

end Ledger

end WifiIot
