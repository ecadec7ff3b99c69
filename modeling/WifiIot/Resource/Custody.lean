import WifiIot.Resource.Ledger
import WifiIot.Resource.Table

/-!
# A table that owns resources

The entries of a table are resources that its owner has acquired.  Most steps
keep table and ledger together; a resource is lost when it is acquired and not
stored, or its entry is cleared and it is not released.  A lost resource is
never released again, for nobody knows it.
-/

namespace WifiIot

open Ledger Table

universe u v

variable {Index : Type u} {Value : Type v} [DecidableEq Index] [DecidableEq Value]

namespace Table

omit [DecidableEq Index] [DecidableEq Value] in
theorem Represents.unique {vacant : Value} {table : Index → Value} {first second : Finset Value}
    (left : Represents vacant table first) (right : Represents vacant table second) :
    first = second := by
  ext value
  rw [left.mem_iff, right.mem_iff]

omit [DecidableEq Index] [DecidableEq Value] in
theorem Represents.iff_eq {vacant : Value} {table : Index → Value} {stored other : Finset Value}
    (represents : Represents vacant table stored) :
    Represents vacant table other ↔ stored = other := by
  constructor
  · exact represents.unique
  · rintro rfl
    exact represents

end Table

/-- Every entry in use is held, and the ledger is disciplined. -/
structure Custody (vacant : Value) (table : Index → Value) (ledger : List (Entry Value)) :
    Prop where
  disciplined : Disciplined ledger
  stored : ∃ stored ⊆ held ledger, Represents vacant table stored

namespace Custody

/-- The steps that lose nothing, with what they enter into the ledger. -/
inductive Keeping (vacant : Value) (held : Finset Value) (table : Index → Value) :
    List (Entry Value) → (Index → Value) → Prop where
  | idle : Keeping vacant held table [] table
  | pass {value} : value ∉ held →
      Keeping vacant held table [.acquired value, .released value] table
  | store (index) {value} : table index = vacant → value ≠ vacant → value ∉ held →
      Keeping vacant held table [.acquired value] (Function.update table index value)
  | release (index) : table index ≠ vacant →
      Keeping vacant held table [.released (table index)] (Function.update table index vacant)
  | move (source target) : table source ≠ vacant → table target = vacant →
      Keeping vacant held table []
        (Function.update (Function.update table source vacant) target (table source))

inductive Losing (vacant : Value) (held : Finset Value) (table : Index → Value) :
    List (Entry Value) → (Index → Value) → Prop where
  | forget (index) : table index ≠ vacant →
      Losing vacant held table [] (Function.update table index vacant)
  | unstored {value} : value ∉ held → Losing vacant held table [.acquired value] table

variable {vacant : Value} {table next : Index → Value} {ledger entries : List (Entry Value)}

omit [DecidableEq Index] in
theorem empty (clear : ∀ index, table index = vacant) : Custody vacant table [] where
  disciplined := .nil
  stored := ⟨∅, subset_rfl, .empty clear⟩

theorem keep (custody : Custody vacant table ledger)
    (keeping : Keeping vacant (held ledger) table entries next) :
    Custody vacant next (ledger ++ entries) ∧
      (Represents vacant next (held (ledger ++ entries)) ↔
        Represents vacant table (held ledger)) := by
  obtain ⟨disciplined, stored, opened, represents⟩ := custody
  cases keeping with
  | idle =>
      rw [List.append_nil]
      exact ⟨⟨disciplined, stored, opened, represents⟩, Iff.rfl⟩
  | @pass value fresh =>
      have split : ledger ++ [.acquired value, .released value] =
          (ledger ++ [.acquired value]) ++ [.released value] := List.append_cons ..
      have same : held (ledger ++ [.acquired value, .released value]) = held ledger := by
        rw [split, held_append_released, held_append_acquired, Finset.erase_insert fresh]
      rw [same]
      refine ⟨⟨?_, stored, by rwa [same], represents⟩, Iff.rfl⟩
      rw [split]
      exact (disciplined.acquire fresh).release (by simp)
  | @store index value free used fresh =>
      have absent : value ∉ stored := fun membership => fresh (opened membership)
      have after := represents.store free used absent
      rw [held_append_acquired, after.iff_eq, represents.iff_eq]
      refine ⟨⟨disciplined.acquire fresh, _, ?_, after⟩, ?_⟩
      · rw [held_append_acquired]
        exact Finset.insert_subset_insert value opened
      · constructor
        · intro same
          rw [← Finset.erase_insert absent, same, Finset.erase_insert fresh]
        · rintro rfl
          rfl
  | @release index used =>
      have present := represents.mem used
      have after := represents.clear used
      rw [held_append_released, after.iff_eq, represents.iff_eq]
      refine ⟨⟨disciplined.release (opened present), _, ?_, after⟩, ?_⟩
      · rw [held_append_released]
        exact Finset.erase_subset_erase _ opened
      · constructor
        · intro same
          rw [← Finset.insert_erase present, same, Finset.insert_erase (opened present)]
        · rintro rfl
          rfl
  | @move source target used free =>
      have after := represents.move used free
      rw [List.append_nil, after.iff_eq, represents.iff_eq]
      exact ⟨⟨disciplined, stored, opened, after⟩, Iff.rfl⟩

theorem lose (custody : Custody vacant table ledger)
    (losing : Losing vacant (held ledger) table entries next) :
    Custody vacant next (ledger ++ entries) ∧
      ¬Represents vacant next (held (ledger ++ entries)) := by
  obtain ⟨disciplined, stored, opened, represents⟩ := custody
  cases losing with
  | @forget index used =>
      have present := represents.mem used
      have after := represents.clear used
      rw [List.append_nil]
      refine ⟨⟨disciplined, _, (Finset.erase_subset ..).trans opened, after⟩, fun exact_ => ?_⟩
      have same := after.unique exact_
      exact Finset.notMem_erase _ _ (same ▸ opened present)
  | @unstored value fresh =>
      rw [held_append_acquired]
      refine ⟨⟨disciplined.acquire fresh, stored, ?_, represents⟩, fun exact_ => ?_⟩
      · rw [held_append_acquired]
        exact opened.trans (Finset.subset_insert ..)
      · have same := represents.unique exact_
        exact fresh (opened (same ▸ Finset.mem_insert_self value (held ledger)))

end Custody

end WifiIot
