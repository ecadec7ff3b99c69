import Mathlib.Data.Finset.Card
import Mathlib.Data.Fintype.Card

/-!
# Fixed tables with vacant entries

A table of fixed size whose entries are either a value or a distinguished
vacancy mark.  `Represents` says that a table holds each element of a set
exactly once; storing, clearing and moving an entry are its three updates.
-/

namespace WifiIot.Table

universe u v

variable {Index : Type u} {Value : Type v} [DecidableEq Index] [DecidableEq Value]

section Occupancy

variable [Fintype Index] (vacant : Value)

def occupied (table : Index → Value) : Finset Index :=
  Finset.univ.filter fun index => table index ≠ vacant

def occupancy (table : Index → Value) : Nat := (occupied vacant table).card

variable {vacant} {table : Index → Value}

omit [DecidableEq Index] in
@[simp]
theorem mem_occupied (index : Index) : index ∈ occupied vacant table ↔ table index ≠ vacant := by
  simp [occupied]

omit [DecidableEq Index] in
theorem occupancy_eq_zero_iff : occupancy vacant table = 0 ↔ ∀ index, table index = vacant := by
  simp [occupancy, Finset.card_eq_zero, Finset.eq_empty_iff_forall_notMem]

theorem occupied_store {index : Index} {value : Value} (used : value ≠ vacant) :
    occupied vacant (Function.update table index value) =
      insert index (occupied vacant table) := by
  ext other
  by_cases same : other = index
  · subst other
    simp [used]
  · simp [same]

theorem occupied_clear {index : Index} :
    occupied vacant (Function.update table index vacant) =
      (occupied vacant table).erase index := by
  ext other
  by_cases same : other = index
  · subst other
    simp
  · simp [same]

theorem occupancy_store (vacant : Value) (table : Index → Value) (index : Index) (value : Value)
    (free : table index = vacant) (used : value ≠ vacant) :
    occupancy vacant (Function.update table index value) = occupancy vacant table + 1 := by
  rw [occupancy, occupied_store used, Finset.card_insert_of_notMem (by simp [free]), occupancy]

theorem occupancy_clear (vacant : Value) (table : Index → Value) (index : Index)
    (used : table index ≠ vacant) :
    occupancy vacant (Function.update table index vacant) + 1 = occupancy vacant table := by
  have present : index ∈ occupied vacant table := by simpa using used
  rw [occupancy, occupied_clear, Finset.card_erase_add_one present, occupancy]

theorem occupancy_move (vacant : Value) (table : Index → Value) (source target : Index)
    (value : Value)
    (used : table source ≠ vacant) (free : table target = vacant) (kept : value ≠ vacant) :
    occupancy vacant (Function.update (Function.update table source vacant) target value) =
      occupancy vacant table := by
  have different : target ≠ source := by
    rintro rfl
    exact used free
  rw [occupancy_store vacant _ target value (by simp [different, free]) kept,
    occupancy_clear vacant table source used]

omit [DecidableEq Index] in
theorem occupancy_mono {next : Index → Value}
    (cleared : ∀ index, table index = vacant → next index = vacant) :
    occupancy vacant next ≤ occupancy vacant table := by
  apply Finset.card_le_card
  intro index membership
  rw [mem_occupied] at membership ⊢
  intro free
  exact membership (cleared index free)

theorem occupancy_update_le {index : Index} {value : Value}
    (cleared : table index = vacant → value = vacant) :
    occupancy vacant (Function.update table index value) ≤ occupancy vacant table := by
  apply occupancy_mono
  intro other free
  by_cases here : other = index
  · subst other
    simpa using cleared free
  · rwa [Function.update_of_ne here]

theorem occupancy_le_update {index : Index} {value : Value}
    (cleared : value = vacant → table index = vacant) :
    occupancy vacant table ≤ occupancy vacant (Function.update table index value) := by
  apply occupancy_mono
  intro other free
  by_cases here : other = index
  · subst other
    exact cleared (by simpa using free)
  · rwa [Function.update_of_ne here] at free

theorem occupancy_update_le_succ (vacant : Value) (table : Index → Value) (index : Index)
    (value : Value) :
    occupancy vacant (Function.update table index value) ≤ occupancy vacant table + 1 := by
  by_cases unused : table index = vacant → value = vacant
  · exact le_trans (occupancy_update_le unused) (Nat.le_succ _)
  · obtain ⟨free, used⟩ := Classical.not_imp.mp unused
    exact (occupancy_store vacant table index value free used).le

omit [DecidableEq Index] in
/-- Among more entries than are in use there is a vacant one. -/
theorem exists_vacant {candidates : Finset Index}
    (room : occupancy vacant table < candidates.card) :
    ∃ index ∈ candidates, table index = vacant := by
  obtain ⟨index, candidate, unused⟩ := Finset.exists_mem_notMem_of_card_lt_card room
  exact ⟨index, candidate, by simpa using unused⟩

end Occupancy

/-- The entries in use are the elements of the set, each stored once. -/
structure Represents (vacant : Value) (table : Index → Value) (stored : Finset Value) : Prop where
  mem_iff : ∀ value, value ∈ stored ↔ value ≠ vacant ∧ ∃ index, table index = value
  distinct : ∀ first second, table first = table second → table first ≠ vacant → first = second

namespace Represents

variable {vacant : Value} {table : Index → Value} {stored : Finset Value}

omit [DecidableEq Index] [DecidableEq Value] in
theorem empty (clear : ∀ index, table index = vacant) : Represents vacant table ∅ where
  mem_iff value := by simp [clear]; exact fun used _ => Ne.symm used
  distinct first _ _ used := absurd (clear first) used

omit [DecidableEq Index] [DecidableEq Value] in
theorem mem (represents : Represents vacant table stored) {index : Index}
    (used : table index ≠ vacant) : table index ∈ stored :=
  (represents.mem_iff _).mpr ⟨used, index, rfl⟩

theorem store (represents : Represents vacant table stored) {index : Index} {value : Value}
    (free : table index = vacant) (used : value ≠ vacant) (fresh : value ∉ stored) :
    Represents vacant (Function.update table index value) (insert value stored) := by
  have absent : ∀ other, table other ≠ value := fun other same =>
    fresh ((represents.mem_iff value).mpr ⟨used, other, same⟩)
  constructor
  · intro other
    rw [Finset.mem_insert, represents.mem_iff]
    constructor
    · rintro (rfl | ⟨different, position, same⟩)
      · exact ⟨used, index, by simp⟩
      · refine ⟨different, position, ?_⟩
        have elsewhere : position ≠ index := by
          rintro rfl
          exact different (same.symm.trans free)
        simpa [elsewhere] using same
    · rintro ⟨different, position, same⟩
      by_cases here : position = index
      · subst position
        exact .inl (by simpa using same.symm)
      · exact .inr ⟨different, position, by simpa [here] using same⟩
  · intro first second same different
    by_cases left : first = index <;> by_cases right : second = index
    · exact left.trans right.symm
    · subst first
      exact absurd (by simpa [right] using same.symm) (absent second)
    · subst second
      exact absurd (by simpa [left] using same) (absent first)
    · simp only [Function.update_of_ne left, Function.update_of_ne right] at same different
      exact represents.distinct first second same different

theorem clear (represents : Represents vacant table stored) {index : Index}
    (used : table index ≠ vacant) :
    Represents vacant (Function.update table index vacant) (stored.erase (table index)) := by
  constructor
  · intro value
    rw [Finset.mem_erase, represents.mem_iff]
    constructor
    · rintro ⟨different, present, position, rfl⟩
      have elsewhere : position ≠ index := by
        rintro rfl
        exact different rfl
      exact ⟨present, position, by simp [elsewhere]⟩
    · rintro ⟨present, position, same⟩
      have elsewhere : position ≠ index := by
        rintro rfl
        exact present (by simpa using same.symm)
      simp only [Function.update_of_ne elsewhere] at same
      refine ⟨?_, present, position, same⟩
      rintro rfl
      exact elsewhere (represents.distinct position index same (by rwa [same]))
  · intro first second same different
    have left : first ≠ index := by
      rintro rfl
      simp at different
    simp only [Function.update_of_ne left] at same different
    by_cases right : second = index
    · subst second
      simp only [Function.update_self] at same
      exact absurd same different
    · simp only [Function.update_of_ne right] at same
      exact represents.distinct first second same different

theorem move (represents : Represents vacant table stored) {source target : Index}
    (used : table source ≠ vacant) (free : table target = vacant) :
    Represents vacant
      (Function.update (Function.update table source vacant) target (table source)) stored := by
  have different : target ≠ source := by
    rintro rfl
    exact used free
  have moved : Represents vacant
      (Function.update (Function.update table source vacant) target (table source))
      (insert (table source) (stored.erase (table source))) :=
    (represents.clear used).store (by simp [different, free]) used (by simp)
  rwa [Finset.insert_erase (represents.mem used)] at moved

end Represents

end WifiIot.Table
