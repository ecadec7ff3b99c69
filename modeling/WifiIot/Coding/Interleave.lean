import Mathlib.Algebra.Order.Ring.Nat
import Mathlib.Data.List.Range
import Mathlib.Data.Nat.ModEq
import Mathlib.Tactic.Ring

/-!
# Interleaved blocks

Blocks of two lengths, the short ones first, are laid out column by column: the data
columns of all blocks, of which the last one has nothing from the short blocks, and the
check columns behind them.  Every place of the layout belongs to one byte of one block.
-/

namespace WifiIot.Coding

/-- Blocks of `short` data places or of one more, with `checks` places behind them. -/
structure Layout where
  count : Nat
  short : Nat
  shortCount : Nat
  checks : Nat
  positive : 0 < count
  few : shortCount ≤ count

namespace Layout

variable (layout : Layout)

def dataLen (i : Nat) : Nat := layout.short + if i < layout.shortCount then 0 else 1

def dataTotal : Nat := layout.short * layout.count + (layout.count - layout.shortCount)

def total : Nat := layout.dataTotal + layout.checks * layout.count

def dataPlace (i j : Nat) : Nat :=
  if j < layout.short then i + j * layout.count else i + j * layout.count - layout.shortCount

def checkPlace (i j : Nat) : Nat := layout.dataTotal + i + j * layout.count

variable {layout} {i j : Nat}

theorem eq_of_add_mul_eq {n i i' j j' : Nat} (small : i < n) (small' : i' < n)
    (same : i + j * n = i' + j' * n) : i = i' ∧ j = j' := by
  have column := congrArg (· % n) same
  simp only [Nat.add_mul_mod_self_right, Nat.mod_eq_of_lt small, Nat.mod_eq_of_lt small'] at column
  subst column
  exact ⟨rfl, Nat.eq_of_mul_eq_mul_right (Nat.zero_lt_of_lt small) (Nat.add_left_cancel same)⟩

/-- A byte of the data stands in column `j`, the one of a long block further left in the last. -/
theorem dataPlace_eq (block : i < layout.count) (inside : j < layout.dataLen i) :
    layout.dataPlace i j =
      (if j < layout.short then i else i - layout.shortCount) + j * layout.count ∧
    (if j < layout.short then i else i - layout.shortCount) <
      if j < layout.short then layout.count else layout.count - layout.shortCount := by
  rw [dataPlace]
  by_cases column : j < layout.short
  · rw [if_pos column, if_pos column, if_pos column]
    exact ⟨rfl, block⟩
  · have long : ¬i < layout.shortCount := by
      intro isShort
      rw [dataLen, if_pos isShort] at inside
      omega
    rw [if_neg column, if_neg column, if_neg column]
    omega

theorem column_le (inside : j < layout.dataLen i) : j ≤ layout.short := by
  rw [dataLen] at inside
  split at inside <;> omega

theorem dataPlace_lt (block : i < layout.count) (inside : j < layout.dataLen i) :
    layout.dataPlace i j < layout.dataTotal := by
  obtain ⟨same, small⟩ := dataPlace_eq block inside
  rw [same, dataTotal]
  by_cases column : j < layout.short
  · rw [if_pos column, if_pos column] at small
    rw [if_pos column]
    have rows : (j + 1) * layout.count ≤ layout.short * layout.count :=
      Nat.mul_le_mul_right _ column
    rw [Nat.succ_mul] at rows
    omega
  · have last : j = layout.short := by
      have := column_le inside
      omega
    rw [if_neg column, if_neg column] at small
    rw [if_neg column, last]
    omega

theorem dataPlace_inj {i' j' : Nat} (block : i < layout.count) (inside : j < layout.dataLen i)
    (block' : i' < layout.count) (inside' : j' < layout.dataLen i')
    (same : layout.dataPlace i j = layout.dataPlace i' j') : i = i' ∧ j = j' := by
  obtain ⟨place, small⟩ := dataPlace_eq block inside
  obtain ⟨place', small'⟩ := dataPlace_eq block' inside'
  rw [place, place'] at same
  have bound : ∀ j i : Nat, (if j < layout.short then i else i - layout.shortCount) <
      (if j < layout.short then layout.count else layout.count - layout.shortCount) →
      (if j < layout.short then i else i - layout.shortCount) < layout.count := by
    intro j i less
    by_cases column : j < layout.short
    · rw [if_pos column, if_pos column] at less
      rwa [if_pos column]
    · rw [if_neg column, if_neg column] at less
      rw [if_neg column]
      omega
  obtain ⟨columns, rows⟩ := eq_of_add_mul_eq (bound j i small) (bound j' i' small') same
  subst rows
  refine ⟨?_, rfl⟩
  by_cases column : j < layout.short
  · rwa [if_pos column, if_pos column] at columns
  · have long : ∀ i, j < layout.dataLen i → ¬i < layout.shortCount := by
      intro i inside isShort
      rw [dataLen, if_pos isShort] at inside
      omega
    have first := long i inside
    have second := long i' inside'
    rw [if_neg column, if_neg column] at columns
    omega

theorem dataTotal_le_checkPlace : layout.dataTotal ≤ layout.checkPlace i j := by
  rw [checkPlace, Nat.add_assoc]
  exact Nat.le_add_right _ _

theorem checkPlace_lt (block : i < layout.count) (inside : j < layout.checks) :
    layout.checkPlace i j < layout.total := by
  have rows : (j + 1) * layout.count ≤ layout.checks * layout.count := Nat.mul_le_mul_right _ inside
  rw [Nat.succ_mul] at rows
  rw [checkPlace, total]
  omega

theorem checkPlace_inj {i' j' : Nat} (block : i < layout.count) (block' : i' < layout.count)
    (same : layout.checkPlace i j = layout.checkPlace i' j') : i = i' ∧ j = j' := by
  rw [checkPlace, checkPlace] at same
  exact eq_of_add_mul_eq block block' (by omega)

theorem dataPlace_ne_checkPlace {i' j' : Nat} (block : i < layout.count)
    (inside : j < layout.dataLen i) : layout.dataPlace i j ≠ layout.checkPlace i' j' :=
  Nat.ne_of_lt (lt_of_lt_of_le (dataPlace_lt block inside) dataTotal_le_checkPlace)

theorem exists_place {k : Nat} (inside : k < layout.total) : ∃ i < layout.count, ∃ j,
    (j < layout.dataLen i ∧ k = layout.dataPlace i j) ∨
      (j < layout.checks ∧ k = layout.checkPlace i j) := by
  have parts : ∀ rest, rest = rest % layout.count + rest / layout.count * layout.count := by
    intro rest
    rw [Nat.mul_comm]
    exact (Nat.mod_add_div rest layout.count).symm
  by_cases data : k < layout.dataTotal
  · by_cases early : k < layout.short * layout.count
    · have column : k / layout.count < layout.short := Nat.div_lt_of_lt_mul (by rwa [Nat.mul_comm])
      refine ⟨k % layout.count, Nat.mod_lt _ layout.positive, k / layout.count, .inl ⟨?_, ?_⟩⟩
      · rw [dataLen]
        omega
      · rw [dataPlace, if_pos column]
        exact parts k
    · rw [dataTotal] at data
      refine ⟨k - layout.short * layout.count + layout.shortCount, by omega, layout.short,
        .inl ⟨?_, ?_⟩⟩
      · rw [dataLen, if_neg (by omega)]
        omega
      · rw [dataPlace, if_neg (lt_irrefl _)]
        omega
  · rw [total] at inside
    have rows : (k - layout.dataTotal) / layout.count < layout.checks :=
      Nat.div_lt_of_lt_mul (by rw [Nat.mul_comm]; omega)
    refine ⟨(k - layout.dataTotal) % layout.count, Nat.mod_lt _ layout.positive,
      (k - layout.dataTotal) / layout.count, .inr ⟨rows, ?_⟩⟩
    have same := parts (k - layout.dataTotal)
    rw [checkPlace]
    omega

/-! ## The blocks of the data -/

def start (layout : Layout) : Nat → Nat
  | 0 => 0
  | i + 1 => layout.start i + layout.dataLen i

theorem start_eq (within : i ≤ layout.count) :
    layout.start i = i * layout.short + (i - layout.shortCount) := by
  induction i with
  | zero => simp [start]
  | succ i inductionHypothesis =>
      rw [start, inductionHypothesis (by omega), dataLen, Nat.succ_mul]
      split <;> omega

theorem start_count : layout.start layout.count = layout.dataTotal := by
  rw [start_eq (le_refl _), dataTotal, Nat.mul_comm]

theorem start_mono {i' : Nat} (before : i ≤ i') : layout.start i ≤ layout.start i' := by
  induction i' with
  | zero => rw [Nat.le_zero.mp before]
  | succ i' inductionHypothesis =>
      rcases Nat.le_succ_iff.mp before with earlier | rfl
      · exact le_trans (inductionHypothesis earlier) (Nat.le_add_right _ _)
      · exact le_refl _

theorem start_add_dataLen_le (block : i < layout.count) :
    layout.start i + layout.dataLen i ≤ layout.dataTotal := by
  rw [← start_count]
  exact start_mono (show i + 1 ≤ layout.count from block)

theorem flatMap_blocks {Symbol : Type} (data : List Symbol) (count : Nat) :
    (List.range count).flatMap (fun i => (data.drop (layout.start i)).take (layout.dataLen i)) =
      data.take (layout.start count) := by
  induction count with
  | zero => rw [start, List.take_zero]; rfl
  | succ count inductionHypothesis =>
      rw [List.range_succ, List.flatMap_append, inductionHypothesis, List.flatMap_singleton, start,
        List.take_add]

end Layout

end WifiIot.Coding
