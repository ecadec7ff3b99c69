import Mathlib.Algebra.Order.Ring.Nat
import Mathlib.Data.List.Basic
import Mathlib.Data.List.Induction
import Mathlib.Data.Nat.Bitwise
import Mathlib.Tactic.Ring

/-!
# Characters in groups

Some characters together are a number, and the number is written with a fixed count of
bits; the characters that are left over in the end get fewer bits.  A writer that takes
one character after the other, and a reader that knows how many there are.
-/

namespace WifiIot.Coding

/-! ## Numbers and their bits -/

/-- The low bits of a number, the highest one first. -/
def valueBits (val numBits : Nat) : List Bool := (List.range numBits).reverse.map val.testBit

def toValue (bits : List Bool) : Nat := bits.foldl (fun val bit => 2 * val + bit.toNat) 0

@[simp]
theorem length_valueBits (val numBits : Nat) : (valueBits val numBits).length = numBits := by
  rw [valueBits, List.length_map, List.length_reverse, List.length_range]

theorem valueBits_succ (val numBits : Nat) :
    valueBits val (numBits + 1) = val.testBit numBits :: valueBits val numBits := by
  rw [valueBits, List.range_succ, List.reverse_append, List.reverse_singleton, List.map_append,
    List.map_singleton, List.singleton_append, valueBits]

theorem toValue_valueBits {val numBits : Nat} (small : val < 2 ^ numBits) :
    toValue (valueBits val numBits) = val := by
  have rounds : ∀ start, (valueBits val numBits).foldl (fun val bit => 2 * val + bit.toNat) start =
      start * 2 ^ numBits + val % 2 ^ numBits := by
    clear small
    induction numBits with
    | zero => exact fun start => by simp [valueBits, Nat.mod_one]
    | succ numBits inductionHypothesis =>
        intro start
        rw [valueBits_succ, List.foldl_cons, inductionHypothesis, Nat.mod_pow_succ, ← Nat.toNat_testBit,
          pow_succ]
        ring
  rw [toValue, rounds, Nat.zero_mul, Nat.zero_add, Nat.mod_eq_of_lt small]

/-! ## Digits -/

def horner (base : Nat) (values : List Nat) : Nat :=
  values.foldl (fun val digit => val * base + digit) 0

def digits (base : Nat) : Nat → Nat → List Nat
  | 0, _ => []
  | count + 1, val => digits base count (val / base) ++ [val % base]

variable {base : Nat} {values : List Nat}

theorem horner_concat (values : List Nat) (last : Nat) :
    horner base (values ++ [last]) = horner base values * base + last := by
  rw [horner, List.foldl_append]
  rfl

theorem horner_lt (small : ∀ value ∈ values, value < base) : horner base values < base ^ values.length := by
  induction values using List.reverseRecOn with
  | nil => exact Nat.one_pos
  | append_singleton values last inductionHypothesis =>
      have rest := inductionHypothesis fun value mem => small value (List.mem_append_left _ mem)
      have here := small last (List.mem_append_right _ (List.mem_singleton.mpr rfl))
      rw [horner_concat, List.length_append, List.length_singleton, pow_succ]
      calc
        horner base values * base + last < horner base values * base + base := Nat.add_lt_add_left here _
        _ = (horner base values + 1) * base := (Nat.succ_mul _ _).symm
        _ ≤ base ^ values.length * base := Nat.mul_le_mul_right _ rest

theorem digits_horner (small : ∀ value ∈ values, value < base) :
    digits base values.length (horner base values) = values := by
  induction values using List.reverseRecOn with
  | nil => rfl
  | append_singleton values last inductionHypothesis =>
      have rest := inductionHypothesis fun value mem => small value (List.mem_append_left _ mem)
      have here := small last (List.mem_append_right _ (List.mem_singleton.mpr rfl))
      have positive : 0 < base := Nat.zero_lt_of_lt here
      have quotient : (horner base values * base + last) / base = horner base values := by
        rw [Nat.mul_comm, Nat.mul_add_div positive, Nat.div_eq_of_lt here, Nat.add_zero]
      have remainder : (horner base values * base + last) % base = last := by
        rw [Nat.mul_comm, Nat.mul_add_mod, Nat.mod_eq_of_lt here]
      rw [horner_concat, List.length_append, List.length_singleton, digits, quotient, remainder, rest]

/-! ## Groups -/

/-- `size` characters below `base` make `width` bits; fewer of them make `rest` bits. -/
structure Grouping where
  base : Nat
  size : Nat
  width : Nat
  rest : Nat → Nat
  positive : 0 < size
  enough : base ^ size ≤ 2 ^ width
  enoughRest : ∀ count < size, base ^ count ≤ 2 ^ rest count

namespace Grouping

variable (grouping : Grouping)

/-- What has been written, and the characters of the group that is not full. -/
structure State where
  data : Nat
  count : Nat
  bits : List Bool

def push (state : State) (value : Nat) : State :=
  let data := state.data * grouping.base + value
  if state.count + 1 = grouping.size then ⟨0, 0, state.bits ++ valueBits data grouping.width⟩
  else ⟨data, state.count + 1, state.bits⟩

def finish (state : State) : List Bool :=
  if 0 < state.count then state.bits ++ valueBits state.data (grouping.rest state.count)
  else state.bits

def group (bits : List Bool) (index : Nat) : List Bool :=
  (bits.drop (index * grouping.width)).take grouping.width

def readGroups (groups : Nat) (bits : List Bool) : List Nat :=
  (List.range groups).flatMap fun index =>
    digits grouping.base grouping.size (toValue (grouping.group bits index))

def readValues (count : Nat) (bits : List Bool) : List Nat :=
  grouping.readGroups (count / grouping.size) bits ++
    digits grouping.base (count % grouping.size)
      (toValue ((bits.drop (count / grouping.size * grouping.width)).take
        (grouping.rest (count % grouping.size))))

def bitLength (count : Nat) : Nat :=
  count / grouping.size * grouping.width +
    if count % grouping.size = 0 then 0 else grouping.rest (count % grouping.size)

variable {grouping}

theorem readGroups_append {groups : Nat} {bits : List Bool}
    (length : groups * grouping.width ≤ bits.length) (behind : List Bool) :
    grouping.readGroups groups (bits ++ behind) = grouping.readGroups groups bits := by
  refine List.flatMap_congr fun index mem => ?_
  have inside : (index + 1) * grouping.width ≤ groups * grouping.width :=
    Nat.mul_le_mul_right _ (List.mem_range.mp mem)
  rw [Nat.succ_mul] at inside
  rw [group, group, List.drop_append_of_le_length (by omega),
    List.take_append_of_le_length (by rw [List.length_drop]; omega)]

theorem readGroups_succ {groups : Nat} {bits last : List Bool}
    (length : bits.length = groups * grouping.width) (full : last.length = grouping.width) :
    grouping.readGroups (groups + 1) (bits ++ last) =
      grouping.readGroups groups bits ++ digits grouping.base grouping.size (toValue last) := by
  have here : grouping.group (bits ++ last) groups = last := by
    rw [group, List.drop_left' length, List.take_of_length_le (le_of_eq full)]
  have front : grouping.readGroups groups (bits ++ last) = grouping.readGroups groups bits :=
    readGroups_append (le_of_eq length.symm) last
  rw [readGroups, List.range_succ, List.flatMap_append, List.flatMap_singleton, here]
  exact congrArg (· ++ _) front

/-- The groups that have been written are those of the characters so far. -/
structure Written (grouping : Grouping) (state : State) (values : List Nat) : Prop where
  room : state.count < grouping.size
  groups : ∃ groups pending, values = grouping.readGroups groups state.bits ++ pending ∧
    (grouping.readGroups groups state.bits).length = groups * grouping.size ∧
    pending.length = state.count ∧ state.data = horner grouping.base pending ∧
    state.bits.length = groups * grouping.width

theorem written_nil : Written grouping ⟨0, 0, []⟩ [] :=
  ⟨grouping.positive, 0, [], rfl, (Nat.zero_mul _).symm, rfl, rfl, (Nat.zero_mul _).symm⟩

theorem Written.length_bits {state : State} {values : List Nat} (written : Written grouping state values) :
    state.bits.length = values.length / grouping.size * grouping.width ∧
      state.count = values.length % grouping.size := by
  obtain ⟨groups, pending, same, whole, length, -, bits⟩ := written.groups
  have total : values.length = grouping.size * groups + state.count := by
    rw [same, List.length_append, whole, length, Nat.mul_comm]
  rw [total, Nat.mul_add_div grouping.positive, Nat.div_eq_of_lt written.room, Nat.add_zero,
    Nat.mul_add_mod, Nat.mod_eq_of_lt written.room]
  exact ⟨bits, rfl⟩

theorem Written.data_lt {state : State} {values : List Nat} (written : Written grouping state values)
    (small : ∀ value ∈ values, value < grouping.base) :
    state.data < grouping.base ^ state.count := by
  obtain ⟨groups, pending, rfl, -, length, data, -⟩ := written.groups
  rw [data, ← length]
  exact horner_lt fun value mem => small value (List.mem_append_right _ mem)

theorem Written.push {state : State} {values : List Nat} (written : Written grouping state values)
    {value : Nat} (small : ∀ other ∈ values ++ [value], other < grouping.base) :
    Written grouping (grouping.push state value) (values ++ [value]) := by
  obtain ⟨groups, pending, rfl, whole, length, data, bits⟩ := written.groups
  have room := written.room
  have next : state.data * grouping.base + value = horner grouping.base (pending ++ [value]) := by
    rw [horner_concat, data]
  have pendingSmall : ∀ other ∈ pending ++ [value], other < grouping.base := by
    intro other mem
    refine small other ?_
    rw [List.append_assoc]
    exact List.mem_append_right _ mem
  have longer : (pending ++ [value]).length = state.count + 1 := by
    rw [List.length_append, List.length_singleton, length]
  rw [Grouping.push]
  by_cases full : state.count + 1 = grouping.size
  · have bounded : state.data * grouping.base + value < 2 ^ grouping.width := by
      rw [next]
      refine lt_of_lt_of_le (horner_lt pendingSmall) ?_
      rw [longer, full]
      exact grouping.enough
    have last : digits grouping.base grouping.size
        (toValue (valueBits (state.data * grouping.base + value) grouping.width)) =
          pending ++ [value] := by
      rw [toValue_valueBits bounded, next, ← full, ← longer]
      exact digits_horner pendingSmall
    have all : grouping.readGroups (groups + 1) (state.bits ++
        valueBits (state.data * grouping.base + value) grouping.width) =
          grouping.readGroups groups state.bits ++ (pending ++ [value]) := by
      rw [readGroups_succ bits (length_valueBits _ _), last]
    simp only [if_pos full]
    refine ⟨grouping.positive, groups + 1, [], ?_, ?_, rfl, rfl, ?_⟩
    · rw [all, List.append_nil, List.append_assoc]
    · rw [all, List.length_append, whole, longer, full, Nat.succ_mul]
    · rw [List.length_append, bits, length_valueBits, Nat.succ_mul]
  · simp only [if_neg full]
    exact ⟨by change state.count + 1 < _; omega, groups, pending ++ [value],
      by rw [List.append_assoc], whole, longer, next, bits⟩

/-- The reader gets the characters back, whatever stands behind their bits. -/
theorem Written.readValues {state : State} {values : List Nat} (written : Written grouping state values)
    (small : ∀ value ∈ values, value < grouping.base) (behind : List Bool) :
    (grouping.finish state).length = grouping.bitLength values.length ∧
      grouping.readValues values.length (grouping.finish state ++ behind) = values := by
  obtain ⟨groups, pending, same, whole, length, data, bits⟩ := written.groups
  have room := written.room
  have total : values.length = grouping.size * groups + state.count := by
    rw [same, List.length_append, whole, length, Nat.mul_comm]
  have quotient : values.length / grouping.size = groups := by
    rw [total, Nat.mul_add_div grouping.positive, Nat.div_eq_of_lt room, Nat.add_zero]
  have remainder : values.length % grouping.size = state.count := written.length_bits.2.symm
  have pendingSmall : ∀ other ∈ pending, other < grouping.base := by
    intro other mem
    rw [same] at small
    exact small other (List.mem_append_right _ mem)
  rw [finish, bitLength, Grouping.readValues, quotient, remainder]
  by_cases unfinished : 0 < state.count
  · have bounded : state.data < 2 ^ grouping.rest state.count :=
      lt_of_lt_of_le (written.data_lt small) (grouping.enoughRest _ room)
    rw [if_pos unfinished, if_neg (by omega), List.length_append, bits, length_valueBits, List.append_assoc,
      readGroups_append (le_of_eq bits.symm), List.drop_left' bits,
      List.take_left' (length_valueBits _ _), toValue_valueBits bounded, data, ← length,
      digits_horner pendingSmall]
    exact ⟨rfl, same.symm⟩
  · have noneLeft : state.count = 0 := by omega
    have empty : pending = [] := List.eq_nil_of_length_eq_zero (length.trans noneLeft)
    rw [if_neg unfinished, if_pos noneLeft, bits, readGroups_append (le_of_eq bits.symm), noneLeft, digits,
      List.append_nil]
    rw [empty, List.append_nil] at same
    exact ⟨rfl, same.symm⟩

end Grouping

end WifiIot.Coding
