import Mathlib.Data.Set.Card
import Mathlib.Data.List.Nodup

/-!
# Slots that hold a map

A row of slots, each of them vacant or with a key and a value, stands for a finite
map.  The first slot for which a test holds is overwritten: a slot with the same key,
or a vacant one.
-/

namespace WifiIot.Keyed

universe u v w

variable {Slot : Type u} {Key : Type v} {Value : Type w}

def keys (key : Slot → Option Key) (slots : List Slot) : List Key := slots.filterMap key

/-- Every key is in one slot, with the value that the map has for it. -/
structure Represents (key : Slot → Option Key) (value : Slot → Option Value) (slots : List Slot)
    (map : Key → Option Value) : Prop where
  distinct : (keys key slots).Nodup
  valued : ∀ slot ∈ slots, ∀ k, key slot = some k → ∃ v, value slot = some v
  binding : ∀ k v, (∃ slot ∈ slots, key slot = some k ∧ value slot = some v) ↔ map k = some v

theorem exists_of_findIdx? {test : Slot → Bool} {slots : List Slot} {index : Nat}
    (found : slots.findIdx? test = some index) :
    ∃ front slot rest, slots = front ++ slot :: rest ∧ front.length = index ∧ test slot = true := by
  obtain ⟨inside, holds, -⟩ := List.findIdx?_eq_some_iff_getElem.mp found
  refine ⟨slots.take index, slots[index], slots.drop (index + 1), ?_, ?_, holds⟩
  · rw [List.cons_getElem_drop_succ, List.take_append_drop]
  · exact List.length_take_of_le inside.le

theorem set_found {front rest : List Slot} {slot : Slot} {index : Nat} (place : front.length = index)
    (next : Slot) : (front ++ slot :: rest).set index next = front ++ next :: rest := by
  rw [List.set_append_right _ _ place.le, place.symm, Nat.sub_self, List.set_cons_zero]

section Represents

variable {key : Slot → Option Key} {value : Slot → Option Value} {slots front rest : List Slot}
  {slot : Slot} {map : Key → Option Value}

@[simp]
theorem mem_keys {k : Key} : k ∈ keys key slots ↔ ∃ slot ∈ slots, key slot = some k :=
  List.mem_filterMap

namespace Represents

theorem vacant (clear : ∀ slot ∈ slots, key slot = none) :
    Represents key value slots fun _ => none where
  distinct := by
    have unused : keys key slots = [] := List.filterMap_eq_nil_iff.mpr clear
    rw [unused]
    exact List.nodup_nil
  valued slot membership k used := absurd ((clear slot membership).symm.trans used) (by simp)
  binding k v := by
    simp only [reduceCtorEq, iff_false, not_exists, not_and]
    intro slot membership used
    exact absurd ((clear slot membership).symm.trans used) (by simp)

theorem mem_keys_iff (represents : Represents key value slots map) {k : Key} :
    k ∈ keys key slots ↔ map k ≠ none := by
  rw [mem_keys, Option.ne_none_iff_exists']
  constructor
  · rintro ⟨slot, membership, used⟩
    obtain ⟨v, valued⟩ := represents.valued slot membership k used
    exact ⟨v, (represents.binding k v).mp ⟨slot, membership, used, valued⟩⟩
  · rintro ⟨v, bound⟩
    obtain ⟨slot, membership, used, -⟩ := (represents.binding k v).mpr bound
    exact ⟨slot, membership, used⟩

theorem value_eq (represents : Represents key value slots map) (membership : slot ∈ slots) {k : Key}
    (used : key slot = some k) : value slot = map k := by
  obtain ⟨v, valued⟩ := represents.valued slot membership k used
  rw [valued, (represents.binding k v).mp ⟨slot, membership, used, valued⟩]

theorem length_keys (represents : Represents key value slots map) :
    (keys key slots).length = {k | map k ≠ none}.ncard := by
  classical
  have same : {k | map k ≠ none} = ((keys key slots).toFinset : Set Key) := by
    ext k
    rw [Finset.mem_coe, List.mem_toFinset, represents.mem_keys_iff, Set.mem_ofPred_eq]
  rw [same, Set.ncard_coe_finset, List.toFinset_card_of_nodup represents.distinct]

/-- There is a vacant slot unless the map has as many keys as there are slots. -/
theorem exists_vacant_iff (represents : Represents key value slots map) :
    (∃ slot ∈ slots, key slot = none) ↔ {k | map k ≠ none}.ncard < slots.length := by
  rw [← represents.length_keys, keys]
  have few := List.length_filterMap_le key slots
  constructor
  · rintro ⟨slot, membership, free⟩
    refine lt_of_le_of_ne few fun full => ?_
    have used := List.filterMap_length_eq_length.mp full slot membership
    rw [free] at used
    exact absurd used (by simp)
  · intro fewer
    by_contra occupied
    push Not at occupied
    have full : (slots.filterMap key).length = slots.length :=
      List.filterMap_length_eq_length.mpr fun slot membership =>
        Option.isSome_iff_ne_none.mpr (occupied slot membership)
    omega

theorem congr (represents : Represents key value slots map) {other : Slot → Option Key}
    (same : ∀ slot ∈ slots, other slot = key slot) : Represents other value slots map where
  distinct := by
    have keysEq : keys other slots = keys key slots := List.filterMap_congr same
    rw [keysEq]
    exact represents.distinct
  valued slot membership k used := represents.valued slot membership k (same slot membership ▸ used)
  binding k v := by
    rw [← represents.binding k v]
    refine exists_congr fun slot => and_congr_right fun membership => ?_
    rw [same slot membership]

theorem perm (represents : Represents key value slots map) {others : List Slot}
    (same : slots.Perm others) : Represents key value others map where
  distinct := (same.filterMap key).nodup_iff.mp represents.distinct
  valued slot membership := represents.valued slot (same.mem_iff.mpr membership)
  binding k v := by
    simp only [← represents.binding k v, same.mem_iff]

theorem cons_vacant (represents : Represents key value slots map) (free : key slot = none) :
    Represents key value (slot :: slots) map where
  distinct := by
    rw [keys, List.filterMap_cons, free]
    exact represents.distinct
  valued other membership := by
    rcases List.mem_cons.mp membership with rfl | behind
    · intro k used
      exact absurd (free.symm.trans used) (by simp)
    · exact represents.valued other behind
  binding other w := by
    rw [List.exists_mem_cons_iff, represents.binding other w, free]
    simp

variable [DecidableEq Key] {k : Key} {v : Value}

theorem tail (represents : Represents key value (slot :: slots) map)
    (used : key slot = some k ∨ key slot = none ∧ map k = none) :
    Represents key value slots (Function.update map k none) where
  distinct := by
    have distinct := represents.distinct
    rw [keys, List.filterMap_cons] at distinct
    rcases used with used | ⟨free, -⟩
    · rw [used] at distinct
      exact distinct.of_cons
    · rwa [free] at distinct
  valued other membership := represents.valued other (List.mem_cons_of_mem slot membership)
  binding other v := by
    have whole := represents.binding other v
    rw [List.exists_mem_cons_iff] at whole
    by_cases same : other = k
    · subst same
      rw [Function.update_self, iff_false_right (by simp)]
      rintro ⟨taken, membership, owns, valued⟩
      rcases used with used | ⟨-, unbound⟩
      · have distinct := represents.distinct
        rw [keys, List.filterMap_cons, used] at distinct
        exact (List.nodup_cons.mp distinct).1 (mem_keys.mpr ⟨taken, membership, owns⟩)
      · have bound := whole.mp (.inr ⟨taken, membership, owns, valued⟩)
        exact absurd (unbound.symm.trans bound) (by simp)
    · rw [Function.update_of_ne same, ← whole, or_iff_right]
      rintro ⟨owns, -⟩
      rcases used with used | ⟨free, -⟩
      · exact same (Option.some.inj (owns.symm.trans used))
      · exact absurd (free.symm.trans owns) (by simp)

theorem cons (represents : Represents key value slots map) (fresh : map k = none)
    (used : key slot = some k) (valued : value slot = some v) :
    Represents key value (slot :: slots) (Function.update map k (some v)) where
  distinct := by
    rw [keys, List.filterMap_cons, used]
    exact List.nodup_cons.mpr ⟨fun taken => represents.mem_keys_iff.mp taken fresh, represents.distinct⟩
  valued other membership := by
    rcases List.mem_cons.mp membership with rfl | behind
    · exact fun _ _ => ⟨v, valued⟩
    · exact represents.valued other behind
  binding other w := by
    rw [List.exists_mem_cons_iff, represents.binding other w]
    by_cases same : other = k
    · subst same
      rw [Function.update_self, used, valued, fresh]
      simp
    · have different : k ≠ other := Ne.symm same
      rw [Function.update_of_ne same, used]
      simp [different]

/-- The slot of a key, or a vacant one when the key is new, is overwritten. -/
theorem put (represents : Represents key value (front ++ slot :: rest) map)
    (place : key slot = some k ∨ key slot = none ∧ map k = none) {next : Slot}
    (used : key next = some k) (valued : value next = some v) :
    Represents key value (front ++ next :: rest) (Function.update map k (some v)) := by
  have others := (represents.perm List.perm_middle).tail place
  have stored := others.cons (Function.update_self k none map) used valued
  rw [Function.update_idem] at stored
  exact stored.perm List.perm_middle.symm

theorem remove (represents : Represents key value (front ++ slot :: rest) map)
    (place : key slot = some k) {next : Slot} (free : key next = none) :
    Represents key value (front ++ next :: rest) (Function.update map k none) :=
  (((represents.perm List.perm_middle).tail (.inl place)).cons_vacant free).perm List.perm_middle.symm

end Represents

end Represents

end WifiIot.Keyed
