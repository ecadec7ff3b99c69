import Mathlib.Data.List.Range

/-!
# Stretches of addressed bytes

A list of bytes with the address each is written to, in the order of the
writes.  Addresses are counted modulo the size of the address space; a stretch
that ends inside it has consecutive addresses.
-/

namespace WifiIot.Memory

/-- The bytes `0, …, len - 1`, from `address` on in a space of `modulus` addresses. -/
def stretch (modulus address : Nat) (bytes : Nat → UInt8) (len : Nat) : List (Nat × UInt8) :=
  (List.range len).map fun k => ((address + k) % modulus, bytes k)

section Stretch

variable {modulus address len : Nat} {bytes : Nat → UInt8}

@[simp]
theorem stretch_zero : stretch modulus address bytes 0 = [] := rfl

theorem stretch_add (first rest : Nat) :
    stretch modulus address bytes (first + rest) =
      stretch modulus address bytes first ++
        stretch modulus (address + first) (fun k => bytes (first + k)) rest := by
  unfold stretch
  rw [List.range_add, List.map_append, List.map_map]
  apply congrArg
  apply List.map_congr_left
  intro k _
  simp only [Function.comp_apply, Nat.add_assoc]

theorem stretch_mod :
    stretch modulus (address % modulus) bytes len = stretch modulus address bytes len := by
  unfold stretch
  apply List.map_congr_left
  intro k _
  rw [Nat.mod_add_mod]

theorem stretch_of_le (inside : address + len ≤ modulus) :
    stretch modulus address bytes len = (List.range len).map fun k => (address + k, bytes k) := by
  unfold stretch
  apply List.map_congr_left
  intro k membership
  have bound := List.mem_range.mp membership
  rw [Nat.mod_eq_of_lt (by omega)]

theorem mem_stretch {place : Nat} {byte : UInt8} :
    (place, byte) ∈ stretch modulus address bytes len ↔
      ∃ k < len, (address + k) % modulus = place ∧ bytes k = byte := by
  simp [stretch]

end Stretch

end WifiIot.Memory
