import WifiIot.Memory.Token

/-!
# A pointer that goes through an array

Whatever a program writes through a pointer that only goes forward is a list of
bytes, put down one after the other (`emit`).  Writes in a row put down the
concatenation, and they leave the array exactly if that is too long for it.
-/

namespace WifiIot.Wire

open Memory

universe u

variable {Name : Type u} {size : Nat}

structure Output (size : Nat) where
  block : Block size
  ptr : Nat

namespace Output

def put (name : Name) (byte : UInt8) (output : Output size) : Checked Name (Output size) := do
  let block ← output.block.write name output.ptr byte
  .ok ⟨block, output.ptr + 1⟩

def emit (name : Name) (bytes : List UInt8) (output : Output size) : Checked Name (Output size) :=
  bytes.foldlM (fun output byte => output.put name byte) output

/-- The array with the bytes in it and the pointer behind them. -/
def filled (output : Output size) (bytes : List UInt8) : Output size :=
  ⟨output.block.patch output.ptr bytes.length fun k => bytes.getD k 0, output.ptr + bytes.length⟩

section Emit

variable {name : Name} {output : Output size} {bytes : List UInt8}

@[simp]
theorem ptr_filled : (output.filled bytes).ptr = output.ptr + bytes.length := rfl

@[simp]
theorem filled_nil : output.filled [] = output := by
  rw [filled, List.length_nil, Block.patch_zero, Nat.add_zero]

@[simp]
theorem emit_nil : output.emit name [] = .ok output := rfl

theorem emit_cons (byte : UInt8) :
    output.emit name (byte :: bytes) = output.put name byte >>= fun next => next.emit name bytes :=
  List.foldlM_cons

theorem emit_singleton (byte : UInt8) : output.emit name [byte] = output.put name byte := by
  rw [emit_cons]
  cases output.put name byte with
  | error fault => rfl
  | ok next => rfl

theorem emit_append (first second : List UInt8) :
    output.emit name (first ++ second) =
      output.emit name first >>= fun next => next.emit name second :=
  List.foldlM_append

theorem filled_append (first second : List UInt8) :
    (output.filled first).filled second = output.filled (first ++ second) := by
  simp only [filled, List.length_append, Nat.add_assoc, Output.mk.injEq, and_true]
  funext i
  simp only [Block.patch]
  by_cases inFirst : output.ptr ≤ i.val ∧ i.val < output.ptr + first.length
  · rw [if_neg (by omega), if_pos inFirst, if_pos (by omega)]
    simp only [List.getD_eq_getElem?_getD]
    rw [List.getElem?_append_left (by omega)]
  · rw [if_neg inFirst]
    by_cases inSecond : output.ptr + first.length ≤ i.val ∧
        i.val < output.ptr + first.length + second.length
    · rw [if_pos inSecond, if_pos (by omega)]
      simp only [List.getD_eq_getElem?_getD]
      rw [List.getElem?_append_right (by omega), Nat.sub_add_eq]
    · rw [if_neg inSecond, if_neg (by omega)]

theorem put_eq_ok (room : output.ptr < size) (byte : UInt8) :
    output.put name byte = .ok (output.filled [byte]) := by
  rw [put, write_eq_patch room, ok_bind, filled, List.length_singleton]
  congr 2
  exact Block.patch_congr fun k inside _ => by
    obtain rfl : k = 0 := Nat.lt_one_iff.mp inside
    rfl

/-- What is put down stays in the array, or the write right behind the array is a fault. -/
theorem emit_eq (inside : output.ptr ≤ size) :
    output.emit name bytes = if output.ptr + bytes.length ≤ size then .ok (output.filled bytes)
      else .error ⟨name, size, .write⟩ := by
  induction bytes generalizing output with
  | nil => simp [inside]
  | cons byte bytes inductionHypothesis =>
      rw [emit_cons]
      by_cases room : output.ptr < size
      · have inside : (output.filled [byte]).ptr ≤ size := room
        rw [put_eq_ok room, ok_bind, inductionHypothesis inside]
        rw [ptr_filled, filled_append, List.length_singleton, List.length_cons, Nat.add_assoc,
          Nat.add_comm 1, List.singleton_append]
      · have full : output.ptr = size := by omega
        rw [if_neg (by rw [List.length_cons]; omega), put, Block.write, dif_neg room, full]
        rfl

theorem emit_eq_ok (fits : output.ptr + bytes.length ≤ size) :
    output.emit name bytes = .ok (output.filled bytes) := by
  rw [emit_eq (by omega), if_pos fits]

theorem foldlM_eq_emit {Item : Type} {write : Output size → Item → Checked Name (Output size)}
    {bytesOf : Item → List UInt8}
    (writes : ∀ item next, write next item = next.emit name (bytesOf item)) (items : List Item) :
    items.foldlM write output = output.emit name (items.flatMap bytesOf) := by
  induction items generalizing output with
  | nil => rfl
  | cons item items inductionHypothesis =>
      rw [List.foldlM_cons, writes, List.flatMap_cons, emit_append]
      exact bind_congr fun next => inductionHypothesis

/-! ## What the array holds afterwards -/

theorem reads_filled (fits : output.ptr + bytes.length ≤ size) :
    Reads (output.filled bytes).block output.ptr bytes := by
  rw [reads_iff]
  intro k inside
  refine ⟨by omega, ?_⟩
  rw [filled, Block.byteAt_patch (by omega), if_pos (by omega), Nat.add_sub_cancel_left,
    ← List.getElem_eq_getD 0]

theorem byteAt_filled_of_outside {index : Nat}
    (outside : index < output.ptr ∨ output.ptr + bytes.length ≤ index) :
    (output.filled bytes).block.byteAt index = output.block.byteAt index := by
  by_cases inside : index < size
  · rw [filled, Block.byteAt_patch inside, if_neg (by omega)]
  · simp [Block.byteAt, inside]

end Emit

end Output

/-! ## Reading it back -/

section Read

variable {name : Name} {block : Block size} {start : Nat} {byte : UInt8} {rest : List UInt8}

theorem read_of_reads (reads : Reads block start (byte :: rest)) :
    block.read name start = .ok byte := by
  obtain ⟨inside, same, -⟩ := reads
  rw [Block.read_of_lt inside, same]

theorem readBytes_of_reads {bytes : List UInt8} (reads : Reads block start bytes) :
    readBytes (fun k => block.read name (start + k)) bytes.length = .ok bytes := by
  have readable : ∀ k < bytes.length, block.read name (start + k) = .ok (block.byteAt (start + k)) :=
    fun k inside => Block.read_of_lt (reads.lt_size inside)
  have same : (List.range bytes.length).map (fun k => block.byteAt (start + k)) = bytes := by
    rw [← reads.map_byteAt, List.range'_eq_map_range, List.map_map, List.length_map, List.length_range]
    rfl
  rw [readBytes_eq_ok readable, same]

theorem reads_of_readBytes {bytes : List UInt8} {len : Nat}
    (read : readBytes (fun k => block.read name (start + k)) len = .ok bytes) :
    bytes.length = len ∧ Reads block start bytes := by
  have inside : ∀ k < len, start + k < size := by
    intro k behind
    obtain ⟨byte, found⟩ := readable_of_readBytes read k behind
    exact Block.lt_of_read found
  rw [readBytes_eq_ok fun k behind => Block.read_of_lt (inside k behind)] at read
  obtain rfl := Except.ok.inj read
  refine ⟨by rw [List.length_map, List.length_range], reads_iff.mpr fun k behind => ?_⟩
  rw [List.length_map, List.length_range] at behind
  refine ⟨inside k behind, ?_⟩
  rw [List.getElem_map, List.getElem_range]

end Read

/-! ## Arrays that are filled in order -/

/-- Store into the first free place of an array with the given number of places. -/
def store {Item : Type} (name : Name) (capacity : Nat) (items : List Item) (item : Item) :
    Checked Name (List Item) :=
  if items.length < capacity then .ok (items ++ [item]) else .error ⟨name, items.length, .write⟩

theorem store_eq_ok {Item : Type} {name : Name} {capacity : Nat} {items : List Item} (item : Item)
    (room : items.length < capacity) : store name capacity items item = .ok (items ++ [item]) :=
  if_pos room

end WifiIot.Wire
