import Mathlib.Data.List.Range
import Mathlib.Logic.Function.Basic

/-!
# Fixed byte arrays with checked access

C arrays of bytes whose every access is checked.  An access outside the array
is a fault, which names the array, the index and the direction; what the
program does after it is undefined.
-/

namespace WifiIot.Memory

universe u

/-- An array of `size` bytes. -/
abbrev Block (size : Nat) := Fin size → UInt8

inductive Access where
  | read
  | write
  deriving DecidableEq

structure Fault (Name : Type u) where
  array : Name
  index : Nat
  access : Access
  deriving DecidableEq

abbrev Checked (Name : Type u) := Except (Fault Name)

/-- A pointer that is only read: the byte at each offset from it. -/
abbrev Source (Name : Type u) := Nat → Checked Name UInt8

variable {Name : Type u} {size : Nat}

@[simp]
theorem ok_bind {First Second : Type} (value : First) (next : First → Checked Name Second) :
    ((Except.ok value : Checked Name First) >>= next) = next value := rfl

@[simp]
theorem error_bind {First Second : Type} (fault : Fault Name)
    (next : First → Checked Name Second) :
    ((Except.error fault : Checked Name First) >>= next) = .error fault := rfl

theorem bind_eq_ok_iff {First Second : Type} {first : Checked Name First}
    {next : First → Checked Name Second} {result : Second} :
    (first >>= next) = .ok result ↔ ∃ value, first = .ok value ∧ next value = .ok result := by
  cases first with
  | error fault => simp
  | ok value => simp

namespace Block

/-- The byte at an index, and 0 outside. -/
def byteAt (block : Block size) (index : Nat) : UInt8 :=
  if inside : index < size then block ⟨index, inside⟩ else 0

def read (name : Name) (block : Block size) (index : Nat) : Checked Name UInt8 :=
  if index < size then .ok (block.byteAt index) else .error ⟨name, index, .read⟩

def write (name : Name) (block : Block size) (index : Nat) (byte : UInt8) :
    Checked Name (Block size) :=
  if inside : index < size then .ok (Function.update block ⟨index, inside⟩ byte)
  else .error ⟨name, index, .write⟩

/-- The array with `len` bytes from `start` on replaced. -/
def patch (block : Block size) (start len : Nat) (bytes : Nat → UInt8) : Block size :=
  fun i => if start ≤ i.val ∧ i.val < start + len then bytes (i.val - start) else block i

theorem read_of_lt {name : Name} {block : Block size} {index : Nat} (inside : index < size) :
    block.read name index = .ok (block.byteAt index) := if_pos inside

theorem read_of_le {name : Name} {block : Block size} {index : Nat} (outside : size ≤ index) :
    block.read name index = .error ⟨name, index, .read⟩ := if_neg (not_lt.mpr outside)

theorem lt_of_read {name : Name} {block : Block size} {index : Nat} {byte : UInt8}
    (readable : block.read name index = .ok byte) : index < size := by
  by_contra outside
  rw [read_of_le (not_lt.mp outside)] at readable
  cases readable

theorem byteAt_eq (block : Block size) (i : Fin size) : block.byteAt i.val = block i := by
  simp [byteAt]

theorem byteAt_patch {block : Block size} {start len index : Nat} {bytes : Nat → UInt8}
    (inside : index < size) :
    (block.patch start len bytes).byteAt index =
      if start ≤ index ∧ index < start + len then bytes (index - start) else block.byteAt index := by
  simp [byteAt, patch, inside]

@[simp]
theorem patch_zero (block : Block size) (start : Nat) (bytes : Nat → UInt8) :
    block.patch start 0 bytes = block := by
  funext i
  simp only [patch]
  rw [if_neg (by omega)]

theorem update_patch {block : Block size} {start len : Nat} {bytes : Nat → UInt8}
    (inside : start + len < size) :
    Function.update (block.patch start len bytes) ⟨start + len, inside⟩ (bytes len) =
      block.patch start (len + 1) bytes := by
  funext i
  by_cases same : i = ⟨start + len, inside⟩
  · subst i
    simp [patch]
  · have different : i.val ≠ start + len := fun equal => same (Fin.ext equal)
    rw [Function.update_of_ne same]
    simp only [patch]
    by_cases before : start ≤ i.val ∧ i.val < start + len
    · rw [if_pos before, if_pos ⟨before.1, by omega⟩]
    · rw [if_neg before, if_neg (by omega)]

theorem patch_congr {block : Block size} {start len : Nat} {first second : Nat → UInt8}
    (same : ∀ k < len, start + k < size → first k = second k) :
    block.patch start len first = block.patch start len second := by
  funext i
  simp only [patch]
  split
  · rename_i inside
    exact same _ (by omega) (by have := i.isLt; omega)
  · rfl

theorem patch_eq_self_iff {block : Block size} {start len : Nat} {bytes : Nat → UInt8}
    (fits : start + len ≤ size) :
    block.patch start len bytes = block ↔ ∀ k < len, bytes k = block.byteAt (start + k) := by
  constructor
  · intro same k inside
    have there : (block.patch start len bytes).byteAt (start + k) = bytes k := by
      rw [byteAt_patch (by omega), if_pos (by omega), Nat.add_sub_cancel_left]
    rw [← there, same]
  · intro same
    funext i
    simp only [patch]
    split
    · rename_i inside
      rw [same _ (by omega), ← byteAt_eq block i]
      congr 1
      omega
    · rfl

end Block

/-- `memcpy`, byte by byte. -/
def copy (name : Name) (source : Source Name) (block : Block size) (start : Nat) :
    Nat → Checked Name (Block size)
  | 0 => .ok block
  | len + 1 => do
      let copied ← copy name source block start len
      let byte ← source len
      copied.write name (start + len) byte

/-- The first `len` bytes of a source. -/
def readBytes (source : Source Name) : Nat → Checked Name (List UInt8)
  | 0 => .ok []
  | len + 1 => do
      let bytes ← readBytes source len
      let byte ← source len
      pure (bytes ++ [byte])

section Copy

variable {name : Name} {source : Source Name} {block : Block size} {start len : Nat}
  {bytes : Nat → UInt8}

theorem copy_eq_ok (readable : ∀ k < len, source k = .ok (bytes k))
    (fits : len = 0 ∨ start + len ≤ size) :
    copy name source block start len = .ok (block.patch start len bytes) := by
  induction len with
  | zero => simp [copy]
  | succ len inductionHypothesis =>
      have room : start + len < size := by omega
      simp only [copy, inductionHypothesis (fun k inside => readable k (by omega)) (by omega),
        readable len (by omega), ok_bind, Block.write, dif_pos room, Block.update_patch room]

theorem readable_of_copy {result : Block size}
    (copied : copy name source block start len = .ok result) :
    (∀ k < len, ∃ byte, source k = .ok byte) ∧ (len = 0 ∨ start + len ≤ size) := by
  induction len generalizing result with
  | zero => simp
  | succ len inductionHypothesis =>
      simp only [copy, bind_eq_ok_iff] at copied
      obtain ⟨earlier, copiedEarlier, byte, readLast, written⟩ := copied
      have room : start + len < size := by
        by_contra full
        rw [Block.write, dif_neg full] at written
        cases written
      refine ⟨fun k inside => ?_, by omega⟩
      by_cases last : k = len
      · exact ⟨byte, by rw [last, readLast]⟩
      · exact (inductionHypothesis copiedEarlier).1 k (by omega)

theorem copy_eq_error (readable : ∀ k < len, source k = .ok (bytes k))
    (nonempty : 0 < len) (overrun : size < start + len) :
    ∃ index, copy name source block start len = .error ⟨name, index, .write⟩ := by
  induction len with
  | zero => omega
  | succ len inductionHypothesis =>
      by_cases before : len = 0 ∨ start + len ≤ size
      · have copied : copy name source block start len = .ok (block.patch start len bytes) :=
          copy_eq_ok (fun k inside => readable k (by omega)) before
        refine ⟨start + len, ?_⟩
        rw [copy, copied, ok_bind, readable len (by omega), ok_bind, Block.write, dif_neg (by omega)]
      · obtain ⟨index, failed⟩ :=
          inductionHypothesis (fun k inside => readable k (by omega)) (by omega) (by omega)
        exact ⟨index, by rw [copy, failed, error_bind]⟩

theorem readBytes_eq_ok (readable : ∀ k < len, source k = .ok (bytes k)) :
    readBytes source len = .ok ((List.range len).map bytes) := by
  induction len with
  | zero => rfl
  | succ len inductionHypothesis =>
      simp only [readBytes, inductionHypothesis (fun k inside => readable k (by omega)),
        readable len (by omega), ok_bind, List.range_succ, List.map_append]
      rfl

theorem readable_of_readBytes {result : List UInt8}
    (read : readBytes source len = .ok result) : ∀ k < len, ∃ byte, source k = .ok byte := by
  induction len generalizing result with
  | zero => exact fun k inside => absurd inside (Nat.not_lt_zero k)
  | succ len inductionHypothesis =>
      simp only [readBytes, bind_eq_ok_iff] at read
      obtain ⟨earlier, readEarlier, byte, readLast, -⟩ := read
      intro k inside
      rcases Nat.lt_succ_iff_lt_or_eq.mp inside with before | rfl
      · exact inductionHypothesis readEarlier k before
      · exact ⟨byte, readLast⟩

theorem readBytes_patch (fits : start + len ≤ size) :
    readBytes ((block.patch start len bytes).read name) (start + len) =
      .ok ((List.range start).map block.byteAt ++ (List.range len).map bytes) := by
  rw [readBytes_eq_ok (fun k inside => Block.read_of_lt (by omega)), List.range_add,
    List.map_append, List.map_map]
  congr 2
  · apply List.map_congr_left
    intro k membership
    have before := List.mem_range.mp membership
    rw [Block.byteAt_patch (by omega), if_neg (by omega)]
  · apply List.map_congr_left
    intro k membership
    have inside := List.mem_range.mp membership
    rw [Function.comp_apply, Block.byteAt_patch (by omega), if_pos (by omega),
      Nat.add_sub_cancel_left]

end Copy

def listSource (name : Name) (data : List UInt8) : Source Name := fun k =>
  match data[k]? with
  | some byte => .ok byte
  | none => .error ⟨name, k, .read⟩

theorem listSource_eq (name : Name) {data : List UInt8} {k : Nat} (inside : k < data.length) :
    listSource name data k = .ok (data.getD k 0) := by
  rw [listSource, List.getElem?_eq_getElem inside, ← List.getElem_eq_getD (h := inside) 0]

theorem lt_of_listSource {name : Name} {data : List UInt8} {k : Nat} {byte : UInt8}
    (readable : listSource name data k = .ok byte) : k < data.length := by
  by_contra outside
  rw [listSource, List.getElem?_eq_none (not_lt.mp outside)] at readable
  cases readable

theorem foldlM_eq_ok {State Item : Type} {round : State → Item → Checked Name State}
    {next : State → Item → State} {items : List Item}
    (rounds : ∀ item ∈ items, ∀ state, round state item = .ok (next state item)) (start : State) :
    items.foldlM round start = .ok (items.foldl next start) := by
  induction items generalizing start with
  | nil => rfl
  | cons item items inductionHypothesis =>
      rw [List.foldlM_cons, rounds item List.mem_cons_self, ok_bind]
      exact inductionHypothesis (fun later membership => rounds later (List.mem_cons_of_mem _ membership)) _

/-- The computation never fails with the given access to the given array. -/
def Avoids {Value : Type} (name : Name) (access : Access) (computation : Checked Name Value) : Prop :=
  ∀ index, computation ≠ .error ⟨name, index, access⟩

namespace Avoids

variable {First Second : Type} {name other : Name} {access : Access}

theorem ok (value : First) : Avoids name access (.ok value : Checked Name First) :=
  fun _ failed => by cases failed

theorem bind {first : Checked Name First} {next : First → Checked Name Second}
    (before : Avoids name access first) (after : ∀ value, Avoids name access (next value)) :
    Avoids name access (first >>= next) := by
  cases first with
  | error fault =>
      intro index failed
      cases failed
      exact before index rfl
  | ok value => exact after value

theorem read (block : Block size) (index : Nat) :
    Avoids name .write (block.read other index) := by
  intro place failed
  unfold Block.read at failed
  split at failed <;> cases failed

theorem write (block : Block size) (index : Nat) (byte : UInt8) (different : other ≠ name) :
    Avoids name access (block.write other index byte) := by
  intro place failed
  unfold Block.write at failed
  split at failed
  · cases failed
  · cases failed
    exact different rfl

theorem copy {source : Source Name} (reads : ∀ k, Avoids name access (source k))
    (different : other ≠ name) (block : Block size) (start len : Nat) :
    Avoids name access (Memory.copy other source block start len) := by
  induction len with
  | zero => exact ok block
  | succ len inductionHypothesis =>
      exact inductionHypothesis.bind fun copied =>
        (reads len).bind fun byte => write copied (start + len) byte different

theorem readBytes {source : Source Name} (reads : ∀ k, Avoids name access (source k)) (len : Nat) :
    Avoids name access (Memory.readBytes source len) := by
  induction len with
  | zero => exact ok []
  | succ len inductionHypothesis =>
      exact inductionHypothesis.bind fun bytes => (reads len).bind fun byte => ok _

end Avoids

end WifiIot.Memory
