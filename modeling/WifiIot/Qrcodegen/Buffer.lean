import WifiIot.Memory.Block
import WifiIot.Raster.Plot

/-!
# The buffers of the generator

A function of the generator ends early when it leaves a buffer, or where the language does
not say what happens.  An `assert` is `(void)0` on this platform: none is in the definitions,
and what they ask is not checked.

Source: `qrcode_gen/src/qrcodegen.c`.
-/

namespace WifiIot.Qrcodegen

open Memory Raster

inductive Buffer where
  | data
  | result
  | tempBuffer
  | qrcode
  | segment
  deriving DecidableEq

inductive Halt where
  | fault (fault : Fault Buffer)
  | undefined
  deriving DecidableEq

abbrev Run := Except Halt

def load (name : Buffer) (bytes : List UInt8) (index : Nat) : Run UInt8 :=
  if index < bytes.length then .ok (bytes.getD index 0) else .error (.fault ⟨name, index, .read⟩)

def store (name : Buffer) (bytes : List UInt8) (index : Nat) (byte : UInt8) : Run (List UInt8) :=
  if index < bytes.length then .ok (bytes.set index byte)
  else .error (.fault ⟨name, index, .write⟩)

/-- `memset` with 0. -/
def memset (name : Buffer) (bytes : List UInt8) (count : Nat) : Run (List UInt8) :=
  if count ≤ bytes.length then .ok (List.replicate count 0 ++ bytes.drop count)
  else .error (.fault ⟨name, bytes.length, .write⟩)

variable {First Second : Type}

@[simp]
theorem run_ok_bind (value : First) (next : First → Run Second) :
    ((Except.ok value : Run First) >>= next) = next value := rfl

theorem foldlM_congr {State Item : Type} {round other : State → Item → Run State} {items : List Item}
    (same : ∀ item ∈ items, ∀ state, round state item = other state item) (start : State) :
    items.foldlM round start = items.foldlM other start := by
  induction items generalizing start with
  | nil => rfl
  | cons item items inductionHypothesis =>
      obtain ⟨here, later⟩ := List.forall_mem_cons.mp same
      rw [List.foldlM_cons, List.foldlM_cons, here]
      exact bind_congr fun next => inductionHypothesis later next

theorem foldlM_ok {State Item : Type} {round : State → Item → Run State} {next : State → Item → State}
    {items : List Item} (rounds : ∀ item ∈ items, ∀ state, round state item = .ok (next state item))
    (start : State) : items.foldlM round start = .ok (items.foldl next start) := by
  induction items generalizing start with
  | nil => rfl
  | cons item items inductionHypothesis =>
      obtain ⟨here, later⟩ := List.forall_mem_cons.mp rounds
      rw [List.foldlM_cons, here, run_ok_bind, inductionHypothesis later, List.foldl_cons]

section Bytes

variable {name : Buffer} {bytes : List UInt8} {index : Nat}

theorem load_eq (inside : index < bytes.length) : load name bytes index = .ok (bytes.getD index 0) :=
  if_pos inside

theorem store_eq (inside : index < bytes.length) (byte : UInt8) :
    store name bytes index byte = .ok (bytes.set index byte) := if_pos inside

def byteAt (bytes : List UInt8) (index : Nat) : UInt8 := bytes.getD index 0

theorem byteAt_set (inside : index < bytes.length) (byte : UInt8) :
    byteAt (bytes.set index byte) = Function.update (byteAt bytes) index byte := by
  funext other
  by_cases same : other = index
  · subst same
    rw [Function.update_self, byteAt, List.getD_eq_getElem?_getD, List.getElem?_set_self inside,
      Option.getD_some]
  · rw [Function.update_of_ne same, byteAt, List.getD_eq_getElem?_getD,
      List.getElem?_set_ne (Ne.symm same), ← List.getD_eq_getElem?_getD]
    rfl

/-- Stores inside the buffer are strokes in the picture. -/
theorem foldlM_store {strokes : List (Nat × UInt8)}
    (inside : ∀ stroke ∈ strokes, stroke.1 < bytes.length) :
    ∃ stored, strokes.foldlM (fun bytes stroke => store name bytes stroke.1 stroke.2) bytes =
        .ok stored ∧
      stored.length = bytes.length ∧ byteAt stored = plot (byteAt bytes) strokes := by
  induction strokes generalizing bytes with
  | nil => exact ⟨bytes, rfl, rfl, rfl⟩
  | cons stroke strokes inductionHypothesis =>
      obtain ⟨here, later⟩ := List.forall_mem_cons.mp inside
      have length : (bytes.set stroke.1 stroke.2).length = bytes.length := List.length_set
      obtain ⟨stored, runs, same, picture⟩ := inductionHypothesis
        fun other membership => by
          rw [length]
          exact later other membership
      refine ⟨stored, ?_, same.trans length, ?_⟩
      · rw [List.foldlM_cons, store_eq here]
        exact runs
      · rw [picture, byteAt_set here, plot_cons]

theorem mapM_load {start count : Nat} (inside : start + count ≤ bytes.length) :
    (List.range count).mapM (fun j => load name bytes (start + j)) =
      .ok ((bytes.drop start).take count) := by
  induction count with
  | zero => rfl
  | succ count inductionHypothesis =>
      have last : start + count < bytes.length := inside
      rw [List.range_succ, List.mapM_append, inductionHypothesis (Nat.le_of_succ_le inside), run_ok_bind,
        List.mapM_cons, load_eq last, List.take_add_one, List.getElem?_drop,
        List.getElem?_eq_getElem last, List.getElem_eq_getD 0]
      rfl

theorem foldlM_copy {source : Buffer} {start count : Nat} {loaded : List UInt8} (place : Nat → Nat)
    (inside : start + count ≤ loaded.length) :
    (List.range count).foldlM (fun bytes j => do
      let byte ← load source loaded (start + j)
      store name bytes (place j) byte) bytes =
    ((List.range count).map fun j => (place j, byteAt loaded (start + j))).foldlM
      (fun bytes stroke => store name bytes stroke.1 stroke.2) bytes := by
  rw [List.foldlM_map]
  refine foldlM_congr (fun j listed bytes => ?_) bytes
  have small := List.mem_range.mp listed
  rw [load_eq (by omega), run_ok_bind]
  rfl

end Bytes

end WifiIot.Qrcodegen
