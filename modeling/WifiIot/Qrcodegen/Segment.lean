import WifiIot.Memory.CString
import WifiIot.Qrcodegen.Bits
import WifiIot.Qrcodegen.Ecc

/-!
# Segments

A text becomes a segment: its mode, the count of its characters and their bits.

Source: `qrcode_gen/src/qrcodegen.h`, `qrcodegen.c`.
-/

namespace WifiIot.Qrcodegen

open Coding Memory

inductive qrcodegen_Mode where
  | NUMERIC
  | ALPHANUMERIC
  | BYTE
  | KANJI
  | ECI
  deriving DecidableEq

def qrcodegen_Mode.code : qrcodegen_Mode → Nat
  | .NUMERIC => 0x1
  | .ALPHANUMERIC => 0x2
  | .BYTE => 0x4
  | .KANJI => 0x8
  | .ECI => 0x7

structure qrcodegen_Segment where
  mode : qrcodegen_Mode
  numChars : Nat
  data : List UInt8
  bitLength : Int
  deriving DecidableEq

def INT16_MAX : Nat := 32767

/-- `size_t` has 32 bits. -/
def SIZE_MAX : Nat := 4294967295

/-- The characters `0` to `9`, `A` to `Z` and ` $%*+-./:`. -/
def ALPHANUMERIC_CHARSET : List UInt8 :=
  [48, 49, 50, 51, 52, 53, 54, 55, 56, 57, 65, 66, 67, 68, 69, 70, 71, 72, 73, 74, 75, 76, 77, 78, 79, 80,
    81, 82, 83, 84, 85, 86, 87, 88, 89, 90, 32, 36, 37, 42, 43, 45, 46, 47, 58]

def qrcodegen_isAlphanumeric (text : Text) : Bool := text.val.all fun c => c ∈ ALPHANUMERIC_CHARSET

def qrcodegen_isNumeric (text : Text) : Bool := text.val.all fun c => 48 ≤ c ∧ c ≤ 57

/-- `result` of `calcSegmentBitLength`, for `numChars` that the mode can have. -/
def bitCount : qrcodegen_Mode → Nat → Nat
  | .NUMERIC, numChars => (numChars * 10 + 2) / 3
  | .ALPHANUMERIC, numChars => (numChars * 11 + 1) / 2
  | .BYTE, numChars => numChars * 8
  | .KANJI, numChars => numChars * 13
  | .ECI, _ => 3 * 8

def calcSegmentBitLength (mode : qrcodegen_Mode) (numChars : Nat) : Int :=
  if INT16_MAX < numChars then -1
  else if mode = .ECI ∧ numChars ≠ 0 then -1
  else
    let result := bitCount mode numChars
    if INT16_MAX < result then -1 else result

def qrcodegen_calcSegmentBufferSize (mode : qrcodegen_Mode) (numChars : Nat) : Nat :=
  let temp := calcSegmentBitLength mode numChars
  if temp = -1 then SIZE_MAX else (temp.toNat + 7) / 8

def numCharCountBits (mode : qrcodegen_Mode) (version : Version) : Nat :=
  let i := (version.ver + 7) / 17
  match mode with
  | .NUMERIC => [10, 12, 14].getD i 0
  | .ALPHANUMERIC => [9, 11, 13].getD i 0
  | .BYTE => [8, 16, 16].getD i 0
  | .KANJI => [8, 10, 12].getD i 0
  | .ECI => 0

/-- The loop of `getTotalBits`. -/
def totalBits (version : Version) : List qrcodegen_Segment → Int → Int
  | [], result => result
  | seg :: segs, result =>
      let ccbits := numCharCountBits seg.mode version
      if 2 ^ ccbits ≤ seg.numChars then -1
      else
        let result := result + (4 + ccbits + seg.bitLength)
        if INT16_MAX < result then -1 else totalBits version segs result

def getTotalBits (segs : List qrcodegen_Segment) (version : Version) : Int := totalBits version segs 0

/-! ## Making segments -/

/-- `memcpy` of the whole data. -/
def memcpy (name : Buffer) (bytes data : List UInt8) : Run (List UInt8) :=
  if data.length ≤ bytes.length then .ok (data ++ bytes.drop data.length)
  else .error (.fault ⟨name, bytes.length, .write⟩)

def qrcodegen_makeBytes (data buf : List UInt8) : Run qrcodegen_Segment := do
  let bitLength := calcSegmentBitLength .BYTE data.length
  let buf ← memcpy .segment buf data
  .ok ⟨.BYTE, data.length, buf, bitLength⟩

/-- `accumData`, an unsigned number of 32 bits, `accumCount` and what has been appended. -/
structure Accum where
  accumData : Nat
  accumCount : Nat
  result : BitBuffer

/-- One round of `qrcodegen_makeNumeric` and of `qrcodegen_makeAlphanumeric`. -/
def accumulate (grouping : Grouping) (valueOf : UInt8 → Run Nat) (state : Accum) (c : UInt8) :
    Run Accum := do
  let value ← valueOf c
  let accumData := (state.accumData * grouping.base + value) % 2 ^ 32
  let accumCount := state.accumCount + 1
  if accumCount = grouping.size then do
    let result ← appendBitsToBuffer .segment accumData grouping.width state.result
    .ok ⟨0, 0, result⟩
  else .ok ⟨accumData, accumCount, state.result⟩

def makeGroups (mode : qrcodegen_Mode) (grouping : Grouping) (valueOf : UInt8 → Run Nat) (text : Text)
    (buf : List UInt8) : Run qrcodegen_Segment := do
  let bitLen := calcSegmentBitLength mode (strlen text)
  let buf ← (if 0 < bitLen then memset .segment buf ((bitLen.toNat + 7) / 8) else .ok buf)
  let last ← text.val.foldlM (accumulate grouping valueOf) ⟨0, 0, ⟨buf, 0⟩⟩
  let result ← (if 0 < last.accumCount then
    appendBitsToBuffer .segment last.accumData (grouping.rest last.accumCount) last.result
    else .ok last.result)
  .ok ⟨mode, strlen text, result.buffer, result.bitLen⟩

theorem enough_numeric : ∀ count < 3, 10 ^ count ≤ 2 ^ (count * 3 + 1) := by decide

theorem enough_alphanumeric : ∀ count < 2, 45 ^ count ≤ 2 ^ 6 := by decide

def numeric : Grouping where
  base := 10
  size := 3
  width := 10
  rest accumCount := accumCount * 3 + 1
  positive := Nat.succ_pos 2
  enough := Nat.le_of_ble_eq_true rfl
  enoughRest := enough_numeric

def alphanumeric : Grouping where
  base := 45
  size := 2
  width := 11
  rest _ := 6
  positive := Nat.succ_pos 1
  enough := Nat.le_of_ble_eq_true rfl
  enoughRest := enough_alphanumeric

/-- `(unsigned int)(c - '0')` -/
def digitValue (c : UInt8) : Run Nat := .ok ((c.toNat + (2 ^ 32 - 48)) % 2 ^ 32)

/-- The distance from `ALPHANUMERIC_CHARSET` of what `strchr` finds there; there is none from
`NULL`. -/
def charValue (c : UInt8) : Run Nat :=
  match ALPHANUMERIC_CHARSET.idxOf? c with
  | some value => .ok value
  | none => .error .undefined

def qrcodegen_makeNumeric (digits : Text) (buf : List UInt8) : Run qrcodegen_Segment :=
  makeGroups .NUMERIC numeric digitValue digits buf

def qrcodegen_makeAlphanumeric (text : Text) (buf : List UInt8) : Run qrcodegen_Segment :=
  makeGroups .ALPHANUMERIC alphanumeric charValue text buf

def qrcodegen_makeEci (assignVal : Int) (buf : List UInt8) : Run qrcodegen_Segment := do
  let result ← (if assignVal < 0 then .ok ⟨buf, 0⟩
    else if assignVal < 2 ^ 7 then do
      let buf ← memset .segment buf 1
      appendBitsToBuffer .segment assignVal.toNat 8 ⟨buf, 0⟩
    else if assignVal < 2 ^ 14 then do
      let buf ← memset .segment buf 2
      let result ← appendBitsToBuffer .segment 2 2 ⟨buf, 0⟩
      appendBitsToBuffer .segment assignVal.toNat 14 result
    else if assignVal < 1000000 then do
      let buf ← memset .segment buf 3
      let result ← appendBitsToBuffer .segment 6 3 ⟨buf, 0⟩
      let result ← appendBitsToBuffer .segment (assignVal.toNat >>> 10) 11 result
      appendBitsToBuffer .segment (assignVal.toNat &&& 0x3FF) 10 result
    else .ok ⟨buf, 0⟩ : Run BitBuffer)
  .ok ⟨.ECI, 0, result.buffer, result.bitLen⟩

/-! ## Reading segments -/

def segmentBits (seg : qrcodegen_Segment) : List Bool :=
  (List.range seg.bitLength.toNat).map (bitAt seg.data)

/-- The characters that a reader takes from the front of the bits. -/
def readText : qrcodegen_Mode → Nat → List Bool → List UInt8
  | .NUMERIC, count, bits => (numeric.readValues count bits).map fun value => UInt8.ofNat (48 + value)
  | .ALPHANUMERIC, count, bits =>
      (alphanumeric.readValues count bits).map fun value => ALPHANUMERIC_CHARSET.getD value 0
  | .BYTE, count, bits => bytesOf count bits
  | _, _, _ => []

theorem Packed.eq_map {bytes : List UInt8} {bits : List Bool} {cleared : Nat}
    (packed : Packed bytes bits cleared) : (List.range bits.length).map (bitAt bytes) = bits := by
  refine List.ext_getElem? fun k => ?_
  rw [packed.holds, List.getElem?_map]
  by_cases inside : k < bits.length
  · rw [List.getElem?_range inside, if_pos inside]
    rfl
  · rw [List.getElem?_eq_none (by rw [List.length_range]; omega), if_neg inside]
    rfl

section Groups

variable {grouping : Grouping} {valueOf : UInt8 → Run Nat} {cleared total : Nat}

theorem accumData_lt {state : Grouping.State} {done : List Nat}
    (written : Grouping.Written grouping state done) {value : Nat}
    (small : ∀ other ∈ done ++ [value], other < grouping.base) :
    state.data * grouping.base + value < 2 ^ grouping.width := by
  have room := written.room
  obtain ⟨groups, pending, rfl, -, pendingLength, data, -⟩ := written.groups
  have shape : state.data * grouping.base + value = horner grouping.base (pending ++ [value]) := by
    rw [horner_concat, data]
  have base : 0 < grouping.base :=
    Nat.zero_lt_of_lt (small value (List.mem_append_right _ List.mem_cons_self))
  have bounded : horner grouping.base (pending ++ [value]) <
      grouping.base ^ (pending ++ [value]).length := horner_lt fun other mem => small other (by
    rw [List.append_assoc]
    exact List.mem_append_right _ mem)
  rw [shape]
  refine bounded.trans_le (le_trans (Nat.pow_le_pow_right base ?_) grouping.enough)
  rw [List.length_append, List.length_singleton, pendingLength]
  exact room

theorem accumulate_eq {state : Grouping.State} {bytes : List UInt8} {done : List Nat}
    (packed : Packed bytes state.bits cleared) (written : Grouping.Written grouping state done)
    (narrow : grouping.width ≤ 16) {c : UInt8} {value : Nat} (reads : valueOf c = .ok value)
    (small : ∀ other ∈ done ++ [value], other < grouping.base)
    (room : (done ++ [value]).length / grouping.size * grouping.width ≤ 8 * cleared) :
    ∃ stored, accumulate grouping valueOf ⟨state.data, state.count, ⟨bytes, state.bits.length⟩⟩ c =
        .ok ⟨(grouping.push state value).data, (grouping.push state value).count,
          ⟨stored, (grouping.push state value).bits.length⟩⟩ ∧
      Packed stored (grouping.push state value).bits cleared ∧ stored.length = bytes.length ∧
      ∀ k, cleared ≤ k → byteAt stored k = byteAt bytes k := by
  have next := written.push small
  have length := next.length_bits.1
  have unwrapped : (state.data * grouping.base + value) % 2 ^ 32 = state.data * grouping.base + value :=
    Nat.mod_eq_of_lt (lt_of_lt_of_le (accumData_lt written small)
      (Nat.pow_le_pow_right (Nat.succ_pos 1) (by omega)))
  rw [accumulate, reads, run_ok_bind, unwrapped]
  rw [Grouping.push] at next length ⊢
  by_cases full : state.count + 1 = grouping.size
  · simp only [if_pos full] at next length ⊢
    have fits : state.bits.length + grouping.width ≤ 8 * cleared := by
      rw [List.length_append, length_valueBits] at length
      rw [length]
      exact room
    obtain ⟨stored, runs, packedNext, same, behind⟩ := @appendBitsToBuffer_eq .segment _ _ _ packed
      (state.data * grouping.base + value) grouping.width fits
    refine ⟨stored, ?_, packedNext, same, behind⟩
    rw [runs, run_ok_bind, List.length_append, length_valueBits]
  · simp only [if_neg full]
    exact ⟨bytes, rfl, packed, rfl, fun _ _ => rfl⟩

theorem foldlM_accumulate (narrow : grouping.width ≤ 16) {text : List UInt8} {values : List Nat}
    (reads : List.Forall₂ (fun c value => valueOf c = .ok value) text values)
    {state : Grouping.State} {bytes : List UInt8} {done : List Nat}
    (packed : Packed bytes state.bits cleared) (written : Grouping.Written grouping state done)
    (small : ∀ other ∈ done ++ values, other < grouping.base)
    (room : (done ++ values).length / grouping.size * grouping.width ≤ 8 * cleared) :
    ∃ (last : Grouping.State) (stored : List UInt8),
      text.foldlM (accumulate grouping valueOf) ⟨state.data, state.count, ⟨bytes, state.bits.length⟩⟩ =
        .ok ⟨last.data, last.count, ⟨stored, last.bits.length⟩⟩ ∧
      Packed stored last.bits cleared ∧ Grouping.Written grouping last (done ++ values) ∧
      stored.length = bytes.length ∧ ∀ k, cleared ≤ k → byteAt stored k = byteAt bytes k := by
  induction reads generalizing state bytes done with
  | nil =>
      rw [List.append_nil]
      exact ⟨state, bytes, rfl, packed, written, rfl, fun _ _ => rfl⟩
  | @cons c value text values readsFirst _ inductionHypothesis =>
      rw [List.append_cons] at small room ⊢
      have smallFirst : ∀ other ∈ done ++ [value], other < grouping.base :=
        fun other mem => small other (List.mem_append_left _ mem)
      have roomFirst : (done ++ [value]).length / grouping.size * grouping.width ≤ 8 * cleared := by
        refine le_trans (Nat.mul_le_mul_right _ (Nat.div_le_div_right ?_)) room
        rw [@List.length_append _ (done ++ [value])]
        exact Nat.le_add_right _ _
      obtain ⟨stored, round, packedNext, same, behind⟩ :=
        accumulate_eq packed written narrow readsFirst smallFirst roomFirst
      obtain ⟨last, final, rounds, packedLast, writtenLast, sameLast, behindLast⟩ :=
        inductionHypothesis packedNext (written.push smallFirst) small room
      refine ⟨last, final, ?_, packedLast, writtenLast, sameLast.trans same,
        fun k far => (behindLast k far).trans (behind k far)⟩
      rw [List.foldlM_cons, round, run_ok_bind, rounds]

/-- What is left of the text after its groups is written with fewer bits. -/
theorem appendRest_eq {last : Grouping.State} {stored : List UInt8} {values : List Nat}
    (packed : Packed stored last.bits cleared) (written : Grouping.Written grouping last values)
    (small : ∀ value ∈ values, value < grouping.base)
    (room : grouping.bitLength values.length ≤ 8 * cleared) :
    ∃ final, (if 0 < last.count then
        appendBitsToBuffer .segment last.data (grouping.rest last.count) ⟨stored, last.bits.length⟩
      else .ok ⟨stored, last.bits.length⟩) = .ok ⟨final, grouping.bitLength values.length⟩ ∧
      Packed final (grouping.finish last) cleared ∧ final.length = stored.length := by
  have total := (written.readValues small []).1
  rw [Grouping.finish] at total ⊢
  by_cases pending : 0 < last.count
  · rw [if_pos pending, List.length_append, length_valueBits] at total
    rw [if_pos pending, if_pos pending]
    obtain ⟨final, runs, packedFinal, sameFinal, -⟩ := @appendBitsToBuffer_eq .segment _ _ _ packed
      last.data (grouping.rest last.count) (by omega)
    exact ⟨final, by rw [runs, total], packedFinal, sameFinal⟩
  · rw [if_neg pending] at total
    rw [if_neg pending, if_neg pending, total]
    exact ⟨stored, rfl, packed, rfl⟩

/-- A segment of groups: its bits read back, whatever follows them. -/
theorem makeGroups_eq {mode : qrcodegen_Mode} (narrow : grouping.width ≤ 16) {text : Text}
    {values : List Nat}
    (reads : List.Forall₂ (fun c value => valueOf c = .ok value) text.val values)
    (small : ∀ value ∈ values, value < grouping.base)
    (length : calcSegmentBitLength mode (strlen text) = grouping.bitLength (strlen text))
    {buf : List UInt8} (room : (grouping.bitLength (strlen text) + 7) / 8 ≤ buf.length) :
    ∃ seg, makeGroups mode grouping valueOf text buf = .ok seg ∧ seg.mode = mode ∧
      seg.numChars = strlen text ∧ seg.bitLength = grouping.bitLength (strlen text) ∧
      seg.data.length = buf.length ∧
      ∀ behind, grouping.readValues (strlen text) (segmentBits seg ++ behind) = values := by
  let cleared := (grouping.bitLength (strlen text) + 7) / 8
  have many : values.length = strlen text := reads.length_eq.symm
  have start : (if (0 : Int) < grouping.bitLength (strlen text) then memset .segment buf cleared
      else .ok buf) = .ok (List.replicate cleared 0 ++ buf.drop cleared) := by
    by_cases pending : 0 < grouping.bitLength (strlen text)
    · rw [if_pos (Int.natCast_pos.mpr pending)]
      exact if_pos room
    · have nothing : cleared = 0 := by omega
      rw [if_neg (by omega), nothing]
      rfl
  have startLength : (List.replicate cleared (0 : UInt8) ++ buf.drop cleared).length = buf.length := by
    rw [List.length_append, List.length_replicate, List.length_drop]
    omega
  have fits : ([] ++ values).length / grouping.size * grouping.width ≤ 8 * cleared := by
    rw [List.nil_append, many]
    have part : strlen text / grouping.size * grouping.width ≤ grouping.bitLength (strlen text) :=
      Nat.le_add_right _ _
    omega
  obtain ⟨last, stored, rounds, packed, written, same, -⟩ := foldlM_accumulate narrow reads
    (packed_replicate (buf.drop cleared) cleared) Grouping.written_nil small fits
  rw [List.nil_append] at written
  have whole := written.readValues small
  obtain ⟨final, finishes, packedFinal, sameFinal⟩ :=
    appendRest_eq packed written small (by rw [many]; omega)
  rw [many] at whole finishes
  refine ⟨⟨mode, strlen text, final, grouping.bitLength (strlen text)⟩, ?_, rfl, rfl, rfl,
    sameFinal.trans (same.trans startLength), ?_⟩
  · rw [makeGroups, length, Int.toNat_natCast, start, run_ok_bind]
    rw [show (⟨0, 0, ⟨List.replicate cleared 0 ++ buf.drop cleared, 0⟩⟩ : Accum) =
      ⟨0, 0, ⟨List.replicate cleared 0 ++ buf.drop cleared, ([] : List Bool).length⟩⟩ from rfl, rounds,
      run_ok_bind]
    simp only
    rw [finishes]
    rfl
  · intro behind
    have bits : segmentBits ⟨mode, strlen text, final, grouping.bitLength (strlen text)⟩ =
        grouping.finish last := by
      rw [segmentBits]
      simp only [Int.toNat_natCast]
      rw [← (whole []).1]
      exact packedFinal.eq_map
    rw [bits]
    exact (whole behind).2

end Groups

/-! ## Texts -/

def textModes : List qrcodegen_Mode := [.NUMERIC, .ALPHANUMERIC, .BYTE]

structure Holds (seg : qrcodegen_Segment) (text : List UInt8) : Prop where
  mode : seg.mode ∈ textModes
  numChars : seg.numChars = text.length
  bitLength : seg.bitLength = bitCount seg.mode text.length
  small : seg.bitLength ≤ INT16_MAX
  inside : seg.bitLength ≤ 8 * seg.data.length
  reads : ∀ behind, readText seg.mode text.length (segmentBits seg ++ behind) = text

section Texts

variable {mode : qrcodegen_Mode} {count : Nat} {text : Text} {buf : List UInt8}

theorem le_bitCount (mem : mode ∈ textModes) (count : Nat) : count ≤ bitCount mode count := by
  simp only [textModes, List.mem_cons, List.not_mem_nil, or_false] at mem
  rcases mem with rfl | rfl | rfl
  all_goals
    rw [bitCount]
    omega

theorem not_eci (mem : mode ∈ textModes) : ¬(mode = .ECI ∧ count ≠ 0) := by
  rintro ⟨rfl, -⟩
  exact absurd mem (by decide)

theorem calcSegmentBitLength_small (mem : mode ∈ textModes) (small : bitCount mode count ≤ INT16_MAX) :
    calcSegmentBitLength mode count = bitCount mode count := by
  have few := le_trans (le_bitCount mem count) small
  rw [calcSegmentBitLength, if_neg (not_lt.mpr few), if_neg (not_eci mem)]
  exact if_neg (not_lt.mpr small)

theorem calcSegmentBitLength_large (mem : mode ∈ textModes) (large : INT16_MAX < bitCount mode count) :
    calcSegmentBitLength mode count = -1 := by
  rw [calcSegmentBitLength, if_neg (not_eci mem)]
  split
  · rfl
  · exact if_pos large

theorem bitLength_numeric (count : Nat) : numeric.bitLength count = bitCount .NUMERIC count := by
  rw [Grouping.bitLength, bitCount]
  change count / 3 * 10 + (if count % 3 = 0 then 0 else count % 3 * 3 + 1) = _
  split <;> omega

theorem bitLength_alphanumeric (count : Nat) :
    alphanumeric.bitLength count = bitCount .ALPHANUMERIC count := by
  rw [Grouping.bitLength, bitCount]
  change count / 2 * 11 + (if count % 2 = 0 then 0 else 6) = _
  split <;> omega

theorem exists_values {valueOf : UInt8 → Run Nat} {charOf : Nat → UInt8} {bound : Nat} {text : List UInt8}
    (each : ∀ c ∈ text, ∃ value < bound, valueOf c = .ok value ∧ charOf value = c) :
    ∃ values, List.Forall₂ (fun c value => valueOf c = .ok value) text values ∧
      (∀ value ∈ values, value < bound) ∧ values.map charOf = text := by
  induction text with
  | nil => exact ⟨[], .nil, fun _ mem => absurd mem List.not_mem_nil, rfl⟩
  | cons c text inductionHypothesis =>
      obtain ⟨here, later⟩ := List.forall_mem_cons.mp each
      obtain ⟨value, small, reads, char⟩ := here
      obtain ⟨values, others, bounded, same⟩ := inductionHypothesis later
      exact ⟨value :: values, .cons reads others, List.forall_mem_cons.mpr ⟨small, bounded⟩,
        by rw [List.map_cons, char, same]⟩

theorem makeNumeric_holds (digits : qrcodegen_isNumeric text = true)
    (small : bitCount .NUMERIC (strlen text) ≤ INT16_MAX)
    (room : (bitCount .NUMERIC (strlen text) + 7) / 8 ≤ buf.length) :
    ∃ seg, qrcodegen_makeNumeric text buf = .ok seg ∧ seg.mode = .NUMERIC ∧ Holds seg text.val ∧
      seg.data.length = buf.length := by
  obtain ⟨values, reads, bounded, same⟩ := @exists_values digitValue (fun value => UInt8.ofNat (48 + value))
    10 text.val fun c mem => by
      have digit : 48 ≤ c ∧ c ≤ 57 := of_decide_eq_true (List.all_eq_true.mp digits c mem)
      have least : 48 ≤ c.toNat := UInt8.le_iff_toNat_le.mp digit.1
      have most : c.toNat ≤ 57 := UInt8.le_iff_toNat_le.mp digit.2
      refine ⟨c.toNat - 48, by omega, ?_, ?_⟩
      · have value : (c.toNat + (2 ^ 32 - 48)) % 2 ^ 32 = c.toNat - 48 := by omega
        rw [digitValue, value]
      · rw [Nat.add_sub_cancel' least, UInt8.ofNat_toNat]
  rw [← bitLength_numeric] at small room
  obtain ⟨seg, runs, mode, numChars, bitLength, length, back⟩ := @makeGroups_eq numeric digitValue .NUMERIC
    (by decide) text values reads bounded
    (by rw [bitLength_numeric]; exact calcSegmentBitLength_small (by decide) (by rwa [← bitLength_numeric]))
    buf room
  refine ⟨seg, runs, mode, ⟨by rw [mode]; decide, numChars, ?_, by omega, ?_, ?_⟩, length⟩
  · rw [bitLength, mode, bitLength_numeric]
    rfl
  · rw [bitLength, length]
    omega
  · intro behind
    rw [mode, readText]
    change (numeric.readValues (strlen text) _).map _ = _
    rw [back, same]

theorem makeAlphanumeric_holds (charset : qrcodegen_isAlphanumeric text = true)
    (small : bitCount .ALPHANUMERIC (strlen text) ≤ INT16_MAX)
    (room : (bitCount .ALPHANUMERIC (strlen text) + 7) / 8 ≤ buf.length) :
    ∃ seg, qrcodegen_makeAlphanumeric text buf = .ok seg ∧ seg.mode = .ALPHANUMERIC ∧
      Holds seg text.val ∧ seg.data.length = buf.length := by
  obtain ⟨values, reads, bounded, same⟩ := @exists_values charValue
    (fun value => ALPHANUMERIC_CHARSET.getD value 0) 45 text.val fun c mem => by
      have listed : c ∈ ALPHANUMERIC_CHARSET := of_decide_eq_true (List.all_eq_true.mp charset c mem)
      have all : ∀ c ∈ ALPHANUMERIC_CHARSET, ∃ value < 45, charValue c = .ok value ∧
          ALPHANUMERIC_CHARSET.getD value 0 = c := by decide +kernel
      exact all c listed
  rw [← bitLength_alphanumeric] at small room
  obtain ⟨seg, runs, mode, numChars, bitLength, length, back⟩ := @makeGroups_eq alphanumeric charValue
    .ALPHANUMERIC (by decide) text values reads bounded
    (by
      rw [bitLength_alphanumeric]
      exact calcSegmentBitLength_small (by decide) (by rwa [← bitLength_alphanumeric]))
    buf room
  refine ⟨seg, runs, mode, ⟨by rw [mode]; decide, numChars, ?_, by omega, ?_, ?_⟩, length⟩
  · rw [bitLength, mode, bitLength_alphanumeric]
    rfl
  · rw [bitLength, length]
    omega
  · intro behind
    rw [mode, readText]
    change (alphanumeric.readValues (strlen text) _).map _ = _
    rw [back, same]

theorem holds_bytes {data : List UInt8} (inside : count ≤ data.length) (small : count * 8 ≤ INT16_MAX) :
    Holds ⟨.BYTE, count, data, (count * 8 : Nat)⟩ (data.take count) := by
  have length : (data.take count).length = count := List.length_take_of_le inside
  have bits : segmentBits ⟨.BYTE, count, data, (count * 8 : Nat)⟩ = bytesBits (data.take count) := by
    rw [bytesBits_eq_map, length, segmentBits, Int.toNat_natCast, Nat.mul_comm]
    refine List.map_congr_left fun k mem => ?_
    have place : k < 8 * count := List.mem_range.mp mem
    rw [bitAt, bitAt, byteAt, byteAt, List.getD_eq_getElem?_getD, List.getD_eq_getElem?_getD,
      List.getElem?_take_of_lt (by omega)]
  have text : qrcodegen_Mode.BYTE ∈ textModes := by decide
  refine ⟨text, length.symm, by rw [length]; rfl, Int.ofNat_le.mpr small, ?_, fun behind => ?_⟩
  · dsimp only
    omega
  · rw [bits]
    exact bytesOf_bytesBits _ behind

end Texts

/-- Data of at most 4095 bytes is read back from its segment; more is copied, but its segment has
-1 bits. -/
theorem makeBytes_reads {data buf : List UInt8} (room : data.length ≤ buf.length) :
    ∃ seg, qrcodegen_makeBytes data buf = .ok seg ∧ seg.mode = .BYTE ∧ seg.numChars = data.length ∧
      seg.data = data ++ buf.drop data.length ∧
      if data.length * 8 ≤ INT16_MAX then Holds seg data else seg.bitLength = -1 := by
  have copies : memcpy .segment buf data = .ok (data ++ buf.drop data.length) := if_pos room
  refine ⟨_, by rw [qrcodegen_makeBytes, copies, run_ok_bind], rfl, rfl, rfl, ?_⟩
  split_ifs with small
  · have bits : bitCount .BYTE data.length = data.length * 8 := rfl
    have holds := @holds_bytes data.length (data ++ buf.drop data.length)
      (by rw [List.length_append]; exact Nat.le_add_right _ _) small
    rw [List.take_left' rfl] at holds
    rwa [calcSegmentBitLength_small (by decide) (bits ▸ small), bits]
  · exact calcSegmentBitLength_large (by decide) (not_le.mp small)

theorem makeBytes_reads_two :
    ∃ seg, qrcodegen_makeBytes [0xC3, 0xA9] [0, 0, 7] = .ok seg ∧ Holds seg [0xC3, 0xA9] ∧
      seg.data = [0xC3, 0xA9, 7] := by
  obtain ⟨seg, runs, -, -, bytes, outcome⟩ := @makeBytes_reads [0xC3, 0xA9] [0, 0, 7] (by decide)
  rw [if_pos (by decide)] at outcome
  exact ⟨seg, runs, outcome, bytes⟩

end WifiIot.Qrcodegen
