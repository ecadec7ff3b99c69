import WifiIot.Qrcodegen.Blocks
import WifiIot.Qrcodegen.Masking
import WifiIot.Qrcodegen.Segment

/-!
# Making a symbol

The least version that holds the segments is taken, their bits are packed and padded,
and the symbol is drawn and masked.

Source: `qrcode_gen/src/qrcodegen.c`.
-/

namespace WifiIot.Qrcodegen

open Coding Memory Raster

structure Encoded where
  returned : Bool
  tempBuffer : List UInt8
  qrcode : List UInt8
  deriving DecidableEq

/-- The values of `version` in the search, which looks at `minVersion` in any case. -/
def versionsFrom (minVersion maxVersion : Version) : List Version :=
  versions.filter fun version =>
    minVersion.ver ≤ version.ver ∧ version.ver ≤ max minVersion.ver maxVersion.ver

/-- The loop that looks for a version, with `dataUsedBits`. -/
def findVersion (segs : List qrcodegen_Segment) (ecl : qrcodegen_Ecc) :
    List Version → Option (Version × Int)
  | [] => none
  | version :: later =>
      let dataCapacityBits := getNumDataCodewords version ecl * 8
      let dataUsedBits := getTotalBits segs version
      if dataUsedBits ≠ -1 ∧ dataUsedBits ≤ dataCapacityBits then some (version, dataUsedBits)
      else findVersion segs ecl later

/-- The loop over the levels, if `boostEcl` asks for it. -/
def boost (boostEcl : Bool) (version : Version) (dataUsedBits : Int) (ecl : qrcodegen_Ecc) :
    qrcodegen_Ecc :=
  [qrcodegen_Ecc.MEDIUM, .QUARTILE, .HIGH].foldl (fun ecl i =>
    if boostEcl && dataUsedBits ≤ getNumDataCodewords version i * 8 then i else ecl) ecl

/-! ## The bits -/

/-- One round of the inner loop over the bits of a segment. -/
def appendSegmentBit (data : List UInt8) (result : BitBuffer) (j : Nat) : Run BitBuffer := do
  let byte ← load .segment data (j >>> 3)
  let bit := (byte.toNat >>> (7 - (j &&& 7))) &&& 1
  appendBitsToBuffer .qrcode bit 1 result

def appendSegment (version : Version) (result : BitBuffer) (seg : qrcodegen_Segment) : Run BitBuffer := do
  let result ← appendBitsToBuffer .qrcode seg.mode.code 4 result
  let result ← appendBitsToBuffer .qrcode seg.numChars (numCharCountBits seg.mode version) result
  (List.range seg.bitLength.toNat).foldlM (appendSegmentBit seg.data) result

def appendPadding (dataCapacityBits : Nat) : Nat → Nat → BitBuffer → Run BitBuffer
  | 0, _, result => .ok result
  | rounds + 1, padByte, result =>
      if result.bitLen < dataCapacityBits then do
        let result ← appendBitsToBuffer .qrcode padByte 8 result
        appendPadding dataCapacityBits rounds (padByte ^^^ (0xEC ^^^ 0x11)) result
      else .ok result

/-- The terminator, clear bits up to a byte, and padding. -/
def fillBits (dataCapacityBits : Nat) (result : BitBuffer) : Run BitBuffer := do
  let terminatorBits := dataCapacityBits - result.bitLen
  let terminatorBits := if 4 < terminatorBits then 4 else terminatorBits
  let result ← appendBitsToBuffer .qrcode 0 terminatorBits result
  let result ← appendBitsToBuffer .qrcode 0 ((8 - result.bitLen % 8) % 8) result
  appendPadding dataCapacityBits dataCapacityBits 0xEC result

def packSegments (segs : List qrcodegen_Segment) (version : Version) (ecl : qrcodegen_Ecc)
    (qrcode : List UInt8) : Run (List UInt8) := do
  let qrcode ← memset .qrcode qrcode (bufferLen version.side)
  let result ← segs.foldlM (appendSegment version) ⟨qrcode, 0⟩
  let result ← fillBits (getNumDataCodewords version ecl * 8) result
  .ok result.buffer

def drawSymbol (version : Version) (ecl : qrcodegen_Ecc) (tempBuffer qrcode : List UInt8) :
    Run (List UInt8 × List UInt8) := do
  let (qrcode, tempBuffer) ← addEccAndInterleave version ecl qrcode tempBuffer
  let qrcode ← initializeFunctionModules .qrcode version qrcode
  let qrcode ← drawCodewords tempBuffer (getNumRawDataModules version / 8) qrcode
  let qrcode ← drawWhiteFunctionModules .qrcode qrcode version
  let tempBuffer ← initializeFunctionModules .tempBuffer version tempBuffer
  .ok (tempBuffer, qrcode)

/-! ## The functions of the header -/

section Encode

variable (ecl : qrcodegen_Ecc) (minVersion maxVersion : Version) (mask : Option Mask) (boostEcl : Bool)

def qrcodegen_encodeSegmentsAdvanced (segs : List qrcodegen_Segment) (tempBuffer qrcode : List UInt8) :
    Run Encoded :=
  match findVersion segs ecl (versionsFrom minVersion maxVersion) with
  | none => do
      let qrcode ← store .qrcode qrcode 0 0
      .ok ⟨false, tempBuffer, qrcode⟩
  | some (version, dataUsedBits) => do
      let ecl := boost boostEcl version dataUsedBits ecl
      let qrcode ← packSegments segs version ecl qrcode
      let (tempBuffer, qrcode) ← drawSymbol version ecl tempBuffer qrcode
      let qrcode ← handleMasking ecl mask tempBuffer qrcode
      .ok ⟨true, tempBuffer, qrcode⟩

/-- The branches for texts of digits and of the character set. -/
def makeInMode (mode : qrcodegen_Mode) (make : Text → List UInt8 → Run qrcodegen_Segment) (text : Text)
    (bufLen : Nat) (tempBuffer : List UInt8) : Run (List UInt8 × Option qrcodegen_Segment) :=
  if bufLen < qrcodegen_calcSegmentBufferSize mode (strlen text) then .ok (tempBuffer, none)
  else do
    let seg ← make text tempBuffer
    .ok (seg.data, some seg)

/-- The branches of `qrcodegen_encodeText` for a text that is not empty; no segment is `goto fail`. -/
def makeTextSegment (text : Text) (bufLen : Nat) (tempBuffer : List UInt8) :
    Run (List UInt8 × Option qrcodegen_Segment) := do
  let textLen := strlen text
  if qrcodegen_isNumeric text then makeInMode .NUMERIC qrcodegen_makeNumeric text bufLen tempBuffer
  else if qrcodegen_isAlphanumeric text then
    makeInMode .ALPHANUMERIC qrcodegen_makeAlphanumeric text bufLen tempBuffer
  else if bufLen < textLen then .ok (tempBuffer, none)
  else do
    let tempBuffer ← (List.range textLen).foldlM (fun tempBuffer i =>
      store .tempBuffer tempBuffer i (text.val.getD i 0)) tempBuffer
    let bitLength := calcSegmentBitLength .BYTE textLen
    if bitLength = -1 then .ok (tempBuffer, none)
    else .ok (tempBuffer, some ⟨.BYTE, textLen, tempBuffer, bitLength⟩)

def qrcodegen_encodeText (text : Text) (tempBuffer qrcode : List UInt8) : Run Encoded :=
  if strlen text = 0 then
    qrcodegen_encodeSegmentsAdvanced ecl minVersion maxVersion mask boostEcl [] tempBuffer qrcode
  else do
    let (tempBuffer, made) ← makeTextSegment text (bufferLen maxVersion.side) tempBuffer
    match made with
    | none => do
        let qrcode ← store .qrcode qrcode 0 0
        .ok ⟨false, tempBuffer, qrcode⟩
    | some seg =>
        qrcodegen_encodeSegmentsAdvanced ecl minVersion maxVersion mask boostEcl [seg] tempBuffer qrcode

def qrcodegen_encodeBinary (dataAndTemp : List UInt8) (dataLen : Nat) (qrcode : List UInt8) :
    Run Encoded :=
  let bitLength := calcSegmentBitLength .BYTE dataLen
  if bitLength = -1 then do
    let qrcode ← store .qrcode qrcode 0 0
    .ok ⟨false, dataAndTemp, qrcode⟩
  else
    qrcodegen_encodeSegmentsAdvanced ecl minVersion maxVersion mask boostEcl
      [⟨.BYTE, dataLen, dataAndTemp, bitLength⟩] dataAndTemp qrcode

end Encode

def qrcodegen_VERSION_MIN : Version := ⟨1, Nat.le_refl 1, Nat.le_of_ble_eq_true rfl⟩

def qrcodegen_VERSION_MAX : Version := ⟨40, Nat.le_of_ble_eq_true rfl, Nat.le_refl 40⟩

/-- Any version, an automatic mask and a boosted level. -/
def qrcodegen_encodeSegments (segs : List qrcodegen_Segment) (ecl : qrcodegen_Ecc)
    (tempBuffer qrcode : List UInt8) : Run Encoded :=
  qrcodegen_encodeSegmentsAdvanced ecl qrcodegen_VERSION_MIN qrcodegen_VERSION_MAX none true segs tempBuffer
    qrcode

/-! ## Finding a version -/

/-- What `getTotalBits` asks of a segment, and what reading its bits needs. -/
structure Valid (seg : qrcodegen_Segment) : Prop where
  numChars : seg.numChars ≤ INT16_MAX
  bitLength : 0 ≤ seg.bitLength ∧ seg.bitLength ≤ INT16_MAX
  inside : seg.bitLength ≤ 8 * seg.data.length

/-- The bits of a segment with its mode and its count. -/
def headedBits (version : Version) (seg : qrcodegen_Segment) : List Bool :=
  valueBits seg.mode.code 4 ++
    (valueBits seg.numChars (numCharCountBits seg.mode version) ++ segmentBits seg)

def segmentsBits (version : Version) (segs : List qrcodegen_Segment) : List Bool :=
  segs.flatMap (headedBits version)

/-- The counts fit their fields, and the bits the symbol. -/
def Fits (version : Version) (ecl : qrcodegen_Ecc) (segs : List qrcodegen_Segment) : Prop :=
  (∀ seg ∈ segs, seg.numChars < 2 ^ numCharCountBits seg.mode version) ∧
    (segmentsBits version segs).length ≤ getNumDataCodewords version ecl * 8

instance (version : Version) (ecl : qrcodegen_Ecc) (segs : List qrcodegen_Segment) :
    Decidable (Fits version ecl segs) := inferInstanceAs (Decidable (_ ∧ _))

section Find

variable {version : Version} {ecl : qrcodegen_Ecc} {segs : List qrcodegen_Segment}

theorem length_headedBits (version : Version) (seg : qrcodegen_Segment) :
    (headedBits version seg).length = 4 + numCharCountBits seg.mode version + seg.bitLength.toNat := by
  rw [headedBits, List.length_append, List.length_append, length_valueBits, length_valueBits, segmentBits,
    List.length_map, List.length_range, Nat.add_assoc]

theorem totalBits_eq (valid : ∀ seg ∈ segs, Valid seg) {result : Nat} (small : result ≤ INT16_MAX) :
    (totalBits version segs result = -1 ∧
        ((∃ seg ∈ segs, 2 ^ numCharCountBits seg.mode version ≤ seg.numChars) ∨
          INT16_MAX < result + (segmentsBits version segs).length)) ∨
      totalBits version segs result = (result + (segmentsBits version segs).length : Nat) ∧
        ∀ seg ∈ segs, seg.numChars < 2 ^ numCharCountBits seg.mode version := by
  induction segs generalizing result with
  | nil => exact .inr ⟨rfl, fun _ mem => absurd mem List.not_mem_nil⟩
  | cons seg segs inductionHypothesis =>
      obtain ⟨here, later⟩ := List.forall_mem_cons.mp valid
      have positive := here.bitLength.1
      have length : (segmentsBits version (seg :: segs)).length =
          4 + numCharCountBits seg.mode version + seg.bitLength.toNat +
            (segmentsBits version segs).length := by
        rw [segmentsBits, List.flatMap_cons, List.length_append, length_headedBits]
        rfl
      have sum : (result : Int) + (4 + numCharCountBits seg.mode version + seg.bitLength) =
          (result + (4 + numCharCountBits seg.mode version + seg.bitLength.toNat) : Nat) := by
        omega
      rw [totalBits]
      dsimp only
      by_cases many : 2 ^ numCharCountBits seg.mode version ≤ seg.numChars
      · rw [if_pos many]
        exact .inl ⟨rfl, .inl ⟨seg, List.mem_cons_self, many⟩⟩
      · rw [if_neg many, sum]
        by_cases long :
            INT16_MAX < result + (4 + numCharCountBits seg.mode version + seg.bitLength.toNat)
        · rw [if_pos (Int.ofNat_lt.mpr long)]
          refine .inl ⟨rfl, .inr ?_⟩
          omega
        · rw [if_neg (by omega), length, ← Nat.add_assoc result (_ + seg.bitLength.toNat)]
          rcases inductionHypothesis later (not_lt.mp long) with ⟨bad, why⟩ | ⟨total, few⟩
          · refine .inl ⟨bad, why.imp ?_ id⟩
            rintro ⟨other, mem, much⟩
            exact ⟨other, List.mem_cons_of_mem _ mem, much⟩
          · exact .inr ⟨total, List.forall_mem_cons.mpr ⟨not_le.mp many, few⟩⟩

theorem getTotalBits_fits (valid : ∀ seg ∈ segs, Valid seg) :
    ((getTotalBits segs version ≠ -1 ∧
        getTotalBits segs version ≤ (getNumDataCodewords version ecl * 8 : Nat)) ↔ Fits version ecl segs) ∧
      (Fits version ecl segs → getTotalBits segs version = ((segmentsBits version segs).length : Nat)) := by
  have outcome := @totalBits_eq version segs valid 0 (Nat.zero_le _)
  have capacity := (sound version ecl).codewords.2
  have least : (getNumDataCodewords version ecl * 8) ≤ INT16_MAX := by
    rw [INT16_MAX]
    omega
  rw [Nat.zero_add] at outcome
  change (getTotalBits segs version = -1 ∧ _) ∨ getTotalBits segs version = _ ∧ _ at outcome
  rcases outcome with ⟨bad, why⟩ | ⟨sum, few⟩
  · have without : ¬Fits version ecl segs := by
      rintro ⟨few, fits⟩
      rcases why with ⟨seg, mem, many⟩ | long
      · exact absurd (few seg mem) (not_lt.mpr many)
      · omega
    exact ⟨⟨fun ok => absurd bad ok.1, fun fits => absurd fits without⟩, fun fits => absurd fits without⟩
  · refine ⟨⟨fun ok => ⟨few, by omega⟩, fun fits => ⟨by omega, ?_⟩⟩, fun _ => sum⟩
    rw [sum]
    exact Int.ofNat_le.mpr fits.2

theorem findVersion_eq (valid : ∀ seg ∈ segs, Valid seg) (candidates : List Version) :
    findVersion segs ecl candidates = (candidates.find? fun version => Fits version ecl segs).map
      fun version => (version, ((segmentsBits version segs).length : Int)) := by
  induction candidates with
  | nil => rfl
  | cons version candidates inductionHypothesis =>
      obtain ⟨fits, length⟩ := @getTotalBits_fits version ecl segs valid
      rw [findVersion]
      by_cases here : Fits version ecl segs
      · rw [if_pos (by simpa using fits.mpr here), List.find?_cons_of_pos (by simpa using here), length here]
        rfl
      · rw [if_neg (by simpa using mt fits.mp here), inductionHypothesis,
          List.find?_cons_of_neg (by simpa using here)]

end Find

/-! ## Packing the bits -/

/-- An action that puts bits behind those of a buffer. -/
def Appends (action : BitBuffer → Run BitBuffer) (more : List Bool) : Prop :=
  ∀ ⦃bytes bits cleared⦄, Packed bytes bits cleared → bits.length + more.length ≤ 8 * cleared →
    ∃ stored, action ⟨bytes, bits.length⟩ = .ok ⟨stored, (bits ++ more).length⟩ ∧
      Packed stored (bits ++ more) cleared ∧ stored.length = bytes.length

section Appends

variable {first second : BitBuffer → Run BitBuffer} {bits more : List Bool}

theorem appends_appendBitsToBuffer (name : Buffer) (val numBits : Nat) :
    Appends (appendBitsToBuffer name val numBits) (valueBits val numBits) := by
  intro bytes bits cleared packed room
  rw [length_valueBits] at room
  obtain ⟨stored, runs, packedNext, same, -⟩ :=
    @appendBitsToBuffer_eq name _ _ _ packed val numBits room
  refine ⟨stored, ?_, packedNext, same⟩
  rw [runs, List.length_append, length_valueBits]

theorem Appends.bind (one : Appends first bits) (other : Appends second more) :
    Appends (fun result => first result >>= second) (bits ++ more) := by
  intro bytes before cleared packed room
  rw [List.length_append] at room
  obtain ⟨middle, runs, packedMiddle, sameMiddle⟩ := one packed (by omega)
  obtain ⟨stored, rest, packedStored, same⟩ := other packedMiddle (by rw [List.length_append]; omega)
  rw [List.append_assoc] at rest packedStored
  refine ⟨stored, ?_, packedStored, same.trans sameMiddle⟩
  dsimp only
  rw [runs, run_ok_bind, rest]

theorem appends_foldlM {Item : Type} {round : BitBuffer → Item → Run BitBuffer} {bitsOf : Item → List Bool}
    {items : List Item} (rounds : ∀ item ∈ items, Appends (round · item) (bitsOf item)) :
    Appends (items.foldlM round) (items.flatMap bitsOf) := by
  induction items with
  | nil =>
      intro bytes bits cleared packed _
      rw [List.flatMap_nil, List.append_nil]
      exact ⟨bytes, rfl, packed, rfl⟩
  | cons item items inductionHypothesis =>
      obtain ⟨here, later⟩ := List.forall_mem_cons.mp rounds
      exact here.bind (inductionHypothesis later)

theorem appends_appendSegmentBit {data : List UInt8} {j : Nat} (inside : j < 8 * data.length) :
    Appends (appendSegmentBit data · j) [bitAt data j] := by
  have place : j >>> 3 < data.length := by
    rw [shiftRight_three]
    omega
  have bit : ((data.getD (j >>> 3) 0).toNat >>> (7 - (j &&& 7))) &&& 1 = (bitAt data j).toNat := by
    rw [shiftRight_three, and_seven, bitAt, byteAt]
    change _ &&& (2 ^ 1 - 1) = _
    rw [Nat.and_two_pow_sub_one_eq_mod, Nat.shiftRight_eq_div_pow, Nat.toNat_testBit]
  have single : valueBits (bitAt data j).toNat 1 = [bitAt data j] := by
    cases bitAt data j <;> rfl
  have appends := appends_appendBitsToBuffer .qrcode (bitAt data j).toNat 1
  rw [single] at appends
  intro bytes bits cleared packed room
  obtain ⟨stored, runs, rest⟩ := appends packed room
  refine ⟨stored, ?_, rest⟩
  dsimp only
  rw [appendSegmentBit, load_eq place, run_ok_bind]
  dsimp only
  rw [bit, runs]

theorem mode_code_lt (mode : qrcodegen_Mode) : mode.code < 2 ^ 4 := by
  cases mode <;> decide

theorem appends_appendSegment {seg : qrcodegen_Segment} (valid : Valid seg) (version : Version) :
    Appends (appendSegment version · seg) (headedBits version seg) := by
  have bits : segmentBits seg =
      (List.range seg.bitLength.toNat).flatMap fun j => [bitAt seg.data j] := by
    rw [segmentBits, List.map_eq_flatMap]
  have mode := appends_appendBitsToBuffer .qrcode seg.mode.code 4
  have count := appends_appendBitsToBuffer .qrcode seg.numChars (numCharCountBits seg.mode version)
  have inside := valid.inside
  have content := appends_foldlM fun j (mem : j ∈ List.range seg.bitLength.toNat) =>
    appends_appendSegmentBit (show j < 8 * seg.data.length by
      have small := List.mem_range.mp mem
      omega)
  rw [← bits] at content
  exact mode.bind (count.bind content)

end Appends

def pads : Nat → Nat → List Bool
  | 0, _ => []
  | count + 1, padByte => valueBits padByte 8 ++ pads count (padByte ^^^ (0xEC ^^^ 0x11))

/-- What comes behind the bits of the segments: the terminator, the rest of a byte, and padding. -/
def filling (used capacity : Nat) : List Bool :=
  let terminated := used + min 4 (capacity - used)
  let aligned := terminated + (8 - terminated % 8) % 8
  List.replicate (aligned - used) false ++ pads ((capacity - aligned) / 8) 0xEC

theorem length_pads (count padByte : Nat) : (pads count padByte).length = count * 8 := by
  induction count generalizing padByte with
  | zero => rfl
  | succ count inductionHypothesis =>
      rw [pads, List.length_append, length_valueBits, inductionHypothesis]
      omega

theorem valueBits_zero (numBits : Nat) : valueBits 0 numBits = List.replicate numBits false := by
  induction numBits with
  | zero => rfl
  | succ numBits inductionHypothesis =>
      rw [valueBits_succ, inductionHypothesis, Nat.zero_testBit, List.replicate_succ]

theorem length_filling {used capacity : Nat} (fits : used ≤ capacity) (whole : capacity % 8 = 0) :
    (filling used capacity).length = capacity - used := by
  rw [filling, List.length_append, List.length_replicate, length_pads]
  omega

theorem toValue_replicate (count : Nat) : toValue (List.replicate count false) = 0 := by
  rw [toValue]
  induction count with
  | zero => rfl
  | succ count inductionHypothesis => exact inductionHypothesis

/-- The terminator of a reader: four clear bits, or the end. -/
theorem take_filling {used capacity : Nat} (fits : used ≤ capacity) (whole : capacity % 8 = 0) :
    toValue ((filling used capacity).take 4) = 0 := by
  rw [filling]
  by_cases far : used + 4 ≤ capacity
  · rw [List.take_append_of_le_length (by rw [List.length_replicate]; omega), List.take_replicate]
    exact toValue_replicate _
  · have noRest : (capacity - (used + min 4 (capacity - used) +
        (8 - (used + min 4 (capacity - used)) % 8) % 8)) / 8 = 0 := by omega
    rw [noRest, pads, List.append_nil, List.take_replicate]
    exact toValue_replicate _

section Pack

variable {version : Version} {ecl : qrcodegen_Ecc} {segs : List qrcodegen_Segment} {qrcode : List UInt8}

theorem appendPadding_eq {capacity rounds padByte : Nat} {bytes : List UInt8} {bits : List Bool}
    {cleared : Nat} (packed : Packed bytes bits cleared) (aligned : bits.length % 8 = 0) (whole : capacity % 8 = 0) (fits : bits.length ≤ capacity)
    (enough : capacity ≤ bits.length + 8 * rounds) (room : capacity ≤ 8 * cleared) :
    ∃ stored, appendPadding capacity rounds padByte ⟨bytes, bits.length⟩ = .ok ⟨stored, capacity⟩ ∧
      Packed stored (bits ++ pads ((capacity - bits.length) / 8) padByte) cleared ∧
      stored.length = bytes.length := by
  induction rounds generalizing padByte bytes bits with
  | zero =>
      have full : capacity = bits.length := by omega
      subst full
      rw [Nat.sub_self, Nat.zero_div, pads, List.append_nil]
      exact ⟨bytes, rfl, packed, rfl⟩
  | succ rounds inductionHypothesis =>
      by_cases more : bits.length < capacity
      · have length : (bits ++ valueBits padByte 8).length = bits.length + 8 := by
          rw [List.length_append, length_valueBits]
        obtain ⟨middle, runs, packedMiddle, sameMiddle⟩ :=
          appends_appendBitsToBuffer .qrcode padByte 8 packed
            (by rw [length_valueBits]; omega)
        obtain ⟨stored, rest, packedStored, same⟩ := @inductionHypothesis (padByte ^^^ (0xEC ^^^ 0x11))
          _ _ packedMiddle (by omega) (by omega) (by omega)
        have count : (capacity - bits.length) / 8 = (capacity - (bits ++ valueBits padByte 8).length) / 8 + 1 := by
          omega
        refine ⟨stored, ?_, ?_, same.trans sameMiddle⟩
        · rw [appendPadding, if_pos more, runs, run_ok_bind, rest]
        · rw [count, pads, ← List.append_assoc]
          exact packedStored
      · have full : capacity = bits.length := by omega
        subst full
        rw [Nat.sub_self, Nat.zero_div, pads, List.append_nil]
        exact ⟨bytes, if_neg more, packed, rfl⟩

theorem fillBits_eq {capacity : Nat} {bytes : List UInt8} {bits : List Bool} {cleared : Nat}
    (packed : Packed bytes bits cleared) (whole : capacity % 8 = 0) (fits : bits.length ≤ capacity)
    (room : capacity ≤ 8 * cleared) :
    ∃ stored, fillBits capacity ⟨bytes, bits.length⟩ = .ok ⟨stored, capacity⟩ ∧
      Packed stored (bits ++ filling bits.length capacity) cleared ∧ stored.length = bytes.length := by
  let terminatorBits := min 4 (capacity - bits.length)
  let rest := (8 - (bits.length + terminatorBits) % 8) % 8
  have terminator : (if 4 < capacity - bits.length then 4 else capacity - bits.length) =
      terminatorBits := by
    change _ = min 4 (capacity - bits.length)
    split <;> omega
  have aligned : (bits.length + terminatorBits + rest) % 8 = 0 ∧
      bits.length + terminatorBits + rest ≤ capacity := by
    change (bits.length + min 4 (capacity - bits.length) +
        (8 - (bits.length + min 4 (capacity - bits.length)) % 8) % 8) % 8 = 0 ∧
      bits.length + min 4 (capacity - bits.length) +
        (8 - (bits.length + min 4 (capacity - bits.length)) % 8) % 8 ≤ capacity
    omega
  obtain ⟨first, runsFirst, packedFirst, sameFirst⟩ :=
    appends_appendBitsToBuffer .qrcode 0 terminatorBits packed
      (by rw [length_valueBits]; omega)
  have lengthFirst : (bits ++ valueBits 0 terminatorBits).length = bits.length + terminatorBits := by
    rw [List.length_append, length_valueBits]
  obtain ⟨second, runsSecond, packedSecond, sameSecond⟩ :=
    appends_appendBitsToBuffer .qrcode 0 rest packedFirst
      (by rw [length_valueBits, lengthFirst]; omega)
  have lengthSecond : (bits ++ valueBits 0 terminatorBits ++ valueBits 0 rest).length =
      bits.length + terminatorBits + rest := by
    rw [List.length_append, lengthFirst, length_valueBits]
  obtain ⟨stored, runs, packedAll, same⟩ := @appendPadding_eq capacity capacity 0xEC _ _ _
    packedSecond (by rw [lengthSecond]; exact aligned.1) whole (by rw [lengthSecond]; exact aligned.2)
    (by omega) room
  rw [lengthFirst] at runsFirst runsSecond
  rw [lengthSecond] at runsSecond runs packedAll
  refine ⟨stored, ?_, ?_, same.trans (sameSecond.trans sameFirst)⟩
  · rw [fillBits]
    dsimp only
    rw [terminator, runsFirst, run_ok_bind]
    change (appendBitsToBuffer .qrcode 0 rest ⟨first, bits.length + terminatorBits⟩ >>= _) = _
    rw [runsSecond, run_ok_bind, runs]
  · rw [valueBits_zero, valueBits_zero, List.append_assoc bits, List.replicate_append_replicate,
      List.append_assoc] at packedAll
    have shape : filling bits.length capacity = List.replicate (terminatorBits + rest) false ++
        pads ((capacity - (bits.length + terminatorBits + rest)) / 8) 0xEC := by
      have count : bits.length + terminatorBits + rest - bits.length = terminatorBits + rest := by omega
      rw [← count]
      rfl
    rwa [shape]

theorem rawCodewords_lt (version : Version) : rawCodewords version < bufferLen version.side := by
  have all : ∀ version ∈ versions, rawCodewords version < bufferLen version.side := by decide +kernel
  exact all version (mem_versions version)

theorem getNumDataCodewords_le (version : Version) (ecl : qrcodegen_Ecc) :
    getNumDataCodewords version ecl ≤ rawCodewords version := Nat.sub_le _ _

theorem getNumDataCodewords_add_blockEccLen_le (version : Version) (ecl : qrcodegen_Ecc) :
    getNumDataCodewords version ecl + blockEccLen version ecl ≤ rawCodewords version := by
  have least := (sound version ecl).codewords.1
  have one : blockEccLen version ecl ≤ blockEccLen version ecl * numBlocks version ecl :=
    Nat.le_mul_of_pos_right _ (sound version ecl).blocks
  rw [getNumDataCodewords] at least ⊢
  omega

/-- The buffer begins with the bits of the segments and with what fills the symbol. -/
theorem packSegments_eq (valid : ∀ seg ∈ segs, Valid seg) (fits : Fits version ecl segs)
    (room : bufferLen version.side ≤ qrcode.length) :
    ∃ packed, packSegments segs version ecl qrcode = .ok packed ∧
      packed.length = qrcode.length ∧
      bytesBits (packed.take (getNumDataCodewords version ecl)) = segmentsBits version segs ++
        filling (segmentsBits version segs).length (getNumDataCodewords version ecl * 8) := by
  let count := bufferLen version.side
  have raw := rawCodewords_lt version
  have data := getNumDataCodewords_le version ecl
  have used := fits.2
  have inside : getNumDataCodewords version ecl * 8 ≤ 8 * count := by
    change _ ≤ 8 * bufferLen version.side
    omega
  have cleared : memset .qrcode qrcode count = .ok (List.replicate count 0 ++ qrcode.drop count) :=
    if_pos room
  have length : (List.replicate count (0 : UInt8) ++ qrcode.drop count).length = qrcode.length := by
    rw [List.length_append, List.length_replicate, List.length_drop]
    exact Nat.add_sub_cancel' room
  obtain ⟨first, runsFirst, packedFirst, sameFirst⟩ :=
    appends_foldlM (fun seg mem => appends_appendSegment (valid seg mem) version)
      (packed_replicate (qrcode.drop count) count) (by
        rw [List.length_nil, Nat.zero_add]
        exact le_trans used inside)
  rw [List.nil_append] at runsFirst packedFirst
  change segs.foldlM (appendSegment version) ⟨_, 0⟩ =
    .ok ⟨first, (segmentsBits version segs).length⟩ at runsFirst
  change Packed first (segmentsBits version segs) count at packedFirst
  obtain ⟨packed, fills, packedAll, same⟩ := fillBits_eq packedFirst (Nat.mul_mod_left _ _) used inside
  refine ⟨packed, ?_, same.trans (sameFirst.trans length), ?_⟩
  · rw [packSegments, cleared, run_ok_bind, runsFirst, run_ok_bind, fills, run_ok_bind]
  · refine packedAll.bytesBits_take ?_
    rw [List.length_append, length_filling used (Nat.mul_mod_left _ _)]
    omega

end Pack

/-! ## What is drawn -/

/-- The bits of the codewords with the mask taken off. -/
def codewordBits (version : Version) (mask : Mask) (picture : Nat × Nat → Bool) : List Bool :=
  (codewordModules version).map fun point => picture point ^^ maskAt version mask point

structure Written (version : Version) (ecl : qrcodegen_Ecc) (mask : Mask) (data : List UInt8)
    (picture : Nat × Nat → Bool) : Prop where
  format : ∀ i < 15, picture (firstPlace i) = (formatBits ecl mask).testBit i
  codewords : ∃ words, words.length = rawCodewords version ∧
    (codewordBits version mask picture).take (8 * rawCodewords version) = bytesBits words ∧
    (List.range (numBlocks version ecl)).flatMap (dataAt version ecl words) = data ∧
    ∀ i < numBlocks version ecl,
      Vanishes ⟨2⟩ (blockEccLen version ecl) (lift (wordAt version ecl words i))

section Drawn

variable {version : Version} {ecl : qrcodegen_Ecc} {tempBuffer qrcode : List UInt8}

theorem byteAt_take {bytes : List UInt8} {count k : Nat} (inside : k < count) :
    byteAt (bytes.take count) k = byteAt bytes k := by
  rw [byteAt, byteAt, List.getD_eq_getElem?_getD, List.getD_eq_getElem?_getD,
    List.getElem?_take_of_lt inside]

theorem dataAt_take {words : List UInt8} {i : Nat} (inside : i < numBlocks version ecl) :
    dataAt version ecl (words.take (rawCodewords version)) i = dataAt version ecl words i := by
  refine List.map_congr_left fun j mem => byteAt_take ?_
  have below := @Layout.dataPlace_lt (layout version ecl) i j inside (List.mem_range.mp mem)
  have all := total_layout version ecl
  rw [Layout.total] at all
  change (layout version ecl).dataPlace i j < _
  omega

theorem eccAt_take {words : List UInt8} {i : Nat} (inside : i < numBlocks version ecl) :
    eccAt version ecl (words.take (rawCodewords version)) i = eccAt version ecl words i := by
  refine List.map_congr_left fun j mem => byteAt_take ?_
  have below := @Layout.checkPlace_lt (layout version ecl) i j inside (List.mem_range.mp mem)
  rw [total_layout, ← eccPlace_layout] at below
  exact below

theorem drawSymbol_eq (roomTemp : bufferLen version.side ≤ tempBuffer.length)
    (room : bufferLen version.side ≤ qrcode.length) (ecl : qrcodegen_Ecc) :
    ∃ marked drawn words, drawSymbol version ecl tempBuffer qrcode = .ok (marked, drawn) ∧
      Maskable version marked drawn ∧ marked.length = tempBuffer.length ∧ drawn.length = qrcode.length ∧
      words.length = rawCodewords version ∧
      ((codewordModules version).map (moduleAt drawn version.side)).take (8 * rawCodewords version) =
        bytesBits words ∧
      (List.range (numBlocks version ecl)).flatMap (dataAt version ecl words) =
        qrcode.take (getNumDataCodewords version ecl) ∧
      ∀ i < numBlocks version ecl,
        Vanishes ⟨2⟩ (blockEccLen version ecl) (lift (wordAt version ecl words i)) := by
  have raw := rawCodewords_lt version
  have data := getNumDataCodewords_le version ecl
  have work := getNumDataCodewords_add_blockEccLen_le version ecl
  have whole : getNumDataCodewords version ecl + blockEccLen version ecl ≤ qrcode.length := by omega
  have fits : rawCodewords version ≤ tempBuffer.length := by omega
  obtain ⟨scratch, stored, interleaves, scratched, sameStored, -, -⟩ :=
    @addEccAndInterleave_eq version ecl qrcode tempBuffer whole fits
  have sameScratch := scratched.length
  obtain ⟨blank, initializes, symbolBlank, sameBlank, pictureBlank⟩ :=
    @initializeFunctionModules_eq .qrcode version scratch (by omega)
  obtain ⟨filled, fills, keptFilled, sameFilled, bits⟩ :=
    drawCodewords_eq symbolBlank pictureBlank (show rawCodewords version ≤ stored.length by omega)
  obtain ⟨drawn, draws, keptDrawn⟩ :=
    @drawWhiteFunctionModules_kept .qrcode version filled keptFilled.symbol
  obtain ⟨marked, marks, symbolMarked, sameMarked, pictureMarked⟩ :=
    @initializeFunctionModules_eq .tempBuffer version stored (by omega)
  refine ⟨marked, drawn, stored.take (rawCodewords version), ?_,
    ⟨keptDrawn.symbol, symbolMarked, pictureMarked⟩,
    sameMarked.trans sameStored, by rw [keptDrawn.length, sameFilled, sameBlank, sameScratch],
    List.length_take_of_le (by omega), ?_, ?_, ?_⟩
  · rw [drawSymbol, interleaves, run_ok_bind]
    dsimp only
    rw [initializes, run_ok_bind, ← rawCodewords, fills, run_ok_bind,
      draws, run_ok_bind, marks]
    rfl
  · rw [← bits]
    refine congrArg (List.take _) (List.map_congr_left fun point mem => ?_)
    exact keptDrawn.others point (mem_codewordModules mem).2
  · rw [← data_of_run whole fits interleaves]
    exact List.flatMap_congr fun i mem => dataAt_take (List.mem_range.mp mem)
  · intro i inside
    rw [wordAt, dataAt_take inside, eccAt_take inside]
    exact vanishes_of_run whole fits interleaves inside

theorem written_finished {picture : Nat × Nat → Bool} {words data : List UInt8} (mask : Mask)
    (length : words.length = rawCodewords version)
    (bits : ((codewordModules version).map picture).take (8 * rawCodewords version) = bytesBits words)
    (content : (List.range (numBlocks version ecl)).flatMap (dataAt version ecl words) = data)
    (vanishes : ∀ i < numBlocks version ecl,
      Vanishes ⟨2⟩ (blockEccLen version ecl) (lift (wordAt version ecl words i))) :
    Written version ecl mask data (finished version ecl picture mask) := by
  refine ⟨fun i small => plot_formatDots version _ _ small, words, length, ?_, content, vanishes⟩
  rw [← bits]
  refine congrArg (List.take _) (List.map_congr_left fun point mem => ?_)
  have masked : finished version ecl picture mask point =
      (picture point ^^ maskAt version mask point) := by
    refine plot_of_miss fun dot dotMem here => ?_
    have function := isFunction_formatDots version _ dot dotMem
    rw [here, (mem_codewordModules mem).2] at function
    cases function
  rw [masked, Bool.xor_assoc, Bool.xor_self, Bool.xor_false]

end Drawn

/-! ## The whole -/

section Whole

variable {ecl : qrcodegen_Ecc} {minVersion maxVersion version : Version} {mask : Option Mask}
  {boostEcl : Bool} {segs : List qrcodegen_Segment} {tempBuffer qrcode : List UInt8}

/-- The least version in the range that holds the segments. -/
def leastVersion (segs : List qrcodegen_Segment) (ecl : qrcodegen_Ecc) (minVersion maxVersion : Version) :
    Option Version :=
  (versionsFrom minVersion maxVersion).find? fun version => Fits version ecl segs

theorem mem_versionsFrom (order : minVersion.ver ≤ maxVersion.ver) :
    version ∈ versionsFrom minVersion maxVersion ↔
      minVersion.ver ≤ version.ver ∧ version.ver ≤ maxVersion.ver := by
  rw [versionsFrom, List.mem_filter, decide_eq_true_eq, Nat.max_eq_right order]
  exact and_iff_right (mem_versions version)

theorem leastVersion_none (order : minVersion.ver ≤ maxVersion.ver)
    (missing : leastVersion segs ecl minVersion maxVersion = none)
    (low : minVersion.ver ≤ version.ver) (high : version.ver ≤ maxVersion.ver) :
    ¬Fits version ecl segs := by
  have here := List.find?_eq_none.mp missing version ((mem_versionsFrom order).mpr ⟨low, high⟩)
  simpa using here

theorem leastVersion_some (order : minVersion.ver ≤ maxVersion.ver)
    (least : leastVersion segs ecl minVersion maxVersion = some version) :
    minVersion.ver ≤ version.ver ∧ version.ver ≤ maxVersion.ver ∧ Fits version ecl segs ∧
      ∀ other : Version, minVersion.ver ≤ other.ver → other.ver ≤ maxVersion.ver →
        Fits other ecl segs → version.ver ≤ other.ver := by
  obtain ⟨low, high⟩ := (mem_versionsFrom order).mp (List.mem_of_find?_eq_some least)
  obtain ⟨fits, before, after, split, without⟩ := List.find?_eq_some_iff_append.mp least
  refine ⟨low, high, by simpa using fits, fun other otherLow otherHigh otherFits => ?_⟩
  have sorted : (versionsFrom minVersion maxVersion).Pairwise
      fun first second => first.ver < second.ver := by
    have all : versions.Pairwise fun first second => first.ver < second.ver := by decide +kernel
    exact all.filter _
  have listed := (mem_versionsFrom order).mpr ⟨otherLow, otherHigh⟩
  rw [split] at sorted listed
  rcases List.mem_append.mp listed with early | late
  · have unfit := without other early
    simp only [Bool.not_eq_true', decide_eq_false_iff_not] at unfit
    exact absurd otherFits unfit
  · rcases List.mem_cons.mp late with rfl | later
    · exact le_refl _
    · exact le_of_lt (List.rel_of_pairwise_cons (List.pairwise_append.mp sorted).2.1 later)

theorem boost_fits (boostEcl : Bool) (fits : Fits version ecl segs) :
    Fits version (boost boostEcl version (segmentsBits version segs).length ecl) segs := by
  have rounds : ∀ (levels : List qrcodegen_Ecc) (ecl : qrcodegen_Ecc), Fits version ecl segs →
      Fits version (levels.foldl (fun ecl i => if boostEcl &&
        ((segmentsBits version segs).length : Int) ≤ getNumDataCodewords version i * 8 then i else ecl)
        ecl) segs := by
    intro levels
    induction levels with
    | nil => exact fun _ fits => fits
    | cons level levels inductionHypothesis =>
        intro ecl fits
        refine inductionHypothesis _ ?_
        dsimp only
        split_ifs with room
        · rw [Bool.and_eq_true, decide_eq_true_eq] at room
          exact ⟨fits.1, by exact_mod_cast room.2⟩
        · exact fits
  exact rounds _ _ fits

theorem encodeSegmentsAdvanced_none (valid : ∀ seg ∈ segs, Valid seg) (filled : qrcode ≠ [])
    (missing : leastVersion segs ecl minVersion maxVersion = none) :
    qrcodegen_encodeSegmentsAdvanced ecl minVersion maxVersion mask boostEcl segs tempBuffer qrcode =
      .ok ⟨false, tempBuffer, qrcode.set 0 0⟩ := by
  rw [qrcodegen_encodeSegmentsAdvanced, findVersion_eq valid, ← leastVersion, missing]
  dsimp only [Option.map_none]
  rw [store_eq (List.length_pos_of_ne_nil filled), run_ok_bind]

theorem bufferLen_mono {side other : Nat} (le : side ≤ other) : bufferLen side ≤ bufferLen other := by
  have square : side * side ≤ other * other := Nat.mul_le_mul le le
  rw [bufferLen, bufferLen]
  omega

/-- One and the same symbol is masked, whatever the mask. -/
theorem encodeSegmentsAdvanced_some (order : minVersion.ver ≤ maxVersion.ver)
    (valid : ∀ seg ∈ segs, Valid seg) (roomTemp : bufferLen maxVersion.side ≤ tempBuffer.length)
    (room : bufferLen maxVersion.side ≤ qrcode.length)
    (least : leastVersion segs ecl minVersion maxVersion = some version) (boostEcl : Bool) :
    let level := boost boostEcl version (segmentsBits version segs).length ecl
    ∃ marked base data, Maskable version marked base ∧ marked.length = tempBuffer.length ∧
      base.length = qrcode.length ∧ data.length = getNumDataCodewords version level ∧
      bytesBits data = segmentsBits version segs ++
        filling (segmentsBits version segs).length (getNumDataCodewords version level * 8) ∧
      (∀ mask, Written version level mask data
        (finished version level (moduleAt base version.side) mask)) ∧
      ∀ mask, qrcodegen_encodeSegmentsAdvanced ecl minVersion maxVersion mask boostEcl segs tempBuffer
        qrcode = (handleMasking level mask marked base).map fun drawn => ⟨true, marked, drawn⟩ := by
  intro level
  have listed := ((mem_versionsFrom order).mp (List.mem_of_find?_eq_some least)).2
  have fits : Fits version ecl segs := by simpa using List.find?_some least
  have smaller : bufferLen version.side ≤ bufferLen maxVersion.side :=
    bufferLen_mono (by rw [Version.side, Version.side]; omega)
  obtain ⟨packed, packs, samePacked, content⟩ := packSegments_eq valid (boost_fits boostEcl fits)
    (show bufferLen version.side ≤ qrcode.length by omega)
  obtain ⟨marked, base, words, draws, maskable, sameMarked, sameBase, length, bits, dataWords, vanishes⟩ :=
    drawSymbol_eq (show bufferLen version.side ≤ tempBuffer.length by omega)
      (show bufferLen version.side ≤ packed.length by omega) level
  have raw := rawCodewords_lt version
  have capacity := getNumDataCodewords_le version level
  refine ⟨marked, base, packed.take (getNumDataCodewords version level), maskable, sameMarked,
    sameBase.trans samePacked, List.length_take_of_le (by omega), content,
    fun mask => written_finished mask length bits dataWords vanishes, fun mask => ?_⟩
  rw [qrcodegen_encodeSegmentsAdvanced, findVersion_eq valid, ← leastVersion, least]
  dsimp only [Option.map_some]
  rw [packs, run_ok_bind, draws, run_ok_bind]
  rfl

end Whole

/-- A search for the best mask ends with the symbol that asking for this mask gives, and no
other mask gives one with a lower score; of equal ones the first is taken. -/
theorem encodeSegmentsAdvanced_auto (ecl : qrcodegen_Ecc) {minVersion maxVersion : Version}
    {segs : List qrcodegen_Segment} {tempBuffer qrcode : List UInt8} (boostEcl : Bool)
    (order : minVersion.ver ≤ maxVersion.ver) (valid : ∀ seg ∈ segs, Valid seg)
    (roomTemp : bufferLen maxVersion.side ≤ tempBuffer.length)
    (room : bufferLen maxVersion.side ≤ qrcode.length) {encoded : Encoded}
    (runs : qrcodegen_encodeSegmentsAdvanced ecl minVersion maxVersion none boostEcl segs tempBuffer
      qrcode = .ok encoded) (returned : encoded.returned = true) :
    ∃ score chosen, getPenaltyScore encoded.qrcode = .ok score ∧
      (∃ same, qrcodegen_encodeSegmentsAdvanced ecl minVersion maxVersion (some chosen) boostEcl segs
          tempBuffer qrcode = .ok same ∧
        ∀ x y, qrcodegen_getModule same.qrcode x y = qrcodegen_getModule encoded.qrcode x y) ∧
      ∀ mask, ∃ other otherScore, qrcodegen_encodeSegmentsAdvanced ecl minVersion maxVersion (some mask)
          boostEcl segs tempBuffer qrcode = .ok other ∧ other.returned = true ∧
        getPenaltyScore other.qrcode = .ok otherScore ∧ score ≤ otherScore ∧
        (mask < chosen → score < otherScore) := by
  cases least : leastVersion segs ecl minVersion maxVersion with
  | none =>
      have filled : 0 < qrcode.length := lt_of_lt_of_le (Nat.succ_pos _) room
      rw [encodeSegmentsAdvanced_none valid (List.ne_nil_of_length_pos filled) least] at runs
      obtain rfl := Except.ok.inj runs
      cases returned
  | some version =>
      obtain ⟨marked, base, -, maskable, -, -, -, -, -, masks⟩ :=
        encodeSegmentsAdvanced_some order valid roomTemp room least boostEcl
      obtain ⟨drawn, chosen, draws, maskableDrawn, -, choice, shape⟩ := handleMasking_eq maskable none
      rw [masks, draws] at runs
      obtain rfl := Except.ok.inj runs
      refine ⟨_, chosen, penalty_of_finished maskableDrawn shape, ?_, fun mask => ?_⟩
      · obtain ⟨same, wanted, drawsSame, maskableSame, -, choiceSame, shapeSame⟩ :=
          handleMasking_eq maskable (some chosen)
        refine ⟨⟨true, marked, same⟩, by rw [masks, drawsSame]; rfl, fun x y => ?_⟩
        rw [qrcodegen_getModule_eq maskableSame.symbol, qrcodegen_getModule_eq maskableDrawn.symbol, shape,
          shapeSame, eq_of_chosen choiceSame]
      · obtain ⟨other, wanted, drawsOther, maskableOther, -, choiceOther, shapeOther⟩ :=
          handleMasking_eq maskable (some mask)
        rw [eq_of_chosen choiceOther] at shapeOther
        obtain ⟨lower, strict⟩ := le_of_chosen choice mask
        exact ⟨⟨true, marked, other⟩, _, by rw [masks, drawsOther]; rfl, rfl,
          penalty_of_finished maskableOther shapeOther, Int.ofNat_le.mpr lower,
          fun earlier => Int.ofNat_lt.mpr (strict earlier)⟩

/-- Digits and bytes that need version 2. -/
theorem encodeSegmentsAdvanced_auto_two_segments :
    let segs : List qrcodegen_Segment :=
      [⟨.NUMERIC, 3, [0x1E, 0xC0], 10⟩, ⟨.BYTE, 18, List.replicate 18 0x41, 144⟩]
    let three : Version := ⟨3, by decide, by decide⟩
    ∃ encoded score chosen, qrcodegen_encodeSegmentsAdvanced .LOW qrcodegen_VERSION_MIN three none true
        segs (List.replicate 107 0) (List.replicate 107 0xFF) = .ok encoded ∧
      getPenaltyScore encoded.qrcode = .ok score ∧
      ∀ mask < chosen, ∃ other otherScore, qrcodegen_encodeSegmentsAdvanced .LOW qrcodegen_VERSION_MIN
          three (some mask) true segs (List.replicate 107 0) (List.replicate 107 0xFF) = .ok other ∧
        getPenaltyScore other.qrcode = .ok otherScore ∧ score < otherScore := by
  intro segs three
  have valid : ∀ seg ∈ segs, Valid seg := by
    intro seg mem
    simp only [segs, List.mem_cons, List.not_mem_nil, or_false] at mem
    rcases mem with rfl | rfl
    all_goals exact ⟨by decide, by decide, by decide⟩
  have order : qrcodegen_VERSION_MIN.ver ≤ three.ver := by decide
  have roomTemp : bufferLen three.side ≤ (List.replicate 107 (0 : UInt8)).length := by decide
  have room : bufferLen three.side ≤ (List.replicate 107 (0xFF : UInt8)).length := by decide
  have least : leastVersion segs .LOW qrcodegen_VERSION_MIN three =
      some ⟨2, by decide, by decide⟩ := by decide +kernel
  obtain ⟨marked, base, -, maskable, -, -, -, -, -, masks⟩ :=
    encodeSegmentsAdvanced_some order valid roomTemp room least true
  obtain ⟨drawn, -, draws, -⟩ := handleMasking_eq maskable none
  have runs := masks none
  rw [draws] at runs
  obtain ⟨score, chosen, scores, -, others⟩ :=
    encodeSegmentsAdvanced_auto .LOW true order valid roomTemp room runs rfl
  refine ⟨_, score, chosen, runs, scores, fun mask earlier => ?_⟩
  obtain ⟨other, otherScore, otherRuns, -, otherScores, -, lower⟩ := others mask
  exact ⟨other, otherScore, otherRuns, otherScores, lower earlier⟩

end WifiIot.Qrcodegen
