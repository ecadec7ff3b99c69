import WifiIot.Qrcodegen.Reader

/-!
# Texts, bytes and designators

A text is encoded in the first mode that has all its characters, or not at all.  A segment
without characters selects their meaning by a number.

Source: `qrcode_gen/src/qrcodegen.c`.
-/

namespace WifiIot.Qrcodegen

open Coding Memory Raster

def textMode (text : Text) : qrcodegen_Mode :=
  if qrcodegen_isNumeric text then .NUMERIC
  else if qrcodegen_isAlphanumeric text then .ALPHANUMERIC
  else .BYTE

def CharsFit (version : Version) (ecl : qrcodegen_Ecc) (mode : qrcodegen_Mode) (count : Nat) : Prop :=
  count < 2 ^ numCharCountBits mode version ∧
    4 + numCharCountBits mode version + bitCount mode count ≤ getNumDataCodewords version ecl * 8

instance (version : Version) (ecl : qrcodegen_Ecc) (mode : qrcodegen_Mode) (count : Nat) :
    Decidable (CharsFit version ecl mode count) := inferInstanceAs (Decidable (_ ∧ _))

def TextFits (version : Version) (ecl : qrcodegen_Ecc) (text : Text) : Prop :=
  strlen text = 0 ∨ CharsFit version ecl (textMode text) (strlen text)

section Segment

variable {version maxVersion : Version} {ecl : qrcodegen_Ecc} {mode : qrcodegen_Mode} {count : Nat}
  {text : Text} {tempBuffer : List UInt8}

theorem calcSegmentBufferSize_eq (mem : mode ∈ textModes) :
    qrcodegen_calcSegmentBufferSize mode count =
      if INT16_MAX < bitCount mode count then SIZE_MAX else (bitCount mode count + 7) / 8 := by
  rw [qrcodegen_calcSegmentBufferSize]
  by_cases large : INT16_MAX < bitCount mode count
  · rw [calcSegmentBitLength_large mem large, if_pos large]
    rfl
  · have small := not_lt.mp large
    rw [calcSegmentBitLength_small mem small, if_neg large]
    rw [if_neg (by omega), Int.toNat_natCast]

/-- What has no room in the buffer has none in any symbol. -/
theorem not_charsFit (order : version.ver ≤ maxVersion.ver)
    (large : INT16_MAX < bitCount mode count ∨ 8 * bufferLen maxVersion.side < bitCount mode count) :
    ¬CharsFit version ecl mode count := by
  rintro ⟨-, fits⟩
  have capacity := (sound version ecl).codewords.2
  have raw := rawCodewords_lt version
  have data := getNumDataCodewords_le version ecl
  have smaller : bufferLen version.side ≤ bufferLen maxVersion.side :=
    bufferLen_mono (by rw [Version.side, Version.side]; omega)
  rw [INT16_MAX] at large
  omega

theorem copyText_eq (room : strlen text ≤ tempBuffer.length) :
    ∃ copied, (List.range (strlen text)).foldlM (fun tempBuffer i =>
        store .tempBuffer tempBuffer i (text.val.getD i 0)) tempBuffer = .ok copied ∧
      copied.length = tempBuffer.length ∧ copied.take (strlen text) = text.val := by
  obtain ⟨copied, runs, same, picture⟩ := @foldlM_store .tempBuffer tempBuffer
    ((List.range (strlen text)).map fun i => (i, text.val.getD i 0)) fun stroke mem => by
      obtain ⟨i, listed, rfl⟩ := List.mem_map.mp mem
      exact lt_of_lt_of_le (List.mem_range.mp listed) room
  rw [List.foldlM_map] at runs
  refine ⟨copied, runs, same, List.ext_getElem ?_ fun i inFirst inSecond => ?_⟩
  · rw [List.length_take_of_le (by rwa [same])]
    rfl
  · have inside : i < copied.length := by
      rw [List.length_take] at inFirst
      omega
    have shown : byteAt copied i = text.val.getD i 0 := by
      rw [picture]
      exact plot_place (fun _ _ _ _ same => same) inSecond
    rw [List.getElem_take, List.getElem_eq_getD 0, List.getElem_eq_getD 0]
    exact shown

theorem makeInMode_eq {make : Text → List UInt8 → Run qrcodegen_Segment} (mem : mode ∈ textModes)
    (room : bufferLen maxVersion.side ≤ tempBuffer.length)
    (makes : bitCount mode (strlen text) ≤ INT16_MAX →
      (bitCount mode (strlen text) + 7) / 8 ≤ tempBuffer.length →
        ∃ seg, make text tempBuffer = .ok seg ∧ seg.mode = mode ∧ Holds seg text.val ∧
          seg.data.length = tempBuffer.length) :
    ∃ written made,
      makeInMode mode make text (bufferLen maxVersion.side) tempBuffer = .ok (written, made) ∧
      written.length = tempBuffer.length ∧
      ((made = none ∧ (INT16_MAX < bitCount mode (strlen text) ∨
          8 * bufferLen maxVersion.side < bitCount mode (strlen text))) ∨
        ∃ seg, made = some seg ∧ seg.mode = mode ∧ Holds seg text.val) := by
  have small : bufferLen maxVersion.side < SIZE_MAX :=
    lt_of_le_of_lt (bufferLen_mono (side_bounds maxVersion).2) (by decide)
  rw [makeInMode, calcSegmentBufferSize_eq mem]
  by_cases large : INT16_MAX < bitCount mode (strlen text)
  · rw [if_pos large, if_pos small]
    exact ⟨tempBuffer, none, rfl, rfl, .inl ⟨rfl, .inl large⟩⟩
  · rw [if_neg large]
    by_cases long : bufferLen maxVersion.side < (bitCount mode (strlen text) + 7) / 8
    · rw [if_pos long]
      exact ⟨tempBuffer, none, rfl, rfl, .inl ⟨rfl, .inr (by omega)⟩⟩
    · obtain ⟨seg, runs, modeSeg, holds, same⟩ := makes (not_lt.mp large) (by omega)
      rw [if_neg long, runs, run_ok_bind]
      exact ⟨seg.data, some seg, rfl, same, .inr ⟨seg, rfl, modeSeg, holds⟩⟩

theorem makeTextSegment_eq (text : Text) (room : bufferLen maxVersion.side ≤ tempBuffer.length) :
    ∃ written made, makeTextSegment text (bufferLen maxVersion.side) tempBuffer = .ok (written, made) ∧
      written.length = tempBuffer.length ∧
      ((made = none ∧ (INT16_MAX < bitCount (textMode text) (strlen text) ∨
          8 * bufferLen maxVersion.side < bitCount (textMode text) (strlen text))) ∨
        ∃ seg, made = some seg ∧ seg.mode = textMode text ∧ Holds seg text.val) := by
  rw [makeTextSegment, textMode]
  by_cases digits : qrcodegen_isNumeric text = true
  · rw [if_pos digits, if_pos digits]
    exact makeInMode_eq (by decide) room fun small enough => makeNumeric_holds digits small enough
  · rw [if_neg digits, if_neg digits]
    by_cases charset : qrcodegen_isAlphanumeric text = true
    · rw [if_pos charset, if_pos charset]
      exact makeInMode_eq (by decide) room fun small enough => makeAlphanumeric_holds charset small enough
    · have bits : bitCount .BYTE (strlen text) = strlen text * 8 := rfl
      rw [if_neg charset, if_neg charset]
      by_cases long : bufferLen maxVersion.side < strlen text
      · rw [if_pos long]
        exact ⟨tempBuffer, none, rfl, rfl, .inl ⟨rfl, .inr (by omega)⟩⟩
      · obtain ⟨copied, copies, same, front⟩ := @copyText_eq text tempBuffer (by omega)
        rw [if_neg long, copies, run_ok_bind]
        by_cases large : INT16_MAX < bitCount .BYTE (strlen text)
        · rw [calcSegmentBitLength_large (by decide) large, if_pos rfl]
          exact ⟨copied, none, rfl, same, .inl ⟨rfl, .inl large⟩⟩
        · have holds := @holds_bytes (strlen text) copied (by omega) (by omega)
          rw [front] at holds
          rw [calcSegmentBitLength_small (by decide) (not_lt.mp large), if_neg (by omega)]
          exact ⟨copied, _, rfl, same, .inr ⟨_, rfl, rfl, holds⟩⟩

theorem fits_singleton {seg : qrcodegen_Segment} {text : List UInt8} (holds : Holds seg text) :
    Fits version ecl [seg] ↔ CharsFit version ecl seg.mode text.length := by
  have bits : (segmentsBits version [seg]).length =
      4 + numCharCountBits seg.mode version + bitCount seg.mode text.length := by
    rw [segmentsBits, List.flatMap_singleton, length_headedBits, holds.bitLength, Int.toNat_natCast]
  rw [Fits, CharsFit, bits, List.forall_mem_singleton, holds.numChars]

end Segment

/-! ## The two functions -/

section Text

variable {minVersion maxVersion : Version} {ecl : qrcodegen_Ecc} {tempBuffer qrcode : List UInt8}

structure Outcome (fits : Version → Prop) (text : List UInt8) (minVersion maxVersion : Version)
    (encoded : Encoded) : Prop where
  returned : encoded.returned = true ↔
    ∃ version : Version, minVersion.ver ≤ version.ver ∧ version.ver ≤ maxVersion.ver ∧ fits version
  symbol : encoded.returned = true →
    ∃ version : Version, version.ver ≤ maxVersion.ver ∧ Symbol encoded.qrcode version.side
  reads : encoded.returned = true → readSymbol encoded.qrcode = some text
  failed : encoded.returned = false → byteAt encoded.qrcode 0 = 0

theorem outcome_of_advanced {segs : List qrcodegen_Segment} {texts : List (List UInt8)}
    (order : minVersion.ver ≤ maxVersion.ver) (holds : List.Forall₂ Holds segs texts)
    (roomTemp : bufferLen maxVersion.side ≤ tempBuffer.length)
    (room : bufferLen maxVersion.side ≤ qrcode.length) (mask : Option Mask) (boostEcl : Bool) :
    ∃ encoded, qrcodegen_encodeSegmentsAdvanced ecl minVersion maxVersion mask boostEcl segs
        tempBuffer qrcode = .ok encoded ∧
      Outcome (fun version => Fits version ecl segs) texts.flatten minVersion maxVersion encoded := by
  obtain ⟨encoded, runs, -, -, outcome⟩ :=
    @encodeSegmentsAdvanced_outcome ecl _ _ _ _ _ order (valid_of_holds holds) roomTemp room mask boostEcl
  refine ⟨encoded, runs, ?_⟩
  rcases outcome with ⟨missing, failed, zero⟩ | ⟨version, least, returned, drawn⟩
  · have without : ¬encoded.returned = true := by rw [failed]; exact Bool.false_ne_true
    refine ⟨iff_of_false without ?_, fun done => absurd done without, fun done => absurd done without,
      fun _ => zero⟩
    rintro ⟨version, low, high, fits⟩
    exact leastVersion_none order missing low high fits
  · obtain ⟨low, high, fits, -⟩ := leastVersion_some order least
    exact ⟨iff_of_true returned ⟨version, low, high, fits⟩, fun _ => ⟨version, high, drawn.symbol⟩,
      fun _ => drawn.reads (boost_fits boostEcl fits) holds,
      fun failed => absurd (failed.symm.trans returned) Bool.false_ne_true⟩

theorem Outcome.congr {fits other : Version → Prop} {text : List UInt8} {encoded : Encoded}
    (outcome : Outcome fits text minVersion maxVersion encoded)
    (same : ∀ version, fits version ↔ other version) :
    Outcome other text minVersion maxVersion encoded :=
  ⟨by simpa only [same] using outcome.returned, outcome.symbol, outcome.reads, outcome.failed⟩

theorem outcome_of_refused {fits : Version → Prop} {text : List UInt8} (room : 0 < qrcode.length)
    (refused : ∀ version : Version, version.ver ≤ maxVersion.ver → ¬fits version)
    (tempBuffer : List UInt8) :
    ∃ stored, store .qrcode qrcode 0 0 = .ok stored ∧
      Outcome fits text minVersion maxVersion ⟨false, tempBuffer, stored⟩ := by
  refine ⟨_, store_eq room 0, iff_of_false Bool.false_ne_true ?_, fun done => ?_, fun done => ?_,
    fun _ => ?_⟩
  · rintro ⟨version, -, high, fits⟩
    exact refused version high fits
  · exact absurd done Bool.false_ne_true
  · exact absurd done Bool.false_ne_true
  · rw [byteAt_set room, Function.update_self]

theorem encodeText_outcome (ecl : qrcodegen_Ecc) (order : minVersion.ver ≤ maxVersion.ver) (text : Text)
    (roomTemp : bufferLen maxVersion.side ≤ tempBuffer.length)
    (room : bufferLen maxVersion.side ≤ qrcode.length) (mask : Option Mask) (boostEcl : Bool) :
    ∃ encoded, qrcodegen_encodeText ecl minVersion maxVersion mask boostEcl text tempBuffer qrcode =
        .ok encoded ∧
      Outcome (fun version => TextFits version ecl text) text.val minVersion maxVersion encoded := by
  rw [qrcodegen_encodeText]
  by_cases empty : strlen text = 0
  · rw [if_pos empty]
    obtain ⟨encoded, runs, outcome⟩ :=
      @outcome_of_advanced _ _ ecl _ _ _ _ order List.Forall₂.nil roomTemp room mask boostEcl
    have nothing : text.val = [] := List.length_eq_zero_iff.mp empty
    rw [nothing]
    refine ⟨encoded, runs, outcome.congr fun version => iff_of_true ?_ (.inl empty)⟩
    exact ⟨fun _ mem => absurd mem List.not_mem_nil, Nat.zero_le _⟩
  · rw [if_neg empty]
    obtain ⟨written, made, makes, same, ends⟩ := @makeTextSegment_eq maxVersion tempBuffer text roomTemp
    rw [makes, run_ok_bind]
    rcases ends with ⟨rfl, large⟩ | ⟨seg, rfl, mode, holds⟩
    · have positive : 0 < qrcode.length := lt_of_lt_of_le (Nat.succ_pos _) room
      have refused : ∀ version : Version, version.ver ≤ maxVersion.ver → ¬TextFits version ecl text :=
        fun version high fits => not_charsFit high large (fits.resolve_left empty)
      obtain ⟨stored, stores, outcome⟩ := outcome_of_refused positive refused written
      dsimp only
      rw [stores]
      exact ⟨_, rfl, outcome⟩
    · obtain ⟨encoded, runs, outcome⟩ := @outcome_of_advanced _ _ ecl _ _ _ _ order
        (List.Forall₂.cons holds List.Forall₂.nil) (by rwa [same]) room mask boostEcl
      rw [List.flatten_singleton] at outcome
      refine ⟨encoded, runs, outcome.congr fun version => ?_⟩
      rw [fits_singleton holds, TextFits, or_iff_right empty, mode]
      rfl

/-- A text comes back from its symbol, and there is a symbol when a version in the range has
room for the text in its mode. -/
theorem encodeText_reads (ecl : qrcodegen_Ecc) (order : minVersion.ver ≤ maxVersion.ver) (text : Text)
    (roomTemp : bufferLen maxVersion.side ≤ tempBuffer.length)
    (room : bufferLen maxVersion.side ≤ qrcode.length) (mask : Option Mask) (boostEcl : Bool) :
    ∃ encoded, qrcodegen_encodeText ecl minVersion maxVersion mask boostEcl text tempBuffer qrcode =
        .ok encoded ∧
      (encoded.returned = true ↔ ∃ version : Version, minVersion.ver ≤ version.ver ∧
        version.ver ≤ maxVersion.ver ∧ TextFits version ecl text) ∧
      (encoded.returned = true → readSymbol encoded.qrcode = some text.val) ∧
      (encoded.returned = false → byteAt encoded.qrcode 0 = 0) := by
  obtain ⟨encoded, runs, outcome⟩ :=
    encodeText_outcome ecl order text roomTemp room mask boostEcl
  exact ⟨encoded, runs, outcome.returned, outcome.reads, outcome.failed⟩

/-- Three digits in version 1. -/
theorem encodeText_reads_digits :
    ∃ encoded, qrcodegen_encodeText .LOW qrcodegen_VERSION_MIN qrcodegen_VERSION_MIN none true
        ⟨[0x31, 0x32, 0x33], by decide⟩ (List.replicate 57 0) (List.replicate 57 0) = .ok encoded ∧
      encoded.returned = true ∧ readSymbol encoded.qrcode = some [0x31, 0x32, 0x33] := by
  have room : bufferLen qrcodegen_VERSION_MIN.side ≤ (List.replicate 57 (0 : UInt8)).length := by decide
  obtain ⟨encoded, runs, returns, reads, -⟩ := encodeText_reads .LOW (le_refl qrcodegen_VERSION_MIN.ver)
    ⟨[0x31, 0x32, 0x33], by decide⟩ room room none true
  have returned : encoded.returned = true :=
    returns.mpr ⟨_, le_refl _, le_refl _, .inr (by decide +kernel)⟩
  exact ⟨encoded, runs, returned, reads returned⟩

/-- Bytes come back from their symbol. -/
theorem encodeBinary_reads (ecl : qrcodegen_Ecc) (order : minVersion.ver ≤ maxVersion.ver) {dataLen : Nat}
    (inside : dataLen ≤ tempBuffer.length) (roomTemp : bufferLen maxVersion.side ≤ tempBuffer.length)
    (room : bufferLen maxVersion.side ≤ qrcode.length) (mask : Option Mask) (boostEcl : Bool) :
    ∃ encoded, qrcodegen_encodeBinary ecl minVersion maxVersion mask boostEcl tempBuffer dataLen qrcode =
        .ok encoded ∧
      (encoded.returned = true ↔ ∃ version : Version, minVersion.ver ≤ version.ver ∧
        version.ver ≤ maxVersion.ver ∧ CharsFit version ecl .BYTE dataLen) ∧
      (encoded.returned = true → readSymbol encoded.qrcode = some (tempBuffer.take dataLen)) ∧
      (encoded.returned = false → byteAt encoded.qrcode 0 = 0) := by
  have length : (tempBuffer.take dataLen).length = dataLen := List.length_take_of_le inside
  rw [qrcodegen_encodeBinary]
  by_cases large : INT16_MAX < bitCount .BYTE dataLen
  · have positive : 0 < qrcode.length := lt_of_lt_of_le (Nat.succ_pos _) room
    have refused : ∀ version : Version, version.ver ≤ maxVersion.ver →
        ¬CharsFit version ecl .BYTE dataLen := fun version high => not_charsFit high (.inl large)
    obtain ⟨stored, stores, outcome⟩ :=
      @outcome_of_refused minVersion maxVersion qrcode _ (tempBuffer.take dataLen) positive refused tempBuffer
    rw [calcSegmentBitLength_large (by decide) large, if_pos rfl, stores]
    exact ⟨_, rfl, outcome.returned, outcome.reads, outcome.failed⟩
  · have holds := @holds_bytes dataLen tempBuffer inside (not_lt.mp large)
    obtain ⟨encoded, runs, outcome⟩ := @outcome_of_advanced _ _ ecl _ _ _ _ order
      (List.Forall₂.cons holds List.Forall₂.nil) roomTemp room mask boostEcl
    rw [List.flatten_singleton] at outcome
    rw [calcSegmentBitLength_small (by decide) (not_lt.mp large), if_neg (by omega)]
    have fits : ∀ version, Fits version ecl [⟨.BYTE, dataLen, tempBuffer, (dataLen * 8 : Nat)⟩] ↔
        CharsFit version ecl .BYTE dataLen := by
      intro version
      rw [fits_singleton holds, length]
    have ends := outcome.congr fits
    exact ⟨encoded, runs, ends.returned, ends.reads, ends.failed⟩

/-- The first two of 57 bytes. -/
theorem encodeBinary_reads_two :
    ∃ encoded, qrcodegen_encodeBinary .LOW qrcodegen_VERSION_MIN qrcodegen_VERSION_MIN none true
        (List.replicate 57 0xA5) 2 (List.replicate 57 0) = .ok encoded ∧
      encoded.returned = true ∧ readSymbol encoded.qrcode = some [0xA5, 0xA5] := by
  have roomTemp : bufferLen qrcodegen_VERSION_MIN.side ≤ (List.replicate 57 (0xA5 : UInt8)).length := by
    decide
  have room : bufferLen qrcodegen_VERSION_MIN.side ≤ (List.replicate 57 (0 : UInt8)).length := by decide
  obtain ⟨encoded, runs, returns, reads, -⟩ := encodeBinary_reads .LOW (le_refl qrcodegen_VERSION_MIN.ver)
    (show 2 ≤ (List.replicate 57 (0xA5 : UInt8)).length by decide) roomTemp room none true
  have returned : encoded.returned = true :=
    returns.mpr ⟨_, le_refl _, le_refl _, by decide +kernel⟩
  exact ⟨encoded, runs, returned, reads returned⟩

end Text

/-! ## Designators -/

/-- The bits of a number that selects a character set. -/
def designatorBits (assignVal : Nat) : List Bool :=
  if assignVal < 2 ^ 7 then valueBits assignVal 8
  else if assignVal < 2 ^ 14 then valueBits 2 2 ++ valueBits assignVal 14
  else valueBits 6 3 ++ valueBits assignVal 21

/-- The number that a reader takes from the front of the bits. -/
def readDesignator : List Bool → Nat
  | false :: bits => toValue (bits.take 7)
  | true :: false :: bits => toValue (bits.take 14)
  | true :: true :: bits => toValue ((bits.drop 1).take 21)
  | [true] => 0
  | [] => 0

theorem valueBits_append (val upper lower : Nat) :
    valueBits (val >>> lower) upper ++ valueBits (val &&& (2 ^ lower - 1)) lower =
      valueBits val (upper + lower) := by
  have low : valueBits (val &&& (2 ^ lower - 1)) lower = valueBits val lower := by
    refine List.map_congr_left fun i mem => ?_
    have inside := List.mem_range.mp (List.mem_reverse.mp mem)
    rw [Nat.and_two_pow_sub_one_eq_mod, Nat.testBit_mod_two_pow, decide_eq_true inside, Bool.true_and]
  rw [low]
  induction upper with
  | zero =>
      rw [Nat.zero_add]
      rfl
  | succ upper inductionHypothesis =>
      rw [valueBits_succ, List.cons_append, inductionHypothesis, Nat.succ_add, valueBits_succ,
        Nat.testBit_shiftRight, Nat.add_comm lower]

theorem readDesignator_designatorBits {assignVal : Nat} (assigned : assignVal < 1000000)
    (behind : List Bool) : readDesignator (designatorBits assignVal ++ behind) = assignVal := by
  rw [designatorBits]
  split_ifs with short middle
  · have clear : assignVal.testBit 7 = false := Nat.testBit_lt_two_pow short
    rw [valueBits_succ, clear, List.cons_append, readDesignator, List.take_left' (length_valueBits _ _),
      toValue_valueBits short]
  · have head : valueBits 2 2 = [true, false] := by decide
    rw [head, List.append_assoc]
    change toValue (List.take 14 (valueBits assignVal 14 ++ behind)) = assignVal
    rw [List.take_left' (length_valueBits _ _), toValue_valueBits middle]
  · have head : valueBits 6 3 = [true, true, false] := by decide
    rw [head, List.append_assoc]
    change toValue (List.take 21 (valueBits assignVal 21 ++ behind)) = assignVal
    rw [List.take_left' (length_valueBits _ _),
      toValue_valueBits (lt_of_lt_of_le assigned (by decide))]

section Designator

variable {buf : List UInt8} {assignVal : Nat}

theorem appends_cleared {action : BitBuffer → Run BitBuffer} {bits : List Bool}
    (appends : Appends action bits) {count : Nat} (whole : bits.length = 8 * count) (room : count ≤ buf.length) :
    ∃ stored, (memset .segment buf count >>= fun buf => action ⟨buf, 0⟩) = .ok ⟨stored, bits.length⟩ ∧
      stored.length = buf.length ∧ segmentBits ⟨.ECI, 0, stored, bits.length⟩ = bits := by
  have clears : memset .segment buf count = .ok (List.replicate count 0 ++ buf.drop count) := if_pos room
  have same : (List.replicate count (0 : UInt8) ++ buf.drop count).length = buf.length := by
    rw [List.length_append, List.length_replicate, List.length_drop]
    omega
  obtain ⟨stored, runs, packed, sameStored⟩ := appends (packed_replicate (buf.drop count) count)
    (by rw [List.length_nil, whole, Nat.zero_add])
  refine ⟨stored, ?_, sameStored.trans same, packed.eq_map⟩
  rw [clears, run_ok_bind]
  exact runs

theorem makeEci_eq (assigned : assignVal < 1000000) (room : 3 ≤ buf.length) :
    ∃ stored, qrcodegen_makeEci assignVal buf = .ok ⟨.ECI, 0, stored, (designatorBits assignVal).length⟩ ∧
      stored.length = buf.length ∧
      segmentBits ⟨.ECI, 0, stored, (designatorBits assignVal).length⟩ = designatorBits assignVal := by
  rw [qrcodegen_makeEci, if_neg (by omega), designatorBits]
  by_cases short : assignVal < 2 ^ 7
  · have appends := appends_appendBitsToBuffer .segment assignVal 8
    obtain ⟨stored, runs, same, bits⟩ := appends_cleared appends (length_valueBits _ _)
      (show 1 ≤ buf.length by omega)
    rw [if_pos (by exact_mod_cast short), if_pos short, Int.toNat_natCast, runs]
    exact ⟨stored, rfl, same, bits⟩
  · rw [if_neg (by exact_mod_cast short), if_neg short]
    by_cases middle : assignVal < 2 ^ 14
    · have appends := (appends_appendBitsToBuffer .segment 2 2).bind
        (appends_appendBitsToBuffer .segment assignVal 14)
      obtain ⟨stored, runs, same, bits⟩ := appends_cleared appends
        (by rw [List.length_append, length_valueBits, length_valueBits])
        (show 2 ≤ buf.length by omega)
      rw [if_pos (by exact_mod_cast middle), if_pos middle, Int.toNat_natCast, runs]
      exact ⟨stored, rfl, same, bits⟩
    · have appends := (appends_appendBitsToBuffer .segment 6 3).bind
        ((appends_appendBitsToBuffer .segment (assignVal >>> 10) 11).bind
          (appends_appendBitsToBuffer .segment (assignVal &&& 0x3FF) 10))
      have split : valueBits (assignVal >>> 10) 11 ++ valueBits (assignVal &&& 0x3FF) 10 =
          valueBits assignVal 21 := valueBits_append assignVal 11 10
      rw [split] at appends
      obtain ⟨stored, runs, same, bits⟩ := appends_cleared appends
        (by rw [List.length_append, length_valueBits, length_valueBits]) room
      rw [if_neg (by exact_mod_cast middle), if_pos (by exact_mod_cast assigned), if_neg middle,
        Int.toNat_natCast, runs]
      exact ⟨stored, rfl, same, bits⟩

end Designator

/-- Every number below a million comes back from its segment; any other number makes a segment
without bits and leaves the buffer as it is. -/
theorem makeEci_reads (assignVal : Int) {buf : List UInt8} (room : 3 ≤ buf.length) :
    ∃ seg, qrcodegen_makeEci assignVal buf = .ok seg ∧ seg.mode = .ECI ∧ seg.numChars = 0 ∧
      seg.data.length = buf.length ∧
      if 0 ≤ assignVal ∧ assignVal < 1000000 then
        ∀ behind, (readDesignator (segmentBits seg ++ behind) : Int) = assignVal
      else seg.bitLength = 0 ∧ seg.data = buf := by
  by_cases assigned : 0 ≤ assignVal ∧ assignVal < 1000000
  · obtain ⟨val, rfl⟩ := Int.eq_ofNat_of_zero_le assigned.1
    have small : val < 1000000 := by exact_mod_cast assigned.2
    obtain ⟨stored, runs, same, bits⟩ := makeEci_eq small room
    refine ⟨_, runs, rfl, rfl, same, ?_⟩
    rw [if_pos assigned]
    intro behind
    rw [bits, readDesignator_designatorBits small]
  · refine ⟨⟨.ECI, 0, buf, 0⟩, ?_, rfl, rfl, rfl, ?_⟩
    · rw [qrcodegen_makeEci]
      by_cases negative : assignVal < 0
      · rw [if_pos negative]
        rfl
      · rw [if_neg negative, if_neg (by omega), if_neg (by omega), if_neg (by omega)]
        rfl
    · rw [if_neg assigned]
      exact ⟨rfl, rfl⟩

/-- The number of UTF-8. -/
theorem makeEci_reads_utf8 :
    ∃ seg, qrcodegen_makeEci 26 [0xFF, 0xFF, 0xFF] = .ok seg ∧ readDesignator (segmentBits seg) = 26 := by
  obtain ⟨seg, runs, -, -, -, outcome⟩ :=
    makeEci_reads 26 (show 3 ≤ [(0xFF : UInt8), 0xFF, 0xFF].length by decide)
  rw [if_pos (by decide)] at outcome
  have here := outcome []
  rw [List.append_nil] at here
  exact ⟨seg, runs, by exact_mod_cast here⟩

end WifiIot.Qrcodegen
