import WifiIot.Qrcodegen.Encode

/-!
# Reading a symbol

A reader takes the side, the format bits, the codewords in their order and the data out
of their blocks, and then one segment after the other.  What it reads in a symbol is what
was encoded; whether there is a symbol depends on the version range only.

The reader shares `formatBits`, `invert`, `isFunction` and the layout of the blocks with what
draws the symbol.

Source: `qrcode_gen/src/qrcodegen.c`.
-/

namespace WifiIot.Qrcodegen

open Coding Memory Raster

/-! ## The reader -/

def versionOfSide (side : Nat) : Option Version := versions.find? fun version => version.side = side

def readVersion (qrcode : List UInt8) : Option Version := versionOfSide (byteAt qrcode 0).toNat

def formats : List (qrcodegen_Ecc × Mask) :=
  levels.flatMap fun ecl => (List.finRange 8).map fun mask => (ecl, mask)

def readFormat (picture : Nat × Nat → Bool) : Option (qrcodegen_Ecc × Mask) :=
  formats.find? fun format => (List.range 15).all fun i =>
    picture (firstPlace i) = (formatBits format.1 format.2).testBit i

def readData (version : Version) (ecl : qrcodegen_Ecc) (mask : Mask) (picture : Nat × Nat → Bool) :
    List UInt8 :=
  let words := bytesOf (rawCodewords version) (codewordBits version mask picture)
  (List.range (numBlocks version ecl)).flatMap (dataAt version ecl words)

def readSegments (version : Version) : Nat → List Bool → List UInt8
  | 0, _ => []
  | rounds + 1, bits =>
      match textModes.find? fun mode => mode.code = toValue (bits.take 4) with
      | none => []
      | some mode =>
          let width := numCharCountBits mode version
          let count := toValue ((bits.drop 4).take width)
          let bits := (bits.drop 4).drop width
          readText mode count bits ++ readSegments version rounds (bits.drop (bitCount mode count))

def readPicture (version : Version) (picture : Nat × Nat → Bool) : Option (List UInt8) := do
  let (ecl, mask) ← readFormat picture
  let bits := bytesBits (readData version ecl mask picture)
  some (readSegments version bits.length bits)

def readSymbol (qrcode : List UInt8) : Option (List UInt8) := do
  let version ← readVersion qrcode
  readPicture version (moduleAt qrcode version.side)

section Reader

variable {version : Version} {ecl : qrcodegen_Ecc} {mask : Mask} {data : List UInt8}
  {picture : Nat × Nat → Bool}

theorem versionOfSide_side (version : Version) : versionOfSide version.side = some version := by
  cases finds : versionOfSide version.side with
  | none =>
      have here := List.find?_eq_none.mp finds version (mem_versions version)
      exact absurd (decide_eq_true rfl) here
  | some found =>
      have shown := List.find?_some finds
      rw [decide_eq_true_eq, Version.side, Version.side] at shown
      obtain ⟨ver, _, _⟩ := found
      obtain ⟨other, _, _⟩ := version
      simp only [Option.some.injEq, Version.mk.injEq]
      dsimp only at shown
      omega

theorem readVersion_eq {qrcode : List UInt8} (symbol : Symbol qrcode version.side) :
    readVersion qrcode = some version := by
  rw [readVersion, symbol.first, versionOfSide_side]

theorem mem_formats (ecl : qrcodegen_Ecc) (mask : Mask) : (ecl, mask) ∈ formats :=
  List.mem_flatMap.mpr ⟨ecl, mem_levels ecl, List.mem_map.mpr ⟨mask, List.mem_finRange mask, rfl⟩⟩

theorem formatBits_injective {other : qrcodegen_Ecc} {otherMask : Mask}
    (same : ∀ i < 15, (formatBits ecl mask).testBit i = (formatBits other otherMask).testBit i) :
    (ecl, mask) = (other, otherMask) := by
  have all : ∀ first ∈ formats, ∀ second ∈ formats,
      formatBits first.1 first.2 = formatBits second.1 second.2 → first = second := by decide +kernel
  refine all _ (mem_formats ecl mask) _ (mem_formats other otherMask) ?_
  refine Nat.eq_of_testBit_eq fun i => ?_
  by_cases small : i < 15
  · exact same i small
  · have high : ∀ (ecl : qrcodegen_Ecc) (mask : Mask), (formatBits ecl mask).testBit i = false := by
      intro ecl mask
      have below := formatBits_small ecl mask
      rw [Nat.shiftRight_eq_div_pow, Nat.div_eq_zero_iff_lt (Nat.two_pow_pos 15)] at below
      exact Nat.testBit_lt_two_pow (lt_of_lt_of_le below
        (Nat.pow_le_pow_right (Nat.succ_pos 1) (not_lt.mp small)))
    rw [high, high]

theorem readFormat_eq (written : Written version ecl mask data picture) :
    readFormat picture = some (ecl, mask) := by
  cases finds : readFormat picture with
  | none =>
      have here := List.find?_eq_none.mp finds (ecl, mask) (mem_formats ecl mask)
      refine absurd (List.all_eq_true.mpr fun i mem => ?_) here
      exact decide_eq_true (written.format i (List.mem_range.mp mem))
  | some format =>
      rw [readFormat] at finds
      have shown := List.find?_some finds
      rw [List.all_eq_true] at shown
      refine congrArg some (formatBits_injective fun i small => ?_).symm
      rw [← written.format i small]
      exact of_decide_eq_true (shown i (List.mem_range.mpr small))

theorem readData_eq (written : Written version ecl mask data picture) :
    readData version ecl mask picture = data := by
  obtain ⟨words, length, bits, content, -⟩ := written.codewords
  have read : bytesOf (rawCodewords version) (codewordBits version mask picture) = words := by
    rw [← List.take_append_drop (8 * rawCodewords version) (codewordBits version mask picture), bits,
      ← length]
    exact bytesOf_bytesBits words _
  rw [readData, read]
  exact content

theorem find_textModes {mode : qrcodegen_Mode} (text : mode ∈ textModes) :
    textModes.find? (fun other => other.code = mode.code) = some mode := by
  have all : ∀ mode ∈ textModes, textModes.find? (fun other => other.code = mode.code) = some mode := by
    decide
  exact all mode text

theorem readSegments_eq {segs : List qrcodegen_Segment} {texts : List (List UInt8)}
    (holds : List.Forall₂ Holds segs texts)
    (few : ∀ seg ∈ segs, seg.numChars < 2 ^ numCharCountBits seg.mode version) {behind : List Bool}
    (ends : toValue (behind.take 4) = 0) {rounds : Nat} (enough : segs.length ≤ rounds) :
    readSegments version rounds (segmentsBits version segs ++ behind) = texts.flatten := by
  induction holds generalizing rounds with
  | nil =>
      cases rounds with
      | zero => rfl
      | succ rounds =>
          have noMode : textModes.find? (fun mode => mode.code = toValue (behind.take 4)) = none := by
            rw [ends]
            rfl
          change readSegments version (rounds + 1) behind = _
          rw [readSegments, noMode]
          rfl
  | @cons seg text segs texts here _ inductionHypothesis =>
      obtain ⟨rounds, rfl⟩ := Nat.exists_eq_add_one_of_ne_zero (show rounds ≠ 0 by
        rw [List.length_cons] at enough
        omega)
      obtain ⟨fewHere, fewLater⟩ := List.forall_mem_cons.mp few
      have rest := inductionHypothesis fewLater (Nat.le_of_succ_le_succ enough)
      let later := segmentsBits version segs ++ behind
      have split : segmentsBits version (seg :: segs) ++ behind = valueBits seg.mode.code 4 ++
          (valueBits seg.numChars (numCharCountBits seg.mode version) ++ (segmentBits seg ++ later)) := by
        change headedBits version seg ++ segmentsBits version segs ++ behind = _
        rw [headedBits, List.append_assoc, List.append_assoc, List.append_assoc]
      have content : (segmentBits seg).length = bitCount seg.mode text.length := by
        rw [segmentBits, List.length_map, List.length_range, here.bitLength, Int.toNat_natCast]
      rw [split, readSegments, List.take_left' (length_valueBits _ _),
        toValue_valueBits (mode_code_lt seg.mode), find_textModes here.mode]
      dsimp only
      rw [List.drop_left' (length_valueBits _ _), List.take_left' (length_valueBits _ _),
        toValue_valueBits fewHere, List.drop_left' (length_valueBits _ _), here.numChars, here.reads,
        List.drop_left' content, rest, List.flatten_cons]

theorem length_le_segmentsBits (version : Version) (segs : List qrcodegen_Segment) :
    segs.length ≤ (segmentsBits version segs).length := by
  induction segs with
  | nil => exact Nat.zero_le _
  | cons seg segs inductionHypothesis =>
      rw [segmentsBits] at inductionHypothesis
      rw [segmentsBits, List.flatMap_cons, List.length_append, length_headedBits, List.length_cons]
      omega

theorem readPicture_eq (written : Written version ecl mask data picture) {segs : List qrcodegen_Segment}
    {texts : List (List UInt8)} (holds : List.Forall₂ Holds segs texts) (fits : Fits version ecl segs)
    (bits : bytesBits data = segmentsBits version segs ++
      filling (segmentsBits version segs).length (getNumDataCodewords version ecl * 8)) :
    readPicture version picture = some texts.flatten := by
  have many : segs.length ≤ (bytesBits data).length := by
    rw [bits, List.length_append]
    exact le_trans (length_le_segmentsBits version segs) (Nat.le_add_right _ _)
  rw [readPicture, readFormat_eq written]
  change some (readSegments version (bytesBits (readData version ecl mask picture)).length
    (bytesBits (readData version ecl mask picture))) = _
  rw [readData_eq written, bits, readSegments_eq holds fits.1 (take_filling fits.2 (Nat.mul_mod_left _ _))
    (by rwa [← bits])]

theorem readSymbol_eq {qrcode : List UInt8} (symbol : Symbol qrcode version.side) :
    readSymbol qrcode = readPicture version (moduleAt qrcode version.side) := by
  rw [readSymbol, readVersion_eq symbol]
  rfl

end Reader

/-! ## Segments -/

section Segments

variable {ecl : qrcodegen_Ecc} {minVersion maxVersion version : Version} {segs : List qrcodegen_Segment}
  {tempBuffer qrcode : List UInt8}

/-- The end of a run that has found a version. -/
structure Drawn (version : Version) (level : qrcodegen_Ecc) (segs : List qrcodegen_Segment)
    (mask : Option Mask) (qrcode : List UInt8) : Prop where
  symbol : Symbol qrcode version.side
  written : ∃ chosen data, (∀ asked, mask = some asked → chosen = asked) ∧
    Written version level chosen data (moduleAt qrcode version.side) ∧
    bytesBits data = segmentsBits version segs ++
      filling (segmentsBits version segs).length (getNumDataCodewords version level * 8)

theorem Drawn.reads {level : qrcodegen_Ecc} {mask : Option Mask}
    (drawn : Drawn version level segs mask qrcode) (fits : Fits version level segs)
    {texts : List (List UInt8)}
    (holds : List.Forall₂ Holds segs texts) : readSymbol qrcode = some texts.flatten := by
  obtain ⟨_, data, -, written, bits⟩ := drawn.written
  rw [readSymbol_eq drawn.symbol]
  exact readPicture_eq written holds fits bits

theorem encodeSegmentsAdvanced_drawn (order : minVersion.ver ≤ maxVersion.ver)
    (valid : ∀ seg ∈ segs, Valid seg) (roomTemp : bufferLen maxVersion.side ≤ tempBuffer.length)
    (room : bufferLen maxVersion.side ≤ qrcode.length)
    (least : leastVersion segs ecl minVersion maxVersion = some version) (mask : Option Mask)
    (boostEcl : Bool) :
    ∃ marked drawn, qrcodegen_encodeSegmentsAdvanced ecl minVersion maxVersion mask boostEcl segs
        tempBuffer qrcode = .ok ⟨true, marked, drawn⟩ ∧ marked.length = tempBuffer.length ∧
      drawn.length = qrcode.length ∧
      Drawn version (boost boostEcl version (segmentsBits version segs).length ecl) segs mask drawn := by
  obtain ⟨marked, base, data, maskable, sameMarked, sameBase, -, bits, written, runs⟩ :=
    encodeSegmentsAdvanced_some order valid roomTemp room least boostEcl
  obtain ⟨drawn, chosen, masks, maskableDrawn, same, choice, shape⟩ := handleMasking_eq maskable mask
  refine ⟨marked, drawn, ?_, sameMarked, same.trans sameBase, maskableDrawn.symbol, chosen, data, ?_, ?_,
    bits⟩
  · rw [runs, masks]
    rfl
  · rintro asked rfl
    exact eq_of_chosen choice
  · rw [shape]
    exact written chosen

theorem Holds.valid {seg : qrcodegen_Segment} {text : List UInt8} (holds : Holds seg text) :
    Valid seg := by
  refine ⟨?_, ⟨?_, holds.small⟩, holds.inside⟩
  · have count := le_bitCount holds.mode text.length
    have small := holds.small
    rw [holds.bitLength] at small
    rw [holds.numChars]
    omega
  · rw [holds.bitLength]
    exact Int.natCast_nonneg _

theorem valid_of_holds {texts : List (List UInt8)} (holds : List.Forall₂ Holds segs texts) :
    ∀ seg ∈ segs, Valid seg := by
  induction holds with
  | nil => exact fun _ mem => absurd mem List.not_mem_nil
  | cons here _ inductionHypothesis => exact List.forall_mem_cons.mpr ⟨here.valid, inductionHypothesis⟩

theorem encodeSegmentsAdvanced_outcome (order : minVersion.ver ≤ maxVersion.ver)
    (valid : ∀ seg ∈ segs, Valid seg) (roomTemp : bufferLen maxVersion.side ≤ tempBuffer.length)
    (room : bufferLen maxVersion.side ≤ qrcode.length) (mask : Option Mask) (boostEcl : Bool) :
    ∃ encoded, qrcodegen_encodeSegmentsAdvanced ecl minVersion maxVersion mask boostEcl segs
        tempBuffer qrcode = .ok encoded ∧ encoded.tempBuffer.length = tempBuffer.length ∧
      encoded.qrcode.length = qrcode.length ∧
      (leastVersion segs ecl minVersion maxVersion = none ∧ encoded.returned = false ∧
          byteAt encoded.qrcode 0 = 0 ∨
        ∃ version, leastVersion segs ecl minVersion maxVersion = some version ∧
          encoded.returned = true ∧ Drawn version
            (boost boostEcl version (segmentsBits version segs).length ecl) segs mask encoded.qrcode) := by
  cases least : leastVersion segs ecl minVersion maxVersion with
  | none =>
      have filled : 0 < qrcode.length := lt_of_lt_of_le (Nat.succ_pos _) room
      refine ⟨⟨false, tempBuffer, qrcode.set 0 0⟩, ?_, rfl, List.length_set, .inl ⟨rfl, rfl, ?_⟩⟩
      · exact encodeSegmentsAdvanced_none valid (List.ne_nil_of_length_pos filled) least
      · rw [byteAt_set filled, Function.update_self]
  | some version =>
      obtain ⟨marked, drawn, runs, sameMarked, same, shape⟩ :=
        encodeSegmentsAdvanced_drawn order valid roomTemp room least mask boostEcl
      exact ⟨⟨true, marked, drawn⟩, runs, sameMarked, same, .inr ⟨version, rfl, rfl, shape⟩⟩

/-- The texts of the segments, one behind the other, are read in the symbol; without one, its
first byte says so. -/
theorem encodeSegmentsAdvanced_reads (order : minVersion.ver ≤ maxVersion.ver)
    {texts : List (List UInt8)} (holds : List.Forall₂ Holds segs texts)
    (roomTemp : bufferLen maxVersion.side ≤ tempBuffer.length)
    (room : bufferLen maxVersion.side ≤ qrcode.length) (mask : Option Mask) (boostEcl : Bool) :
    ∃ encoded, qrcodegen_encodeSegmentsAdvanced ecl minVersion maxVersion mask boostEcl segs
        tempBuffer qrcode = .ok encoded ∧
      (encoded.returned = true → readSymbol encoded.qrcode = some texts.flatten) ∧
      (encoded.returned = false → byteAt encoded.qrcode 0 = 0 ∧ ∀ version : Version,
        minVersion.ver ≤ version.ver → version.ver ≤ maxVersion.ver → ¬Fits version ecl segs) := by
  obtain ⟨encoded, runs, -, -, outcome⟩ :=
    @encodeSegmentsAdvanced_outcome ecl _ _ _ _ _ order (valid_of_holds holds) roomTemp room mask boostEcl
  refine ⟨encoded, runs, ?_⟩
  rcases outcome with ⟨missing, failed, zero⟩ | ⟨version, least, returned, drawn⟩
  · exact ⟨fun done => absurd (failed.symm.trans done) Bool.false_ne_true,
      fun _ => ⟨zero, fun version low high => leastVersion_none order missing low high⟩⟩
  · exact ⟨fun _ => drawn.reads (boost_fits boostEcl (leastVersion_some order least).2.2.1) holds,
      fun done => absurd (done.symm.trans returned) Bool.false_ne_true⟩

end Segments

/-- Two segments of bytes in version 1. -/
theorem encodeSegmentsAdvanced_reads_two_segments :
    ∃ encoded, qrcodegen_encodeSegmentsAdvanced .LOW qrcodegen_VERSION_MIN qrcodegen_VERSION_MIN none true
        [⟨.BYTE, 1, [0x41], 8⟩, ⟨.BYTE, 2, [0x42, 0x43], 16⟩] (List.replicate 57 0)
        (List.replicate 57 0) = .ok encoded ∧
      readSymbol encoded.qrcode = some [0x41, 0x42, 0x43] := by
  have one : Holds ⟨.BYTE, 1, [0x41], 8⟩ [0x41] :=
    @holds_bytes 1 [0x41] (Nat.le_of_ble_eq_true rfl) (Nat.le_of_ble_eq_true rfl)
  have other : Holds ⟨.BYTE, 2, [0x42, 0x43], 16⟩ [0x42, 0x43] :=
    @holds_bytes 2 [0x42, 0x43] (Nat.le_of_ble_eq_true rfl) (Nat.le_of_ble_eq_true rfl)
  have room : bufferLen qrcodegen_VERSION_MIN.side ≤ (List.replicate 57 (0 : UInt8)).length := by decide
  obtain ⟨encoded, runs, reads, failed⟩ := @encodeSegmentsAdvanced_reads .LOW _ _ _ _ _
    (le_refl qrcodegen_VERSION_MIN.ver) _ (.cons one (.cons other .nil)) room room none true
  have returned : encoded.returned = true := by
    by_contra without
    have refused := (failed (Bool.eq_false_of_not_eq_true without)).2 qrcodegen_VERSION_MIN
      (le_refl _) (le_refl _)
    exact refused (by decide +kernel)
  exact ⟨encoded, runs, reads returned⟩

/-! ## The format -/

/-- `(int)ecl` -/
def qrcodegen_Ecc.value : qrcodegen_Ecc → Nat
  | .LOW => 0
  | .MEDIUM => 1
  | .QUARTILE => 2
  | .HIGH => 3

theorem capacity_antitone (version : Version) {first second : qrcodegen_Ecc}
    (lower : first.value ≤ second.value) :
    getNumDataCodewords version second ≤ getNumDataCodewords version first := by
  have all : ∀ version ∈ versions, ∀ first ∈ levels, ∀ second ∈ levels, first.value ≤ second.value →
      getNumDataCodewords version second ≤ getNumDataCodewords version first := by decide +kernel
  exact all version (mem_versions version) first (mem_levels first) second (mem_levels second) lower

theorem boost_highest {version : Version} {used : Nat} {ecl : qrcodegen_Ecc}
    (fits : used ≤ getNumDataCodewords version ecl * 8) (other : qrcodegen_Ecc) :
    used ≤ getNumDataCodewords version other * 8 ↔ other.value ≤ (boost true version used ecl).value := by
  have down : ∀ first second : qrcodegen_Ecc, first.value ≤ second.value →
      used ≤ getNumDataCodewords version second * 8 → used ≤ getNumDataCodewords version first * 8 :=
    fun first second lower room => le_trans room (Nat.mul_le_mul_right _ (capacity_antitone version lower))
  have each : used ≤ getNumDataCodewords version .LOW * 8 := down .LOW ecl (Nat.zero_le _) fits
  have medium := down .MEDIUM .QUARTILE (by decide)
  have quartile := down .QUARTILE .HIGH (by decide)
  have lowest : ¬used ≤ getNumDataCodewords version .MEDIUM * 8 → ecl.value = 0 := by
    intro above
    by_contra positive
    exact above (down .MEDIUM ecl (Nat.one_le_iff_ne_zero.mpr positive) fits)
  have casts : ∀ level, ((used : Int) ≤ getNumDataCodewords version level * 8) =
      (used ≤ getNumDataCodewords version level * 8) := fun level => by
    rw [← Int.ofNat_le, Nat.cast_mul, Nat.cast_ofNat]
  simp only [boost, List.foldl_cons, List.foldl_nil, Bool.true_and, decide_eq_true_eq, casts]
  split_ifs with highRoom quartileRoom mediumRoom
  · exact ⟨fun _ => by cases other <;> decide, fun lower => down other .HIGH lower highRoom⟩
  · refine ⟨fun fitsOther => ?_, fun lower => down other .QUARTILE lower quartileRoom⟩
    cases other
    case HIGH => exact absurd fitsOther highRoom
    all_goals decide
  · refine ⟨fun fitsOther => ?_, fun lower => down other .MEDIUM lower mediumRoom⟩
    cases other
    case HIGH => exact absurd fitsOther highRoom
    case QUARTILE => exact absurd fitsOther quartileRoom
    all_goals decide
  · rw [lowest mediumRoom]
    refine ⟨fun fitsOther => ?_, fun lower => down other .LOW lower each⟩
    cases other
    case HIGH => exact absurd fitsOther highRoom
    case QUARTILE => exact absurd fitsOther quartileRoom
    case MEDIUM => exact absurd fitsOther mediumRoom
    case LOW => decide

theorem boost_false (version : Version) (used : Nat) (ecl : qrcodegen_Ecc) :
    boost false version used ecl = ecl := rfl

/-- What a reader finds first: the least version that holds the segments at the level that was
asked for, then the highest level at which it still holds them, and the mask. -/
theorem encodeSegmentsAdvanced_format (ecl : qrcodegen_Ecc) {minVersion maxVersion : Version}
    {segs : List qrcodegen_Segment} {tempBuffer qrcode : List UInt8} (mask : Option Mask) (boostEcl : Bool)
    (order : minVersion.ver ≤ maxVersion.ver) (valid : ∀ seg ∈ segs, Valid seg)
    (roomTemp : bufferLen maxVersion.side ≤ tempBuffer.length)
    (room : bufferLen maxVersion.side ≤ qrcode.length) :
    ∃ encoded, qrcodegen_encodeSegmentsAdvanced ecl minVersion maxVersion mask boostEcl segs
        tempBuffer qrcode = .ok encoded ∧
      (encoded.returned = false ↔ ∀ version : Version, minVersion.ver ≤ version.ver →
        version.ver ≤ maxVersion.ver → ¬Fits version ecl segs) ∧
      (encoded.returned = true → ∃ version level chosen, readVersion encoded.qrcode = some version ∧
        readFormat (moduleAt encoded.qrcode version.side) = some (level, chosen) ∧
        minVersion.ver ≤ version.ver ∧ Fits version ecl segs ∧
        (∀ other : Version, minVersion.ver ≤ other.ver → Fits other ecl segs → version.ver ≤ other.ver) ∧
        (boostEcl = false → level = ecl) ∧
        (boostEcl = true → ∀ other, Fits version other segs ↔ other.value ≤ level.value) ∧
        ∀ asked, mask = some asked → chosen = asked) := by
  obtain ⟨encoded, runs, -, -, outcome⟩ :=
    @encodeSegmentsAdvanced_outcome ecl _ _ _ _ _ order valid roomTemp room mask boostEcl
  refine ⟨encoded, runs, ?_⟩
  rcases outcome with ⟨missing, failed, -⟩ | ⟨version, least, returned, drawn⟩
  · exact ⟨iff_of_true failed fun version low high => leastVersion_none order missing low high,
      fun done => absurd (failed.symm.trans done) Bool.false_ne_true⟩
  · obtain ⟨low, high, fits, others⟩ := leastVersion_some order least
    obtain ⟨chosen, data, asked, written, -⟩ := drawn.written
    refine ⟨iff_of_false (fun done => absurd (done.symm.trans returned) Bool.false_ne_true)
      fun without => without version low high fits, fun _ => ?_⟩
    refine ⟨version, _, chosen, readVersion_eq drawn.symbol, readFormat_eq written, low, fits, ?_, ?_, ?_,
      asked⟩
    · intro other otherLow otherFits
      by_cases inRange : other.ver ≤ maxVersion.ver
      · exact others other otherLow inRange otherFits
      · omega
    · rintro rfl
      exact boost_false version _ ecl
    · rintro rfl other
      rw [← boost_highest fits.2]
      exact ⟨fun fitsOther => fitsOther.2, fun room => ⟨fits.1, room⟩⟩

/-- The segments of 180 bits are too long for version 1, and for the level above `MEDIUM` in
version 2. -/
theorem encodeSegmentsAdvanced_format_two_segments :
    let segs : List qrcodegen_Segment :=
      [⟨.NUMERIC, 3, [0x1E, 0xC0], 10⟩, ⟨.BYTE, 18, List.replicate 18 0x41, 144⟩]
    ∃ encoded chosen, qrcodegen_encodeSegmentsAdvanced .LOW qrcodegen_VERSION_MIN
        ⟨3, by decide, by decide⟩ none true segs (List.replicate 107 0) (List.replicate 107 0) =
          .ok encoded ∧
      readVersion encoded.qrcode = some ⟨2, by decide, by decide⟩ ∧
      readFormat (moduleAt encoded.qrcode 25) = some (.MEDIUM, chosen) := by
  intro segs
  let two : Version := ⟨2, by decide, by decide⟩
  have valid : ∀ seg ∈ segs, Valid seg := by
    intro seg mem
    simp only [segs, List.mem_cons, List.not_mem_nil, or_false] at mem
    rcases mem with rfl | rfl
    all_goals exact ⟨by decide, by decide, by decide⟩
  have room : bufferLen (29 : Nat) ≤ (List.replicate 107 (0 : UInt8)).length := by decide
  obtain ⟨encoded, runs, refused, format⟩ := @encodeSegmentsAdvanced_format .LOW qrcodegen_VERSION_MIN
    ⟨3, by decide, by decide⟩ segs _ _ none true (by decide) valid room room
  have fits : Fits two .LOW segs := by decide +kernel
  have returned : encoded.returned = true := by
    by_contra without
    exact refused.mp (Bool.eq_false_of_not_eq_true without) two (by decide) (by decide) fits
  obtain ⟨version, level, chosen, side, reads, low, here, least, -, highest, -⟩ := format returned
  have second : version = two := by
    have above := least two (by decide) fits
    have large : ¬Fits qrcodegen_VERSION_MIN .LOW segs := by decide +kernel
    obtain ⟨ver, one, most⟩ := version
    have notFirst : ver ≠ 1 := by
      rintro rfl
      exact large here
    rw [Version.mk.injEq]
    dsimp only [two] at above ⊢
    omega
  subst second
  have medium : level = .MEDIUM := by
    have reached := (highest rfl .MEDIUM).mp (by decide +kernel)
    have missed := mt (highest rfl .QUARTILE).mpr (by decide +kernel)
    cases level
    case MEDIUM => rfl
    case LOW => exact absurd reached (by decide)
    all_goals exact absurd (by decide) missed
  exact ⟨encoded, chosen, runs, side, medium ▸ reads⟩

end WifiIot.Qrcodegen
