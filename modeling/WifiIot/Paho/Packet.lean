import WifiIot.Memory.Bit
import WifiIot.Wire.Output

/-!
# MQTT control packets

The parts of a packet: its first byte, the remaining length, integers and
strings.  What the functions write is said as a list of bytes, and what the
reading functions return is said of an array that holds such a list.  A plain `char`
has no sign on the processors that the code is for, so the bytes that `readChar` and
the granted qualities of service stand in are `UInt8`.

Source: `paho_mqtt/MQTTPacket/src/MQTTPacket.h`, `MQTTPacket.c`.
-/

namespace WifiIot.Paho

open Memory Wire

inductive Buffer where
  | buf
  | topicFilters
  | requestedQoSs
  | grantedQoSs
  deriving DecidableEq

def MQTTPACKET_BUFFER_TOO_SHORT : Int := -2
def MQTTPACKET_READ_ERROR : Int := -1

inductive msgTypes where
  | CONNECT
  | CONNACK
  | PUBLISH
  | PUBACK
  | PUBREC
  | PUBREL
  | PUBCOMP
  | SUBSCRIBE
  | SUBACK
  | UNSUBSCRIBE
  | UNSUBACK
  | PINGREQ
  | PINGRESP
  | DISCONNECT
  deriving DecidableEq

def msgTypes.code : msgTypes → Nat
  | CONNECT => 1
  | CONNACK => 2
  | PUBLISH => 3
  | PUBACK => 4
  | PUBREC => 5
  | PUBREL => 6
  | PUBCOMP => 7
  | SUBSCRIBE => 8
  | SUBACK => 9
  | UNSUBSCRIBE => 10
  | UNSUBACK => 11
  | PINGREQ => 12
  | PINGRESP => 13
  | DISCONNECT => 14

/-- The bit fields of the first byte, `retain` in the lowest bit. -/
structure MQTTHeader where
  type : Nat := 0
  dup : Nat := 0
  qos : Nat := 0
  retain : Nat := 0
  deriving DecidableEq

namespace MQTTHeader

/-- Each field keeps the bits that it has room for. -/
def byte (header : MQTTHeader) : UInt8 :=
  UInt8.ofNat (header.type % 16 * 16 + header.dup % 2 * 8 + header.qos % 4 * 2 + header.retain % 2)

def ofByte (byte : UInt8) : MQTTHeader where
  type := byte.toNat / 16
  dup := byte.toNat / 8 % 2
  qos := byte.toNat / 2 % 4
  retain := byte.toNat % 2

theorem ofByte_byte (header : MQTTHeader) : ofByte header.byte =
    { type := header.type % 16, dup := header.dup % 2, qos := header.qos % 4,
      retain := header.retain % 2 } := by
  have whole : header.byte.toNat =
      header.type % 16 * 16 + header.dup % 2 * 8 + header.qos % 4 * 2 + header.retain % 2 := by
    rw [byte, UInt8.toNat_ofNat']
    omega
  rw [ofByte, whole, MQTTHeader.mk.injEq]
  omega

end MQTTHeader

/-- A string to be written: a C string, or bytes with their length; `none` is `NULL`. -/
structure MQTTString where
  cstring : Option Text := none
  lenstring : Option (List UInt8) := none

/-- A string inside of a packet: the place of its first byte, and its length. -/
structure MQTTLenString where
  data : Nat := 0
  len : Nat := 0
  deriving DecidableEq

/-! ## Writing -/

section Write

variable {size : Nat}

/-- Seven bits at a time, the low ones first, and a mark on all bytes but the last. -/
def MQTTPacket_encode (length : Nat) (output : Output size) : Checked Buffer (Output size) := do
  let d := UInt8.ofNat (length % 128)
  if 0 < length / 128 then
    let output ← output.put .buf (d ||| 0x80)
    MQTTPacket_encode (length / 128) output
  else output.put .buf d

def MQTTPacket_len (rem_len : Nat) : Nat :=
  let rem_len := rem_len + 1
  if rem_len < 128 then rem_len + 1
  else if rem_len < 16384 then rem_len + 2
  else if rem_len < 2097151 then rem_len + 3
  else rem_len + 4

def writeChar (c : UInt8) (output : Output size) : Checked Buffer (Output size) := output.put .buf c

def writeInt (anInt : Nat) (output : Output size) : Checked Buffer (Output size) := do
  let output ← output.put .buf (UInt8.ofNat (anInt / 256))
  output.put .buf (UInt8.ofNat (anInt % 256))

def memcpy (data : List UInt8) (output : Output size) : Checked Buffer (Output size) :=
  output.emit .buf data

def writeCString (string : Text) (output : Output size) : Checked Buffer (Output size) := do
  let output ← writeInt (strlen string) output
  memcpy string.val output

def writeMQTTString (mqttstring : MQTTString) (output : Output size) :
    Checked Buffer (Output size) :=
  let data := mqttstring.lenstring.getD []
  if 0 < data.length then do
    let output ← writeInt data.length output
    memcpy data output
  else
    match mqttstring.cstring with
    | some string => writeCString string output
    | none => writeInt 0 output

/-- The C string if there is one; what is written is the other one if there are both. -/
def MQTTstrlen (mqttstring : MQTTString) : Nat :=
  match mqttstring.cstring with
  | some string => strlen string
  | none => (mqttstring.lenstring.getD []).length

end Write

/-! ## Reading -/

section Read

variable {size : Nat}

/-- The number of bytes that were asked for, and the length. -/
structure Decoded where
  len : Nat
  value : Nat
  deriving DecidableEq

/-- The rounds of `MQTTPacket_decode`.  `none` is any other return code of the
callback than 1. -/
def decodeRound {Stream : Type} (getcharfn : Stream → Checked Buffer (Option UInt8 × Stream)) :
    Nat → Nat → Decoded → Stream → Checked Buffer (Decoded × Stream)
  | 0, _, decoded, stream => .ok ({ decoded with len := decoded.len + 1 }, stream)
  | left + 1, multiplier, decoded, stream => do
      let (answer, stream) ← getcharfn stream
      match answer with
      | none => .ok ({ decoded with len := decoded.len + 1 }, stream)
      | some c =>
          let decoded := ⟨decoded.len + 1, decoded.value + (c &&& 127).toNat * multiplier⟩
          if c &&& 128 ≠ 0 then decodeRound getcharfn left (multiplier * 128) decoded stream
          else .ok (decoded, stream)

def MAX_NO_OF_REMAINING_LENGTH_BYTES : Nat := 4

def MQTTPacket_decode {Stream : Type}
    (getcharfn : Stream → Checked Buffer (Option UInt8 × Stream)) (stream : Stream) :
    Checked Buffer (Decoded × Stream) :=
  decodeRound getcharfn MAX_NO_OF_REMAINING_LENGTH_BYTES 1 ⟨0, 0⟩ stream

def bufchar (block : Block size) (bufptr : Nat) : Checked Buffer (Option UInt8 × Nat) := do
  let c ← block.read .buf bufptr
  .ok (some c, bufptr + 1)

def MQTTPacket_decodeBuf (block : Block size) (ptr : Nat) : Checked Buffer Decoded := do
  let (decoded, _) ← MQTTPacket_decode (bufchar block) ptr
  .ok decoded

def readChar (block : Block size) (ptr : Nat) : Checked Buffer (UInt8 × Nat) := do
  let c ← block.read .buf ptr
  .ok (c, ptr + 1)

def readInt (block : Block size) (ptr : Nat) : Checked Buffer (Nat × Nat) := do
  let high ← block.read .buf ptr
  let low ← block.read .buf (ptr + 1)
  .ok (256 * high.toNat + low.toNat, ptr + 2)

/-- The string, the pointer behind what was read of it, and whether there was all of it. -/
structure LenString where
  rc : Bool
  string : MQTTLenString
  ptr : Nat

def readMQTTLenString (mqttstring : MQTTLenString) (block : Block size) (ptr enddata : Nat) :
    Checked Buffer LenString :=
  if (enddata : Int) - ptr > 1 then do
    let (len, ptr) ← readInt block ptr
    if ptr + len ≤ enddata then .ok ⟨true, ⟨ptr, len⟩, ptr + len⟩
    else .ok ⟨false, { mqttstring with len := len }, ptr⟩
  else .ok ⟨false, mqttstring, ptr⟩

end Read

/-! ## The bytes of the parts -/

def lengthBytes (length : Nat) : List UInt8 :=
  if 0 < length / 128 then (UInt8.ofNat (length % 128) ||| 0x80) :: lengthBytes (length / 128)
  else [UInt8.ofNat (length % 128)]

def intBytes (value : Nat) : List UInt8 := [UInt8.ofNat (value / 256), UInt8.ofNat (value % 256)]

def stringBytes (data : List UInt8) : List UInt8 := intBytes data.length ++ data

def MQTTString.content (mqttstring : MQTTString) : List UInt8 :=
  let data := mqttstring.lenstring.getD []
  if 0 < data.length then data
  else
    match mqttstring.cstring with
    | some string => string.val
    | none => []

/-- One of the two forms, not both with different lengths. -/
def MQTTString.Single (mqttstring : MQTTString) : Prop :=
  MQTTstrlen mqttstring = mqttstring.content.length

instance (mqttstring : MQTTString) : Decidable mqttstring.Single :=
  inferInstanceAs (Decidable (_ = _))

section Written

variable {size : Nat} {output : Output size}

theorem MQTTPacket_encode_eq (length : Nat) :
    MQTTPacket_encode length output = output.emit .buf (lengthBytes length) := by
  induction length using Nat.strong_induction_on generalizing output with
  | _ length inductionHypothesis =>
      rw [MQTTPacket_encode, lengthBytes]
      by_cases more : 0 < length / 128
      · have smaller : length / 128 < length := Nat.div_lt_self (by omega) (by decide)
        simp only [if_pos more, Output.emit_cons, inductionHypothesis _ smaller]
      · simp only [if_neg more, Output.emit_singleton]

theorem writeChar_eq (c : UInt8) : writeChar c output = output.emit .buf [c] :=
  (Output.emit_singleton c).symm

theorem writeInt_eq (anInt : Nat) : writeInt anInt output = output.emit .buf (intBytes anInt) := by
  rw [writeInt, intBytes, Output.emit_cons]
  simp only [Output.emit_singleton]

theorem memcpy_eq (data : List UInt8) : memcpy data output = output.emit .buf data := rfl

theorem writeCString_eq (string : Text) :
    writeCString string output = output.emit .buf (stringBytes string.val) := by
  rw [writeCString, stringBytes, Output.emit_append]
  simp only [writeInt_eq, memcpy_eq, strlen]

theorem writeMQTTString_eq (mqttstring : MQTTString) :
    writeMQTTString mqttstring output = output.emit .buf (stringBytes mqttstring.content) := by
  unfold writeMQTTString MQTTString.content
  by_cases given : 0 < (mqttstring.lenstring.getD []).length
  · simp only [if_pos given, writeInt_eq, memcpy_eq, ← Output.emit_append, stringBytes]
  · simp only [if_neg given]
    cases mqttstring.cstring with
    | some string => exact writeCString_eq string
    | none => exact writeInt_eq 0

end Written

section Length

@[simp]
theorem length_intBytes (value : Nat) : (intBytes value).length = 2 := rfl

@[simp]
theorem length_stringBytes (data : List UInt8) : (stringBytes data).length = 2 + data.length := by
  rw [stringBytes, List.length_append, length_intBytes]

theorem lengthBytes_of_lt {length : Nat} (small : length < 128) :
    lengthBytes length = [UInt8.ofNat length] := by
  rw [lengthBytes, if_neg (by omega), Nat.mod_eq_of_lt small]

theorem length_lengthBytes_of_lt {length : Nat} (small : length < 128) :
    (lengthBytes length).length = 1 := by
  rw [lengthBytes_of_lt small, List.length_singleton]

theorem length_lengthBytes_of_le {length : Nat} (large : 128 ≤ length) :
    (lengthBytes length).length = (lengthBytes (length / 128)).length + 1 := by
  rw [lengthBytes, if_pos (by omega), List.length_cons]

theorem length_lengthBytes {length : Nat} (bounded : length < 268435456) :
    (lengthBytes length).length =
      if length < 128 then 1 else if length < 16384 then 2 else if length < 2097152 then 3 else 4 := by
  by_cases one : length < 128
  · rw [if_pos one, length_lengthBytes_of_lt one]
  · rw [if_neg one, length_lengthBytes_of_le (by omega)]
    by_cases two : length < 16384
    · rw [if_pos two, length_lengthBytes_of_lt (by omega)]
    · rw [if_neg two, length_lengthBytes_of_le (by omega)]
      by_cases three : length < 2097152
      · rw [if_pos three, length_lengthBytes_of_lt (by omega)]
      · rw [if_neg three, length_lengthBytes_of_le (by omega), length_lengthBytes_of_lt (by omega)]

theorem length_le_MQTTPacket_len {rem_len : Nat} (bounded : rem_len < 268435456) :
    1 + (lengthBytes rem_len).length + rem_len ≤ MQTTPacket_len rem_len := by
  rw [length_lengthBytes bounded, MQTTPacket_len]
  split_ifs <;> omega

end Length

/-! ## Reading the parts -/

section Reads

variable {size : Nat} {block : Block size} {ptr : Nat} {rest : List UInt8}

def Spells {Stream : Type} (getcharfn : Stream → Checked Buffer (Option UInt8 × Stream)) :
    Stream → List UInt8 → Stream → Prop
  | stream, [], last => stream = last
  | stream, byte :: bytes, last => ∃ next, getcharfn stream = .ok (some byte, next) ∧
      Spells getcharfn next bytes last

theorem toNat_and_127 (c : UInt8) : (c &&& 127).toNat = c.toNat % 128 := by
  rw [UInt8.toNat_and]
  exact Nat.and_two_pow_sub_one_eq_mod c.toNat 7

theorem and_128_ne_zero_iff (c : UInt8) : c &&& 128 ≠ 0 ↔ 128 ≤ c.toNat := by
  have bounded := c.toNat_lt
  rw [ne_eq, ← UInt8.toNat_inj, UInt8.toNat_and]
  change ¬(c.toNat &&& 2 ^ 7) = 0 ↔ _
  rw [Nat.and_two_pow, Nat.testBit_eq_decide_div_mod_eq]
  by_cases marked : c.toNat / 2 ^ 7 % 2 = 1
  · rw [decide_eq_true marked]
    simp only [Bool.toNat_true, Nat.one_mul]
    omega
  · rw [decide_eq_false marked]
    simp only [Bool.toNat_false, Nat.zero_mul, not_true_eq_false, false_iff]
    omega

theorem digit_lt {length : Nat} : (UInt8.ofNat (length % 128)).toNat = length % 128 := by
  rw [UInt8.toNat_ofNat']
  omega

theorem toNat_marked (length : Nat) :
    (UInt8.ofNat (length % 128) ||| 0x80).toNat = length % 128 + 128 := by
  have below : length % 128 < 2 ^ 7 := Nat.mod_lt _ (by decide)
  rw [UInt8.toNat_or, digit_lt, Nat.or_comm]
  have joined := Nat.two_pow_add_eq_or_of_lt below 1
  rw [Nat.mul_one] at joined
  exact joined.symm.trans (Nat.add_comm _ _)

/-- The length accumulates digit by digit; the induction is on the digits that
may still come. -/
theorem decodeRound_spelled {Stream : Type}
    {getcharfn : Stream → Checked Buffer (Option UInt8 × Stream)} {left multiplier length : Nat}
    {decoded : Decoded} {stream last : Stream} (bounded : length < 128 ^ left) (positive : 0 < left)
    (spelled : Spells getcharfn stream (lengthBytes length) last) :
    decodeRound getcharfn left multiplier decoded stream =
      .ok (⟨decoded.len + (lengthBytes length).length, decoded.value + length * multiplier⟩, last) := by
  induction left generalizing length multiplier decoded stream with
  | zero => omega
  | succ left inductionHypothesis =>
      rw [lengthBytes] at spelled ⊢
      by_cases more : 0 < length / 128
      · rw [if_pos more] at spelled ⊢
        obtain ⟨next, answered, later⟩ := spelled
        have marked := toNat_marked length
        have goesOn : (UInt8.ofNat (length % 128) ||| 0x80) &&& 128 ≠ 0 := by
          rw [and_128_ne_zero_iff, marked]
          omega
        have below : length / 128 < 128 ^ left := by
          rw [Nat.div_lt_iff_lt_mul (by decide), ← Nat.pow_succ]
          exact bounded
        have room : 0 < left := by
          by_contra noMore
          obtain rfl : left = 0 := by omega
          rw [Nat.pow_zero] at below
          omega
        rw [decodeRound, answered, ok_bind]
        simp only [if_pos goesOn]
        rw [inductionHypothesis below room later, toNat_and_127, marked]
        have digits : length = length % 128 + 128 * (length / 128) := (Nat.mod_add_div ..).symm
        have value : (length % 128 + 128) % 128 * multiplier + length / 128 * (multiplier * 128) =
            length * multiplier := by
          conv_rhs => rw [digits]
          rw [Nat.add_mod_right, Nat.mod_mod, Nat.add_mul, Nat.mul_comm multiplier 128,
            ← Nat.mul_assoc, Nat.mul_comm 128 (length / 128)]
        have counted : decoded.len + 1 + (lengthBytes (length / 128)).length =
            decoded.len + ((lengthBytes (length / 128)).length + 1) := by omega
        simp only [List.length_cons, Nat.add_assoc decoded.value, value, counted]
      · rw [if_neg more] at spelled ⊢
        obtain ⟨next, answered, rfl⟩ := spelled
        have small : length % 128 = length := Nat.mod_eq_of_lt (by omega)
        have ends : ¬(UInt8.ofNat (length % 128) &&& 128 ≠ 0) := by
          rw [and_128_ne_zero_iff, digit_lt]
          omega
        rw [decodeRound, answered, ok_bind]
        simp only [if_neg ends]
        rw [toNat_and_127, digit_lt, Nat.mod_mod, small, List.length_singleton]

/-- Every length that four bytes can hold is read as it was written. -/
theorem MQTTPacket_decode_spelled {Stream : Type}
    {getcharfn : Stream → Checked Buffer (Option UInt8 × Stream)} {length : Nat}
    {stream last : Stream} (bounded : length < 268435456)
    (spelled : Spells getcharfn stream (lengthBytes length) last) :
    MQTTPacket_decode getcharfn stream = .ok (⟨(lengthBytes length).length, length⟩, last) := by
  have rounds : length < 128 ^ MAX_NO_OF_REMAINING_LENGTH_BYTES := bounded
  rw [MQTTPacket_decode, decodeRound_spelled rounds (by decide) spelled, Nat.zero_add, Nat.zero_add,
    Nat.mul_one]

theorem spells_bufchar {bytes : List UInt8} (reads : Reads block ptr bytes) :
    Spells (bufchar block) ptr bytes (ptr + bytes.length) := by
  induction bytes generalizing ptr with
  | nil => rfl
  | cons byte bytes inductionHypothesis =>
      have here : bufchar block ptr = .ok (some byte, ptr + 1) := by
        rw [bufchar, read_of_reads reads, ok_bind]
      refine ⟨ptr + 1, here, ?_⟩
      have later := inductionHypothesis reads.2.2
      rwa [Nat.add_assoc, Nat.add_comm 1] at later

theorem MQTTPacket_decodeBuf_eq {length : Nat} (bounded : length < 268435456)
    (reads : Reads block ptr (lengthBytes length)) :
    MQTTPacket_decodeBuf block ptr = .ok ⟨(lengthBytes length).length, length⟩ := by
  rw [MQTTPacket_decodeBuf, MQTTPacket_decode_spelled bounded (spells_bufchar reads)]
  rfl

theorem readChar_eq {c : UInt8} (reads : Reads block ptr (c :: rest)) :
    readChar block ptr = .ok (c, ptr + 1) := by
  rw [readChar, read_of_reads reads, ok_bind]

theorem readInt_of_reads {high low : UInt8} (reads : Reads block ptr (high :: low :: rest)) :
    readInt block ptr = .ok (256 * high.toNat + low.toNat, ptr + 2) := by
  rw [readInt, read_of_reads reads, ok_bind, read_of_reads reads.2.2, ok_bind]

theorem readInt_eq {value : Nat} (small : value < 65536) (reads : Reads block ptr (intBytes value)) :
    readInt block ptr = .ok (value, ptr + 2) := by
  have high : (UInt8.ofNat (value / 256)).toNat = value / 256 := by
    rw [UInt8.toNat_ofNat']
    omega
  have low : (UInt8.ofNat (value % 256)).toNat = value % 256 := by
    rw [UInt8.toNat_ofNat']
    omega
  rw [readInt_of_reads reads, high, low, Nat.div_add_mod]

theorem readMQTTLenString_eq {mqttstring : MQTTLenString} {data : List UInt8} {enddata : Nat}
    (short : data.length < 65536) (reads : Reads block ptr (stringBytes data))
    (inside : ptr + 2 + data.length ≤ enddata) :
    readMQTTLenString mqttstring block ptr enddata =
      .ok ⟨true, ⟨ptr + 2, data.length⟩, ptr + 2 + data.length⟩ := by
  have length := readInt_eq short (reads_append_iff.mp reads).1
  rw [readMQTTLenString, if_pos (by omega), length, ok_bind]
  exact if_pos inside

def MQTTLenString.Holds (mqttstring : MQTTLenString) (block : Block size) (data : List UInt8) : Prop :=
  mqttstring.len = data.length ∧ Reads block mqttstring.data data

theorem holds_of_reads {data : List UInt8} (reads : Reads block ptr (stringBytes data)) :
    (⟨ptr + 2, data.length⟩ : MQTTLenString).Holds block data :=
  ⟨rfl, (reads_append_iff.mp reads).2⟩

/-- What lies ahead of the reading pointer, up to the end of the data. -/
structure Ahead (block : Block size) (enddata ptr : Nat) (rest : List UInt8) : Prop where
  reads : Reads block ptr rest
  ends : ptr + rest.length = enddata

namespace Ahead

variable {enddata : Nat}

theorem append {front : List UInt8} (ahead : Ahead block enddata ptr (front ++ rest)) :
    Reads block ptr front ∧ Ahead block enddata (ptr + front.length) rest := by
  obtain ⟨reads, ends⟩ := ahead
  rw [reads_append_iff] at reads
  rw [List.length_append] at ends
  exact ⟨reads.1, reads.2, by omega⟩

theorem char {c : UInt8} (ahead : Ahead block enddata ptr (c :: rest)) :
    readChar block ptr = .ok (c, ptr + 1) ∧ Ahead block enddata (ptr + 1) rest := by
  obtain ⟨reads, ends⟩ := ahead
  rw [List.length_cons] at ends
  exact ⟨readChar_eq reads, reads.2.2, by omega⟩

theorem int {value : Nat} (small : value < 65536)
    (ahead : Ahead block enddata ptr (intBytes value ++ rest)) :
    readInt block ptr = .ok (value, ptr + 2) ∧ Ahead block enddata (ptr + 2) rest :=
  ⟨readInt_eq small ahead.append.1, ahead.append.2⟩

theorem string {data : List UInt8} (short : data.length < 65536) (mqttstring : MQTTLenString)
    (ahead : Ahead block enddata ptr (stringBytes data ++ rest)) :
    readMQTTLenString mqttstring block ptr enddata =
        .ok ⟨true, ⟨ptr + 2, data.length⟩, ptr + 2 + data.length⟩ ∧
      (⟨ptr + 2, data.length⟩ : MQTTLenString).Holds block data ∧
      Ahead block enddata (ptr + 2 + data.length) rest := by
  obtain ⟨reads, behind⟩ := ahead.append
  rw [length_stringBytes, ← Nat.add_assoc] at behind
  have inside : ptr + 2 + data.length ≤ enddata := behind.ends ▸ Nat.le_add_right ..
  exact ⟨readMQTTLenString_eq short reads inside, holds_of_reads reads, behind⟩

end Ahead

end Reads

/-! ## Whole packets -/

def packetBytes (header : MQTTHeader) (body : List UInt8) : List UInt8 :=
  header.byte :: (lengthBytes body.length ++ body)

theorem length_packetBytes (header : MQTTHeader) (body : List UInt8) :
    (packetBytes header body).length = 1 + (lengthBytes body.length).length + body.length := by
  rw [packetBytes, List.length_cons, List.length_append]
  omega

/-- A packet in front of a buffer, as the reading functions begin with it. -/
structure Opened {size : Nat} (block : Block size) (header : MQTTHeader) (body : List UInt8) : Prop where
  first : readChar block 0 = .ok (header.byte, 1)
  length : MQTTPacket_decodeBuf block 1 = .ok ⟨(lengthBytes body.length).length, body.length⟩
  body : Ahead block (1 + (lengthBytes body.length).length + body.length)
    (1 + (lengthBytes body.length).length) body

theorem opened_of_reads {size : Nat} {block : Block size} {header : MQTTHeader} {body : List UInt8}
    (bounded : body.length < 268435456) (reads : Reads block 0 (packetBytes header body)) :
    Opened block header body := by
  have behind := reads_append_iff.mp (reads_cons_iff.mp reads).2.2
  exact ⟨readChar_eq reads, MQTTPacket_decodeBuf_eq bounded behind.1, behind.2, rfl⟩

section Filled

variable {size : Nat} {header : MQTTHeader} {body : List UInt8}

def sent (buf : Block size) (header : MQTTHeader) (body : List UInt8) : Block size :=
  ((⟨buf, 0⟩ : Output size).filled (packetBytes header body)).block

/-- The end of every function that writes a packet: the packet, or the write right
behind the buffer, if nothing has been asked about its length. -/
theorem emit_packet_eq (buf : Block size) (header : MQTTHeader) (body : List UInt8) :
    ((⟨buf, 0⟩ : Output size).emit Buffer.buf (packetBytes header body) >>= fun output =>
      .ok ((output.ptr : Int), output.block)) =
      if (packetBytes header body).length ≤ size then
        .ok (((packetBytes header body).length : Int), sent buf header body)
      else .error ⟨.buf, size, .write⟩ := by
  rw [Output.emit_eq (Nat.zero_le _)]
  simp only [Nat.zero_add]
  split
  · simp only [ok_bind, Output.ptr_filled, Nat.zero_add, sent]
  · rfl

/-- What the functions that write a packet come to: the buffer is shorter than they ask
for, or the packet is there, or they write behind the buffer. -/
def serialized (buf : Block size) (asked : Nat) (header : MQTTHeader) (body : List UInt8) :
    Checked Buffer (Int × Block size) :=
  if asked > size then .ok (MQTTPACKET_BUFFER_TOO_SHORT, buf)
  else if (packetBytes header body).length ≤ size then
    .ok ((packetBytes header body).length, sent buf header body)
  else .error ⟨.buf, size, .write⟩

theorem serialized_of_emit {buf : Block size} {asked : Nat}
    {result : Checked Buffer (Int × Block size)}
    (tooShort : asked > size → result = .ok (MQTTPACKET_BUFFER_TOO_SHORT, buf))
    (written : ¬asked > size →
      result = (⟨buf, 0⟩ : Output size).emit Buffer.buf (packetBytes header body) >>= fun output =>
        .ok ((output.ptr : Int), output.block)) :
    result = serialized buf asked header body := by
  rw [serialized]
  by_cases short : asked > size
  · rw [if_pos short, tooShort short]
  · rw [if_neg short, written short, emit_packet_eq]

theorem eq_sent_of_serialized {buf block : Block size} {asked : Nat} {len : Int}
    (done : serialized buf asked header body = .ok (len, block)) (positive : 0 < len) :
    (packetBytes header body).length ≤ size ∧ len = (packetBytes header body).length ∧
      block = sent buf header body := by
  rw [serialized] at done
  split_ifs at done with short fits
  · cases done
    exact absurd positive (by decide)
  · cases done
    exact ⟨fits, rfl, rfl⟩

theorem reads_sent (buf : Block size) (fits : (packetBytes header body).length ≤ size) :
    Reads (sent buf header body) 0 (packetBytes header body) := by
  have room : (⟨buf, 0⟩ : Output size).ptr + (packetBytes header body).length ≤ size := by
    rwa [Nat.zero_add]
  exact Output.reads_filled room

theorem byteAt_sent (buf : Block size) {index : Nat} (behind : (packetBytes header body).length ≤ index) :
    (sent buf header body).byteAt index = buf.byteAt index :=
  Output.byteAt_filled_of_outside (.inr ((Nat.zero_add _).le.trans behind))

theorem serialized_eq_ok (buf : Block size) (bounded : body.length < 268435456)
    (fits : MQTTPacket_len body.length ≤ size) :
    serialized buf (MQTTPacket_len body.length) header body =
      .ok ((packetBytes header body).length, sent buf header body) := by
  have announced := length_le_MQTTPacket_len bounded
  rw [serialized, if_neg (not_lt.mpr fits), if_pos (by rw [length_packetBytes]; omega)]

theorem length_packetBytes_le (bounded : body.length < 268435456)
    (fits : MQTTPacket_len body.length ≤ size) : (packetBytes header body).length ≤ size := by
  have announced := length_le_MQTTPacket_len bounded
  rw [length_packetBytes]
  omega

end Filled

end WifiIot.Paho
