import WifiIot.Paho.Packet

/-!
# Publish packets and acknowledgements

A publish packet is read as it was written: the flags, the packet identifier,
the topic and the payload come back from every buffer that holds the bytes of
the packet.

Source: `paho_mqtt/MQTTPacket/src/MQTTSerializePublish.c`, `MQTTDeserializePublish.c`.
-/

namespace WifiIot.Paho

open Memory Wire

variable {size : Nat}

def MQTTSerialize_publishLength (qos : Nat) (topicName : MQTTString) (payloadlen : Nat) : Nat :=
  let len := 2 + MQTTstrlen topicName + payloadlen
  if 0 < qos then len + 2 else len

def MQTTSerialize_publish (buf : Block size) (dup qos retained : Nat) (packetid : UInt16)
    (topicName : MQTTString) (payload : List UInt8) : Checked Buffer (Int × Block size) :=
  let rem_len := MQTTSerialize_publishLength qos topicName payload.length
  if MQTTPacket_len rem_len > size then .ok (MQTTPACKET_BUFFER_TOO_SHORT, buf)
  else do
    let header : MQTTHeader :=
      { type := msgTypes.PUBLISH.code, dup := dup, qos := qos, retain := retained }
    let output ← writeChar header.byte ⟨buf, 0⟩
    let output ← MQTTPacket_encode rem_len output
    let output ← writeMQTTString topicName output
    let output ← (if 0 < qos then writeInt packetid.toNat output else .ok output)
    let output ← memcpy payload output
    .ok (output.ptr, output.block)

def MQTTSerialize_ack (buf : Block size) (packettype : msgTypes) (dup : Nat) (packetid : UInt16) :
    Checked Buffer (Int × Block size) :=
  if size < 4 then .ok (MQTTPACKET_BUFFER_TOO_SHORT, buf)
  else do
    let header : MQTTHeader :=
      { type := packettype.code, dup := dup, qos := if packettype = .PUBREL then 1 else 0 }
    let output ← writeChar header.byte ⟨buf, 0⟩
    let output ← MQTTPacket_encode 2 output
    let output ← writeInt packetid.toNat output
    .ok (output.ptr, output.block)

def MQTTSerialize_puback (buf : Block size) (packetid : UInt16) : Checked Buffer (Int × Block size) :=
  MQTTSerialize_ack buf .PUBACK 0 packetid

def MQTTSerialize_pubrel (buf : Block size) (dup : Nat) (packetid : UInt16) :
    Checked Buffer (Int × Block size) :=
  MQTTSerialize_ack buf .PUBREL dup packetid

def MQTTSerialize_pubcomp (buf : Block size) (packetid : UInt16) :
    Checked Buffer (Int × Block size) :=
  MQTTSerialize_ack buf .PUBCOMP 0 packetid

/-- What is returned through the pointers.  The topic and the payload stay in the
buffer; the length of the payload is a difference of pointers. -/
structure Published where
  dup : Nat := 0
  qos : Nat := 0
  retained : Nat := 0
  packetid : UInt16 := 0
  topicName : MQTTLenString := {}
  payload : Nat := 0
  payloadlen : Int := 0
  deriving DecidableEq

/-- Where the packet breaks off in the topic, the number of bytes of the remaining
length is returned, which may be 1 as well. -/
def MQTTDeserialize_publish (published : Published) (buf : Block size) :
    Checked Buffer (Int × Published) := do
  let (byte, curdata) ← readChar buf 0
  let header := MQTTHeader.ofByte byte
  if header.type ≠ msgTypes.PUBLISH.code then .ok (0, published)
  else
    let published :=
      { published with dup := header.dup, qos := header.qos, retained := header.retain }
    let mylen ← MQTTPacket_decodeBuf buf curdata
    let curdata := curdata + mylen.len
    let enddata := curdata + mylen.value
    let topicName ← readMQTTLenString published.topicName buf curdata enddata
    let published := { published with topicName := topicName.string }
    if !topicName.rc || (enddata : Int) - topicName.ptr < 0 then .ok (mylen.len, published)
    else if 0 < published.qos then
      let (packetid, curdata) ← readInt buf topicName.ptr
      .ok (1, { published with
        packetid := UInt16.ofNat packetid, payload := curdata, payloadlen := enddata - curdata })
    else
      .ok (1, { published with payload := topicName.ptr, payloadlen := enddata - topicName.ptr })

structure Acknowledged where
  packettype : Nat := 0
  dup : Nat := 0
  packetid : UInt16 := 0
  deriving DecidableEq

def MQTTDeserialize_ack (acknowledged : Acknowledged) (buf : Block size) :
    Checked Buffer (Int × Acknowledged) := do
  let (byte, curdata) ← readChar buf 0
  let header := MQTTHeader.ofByte byte
  let acknowledged := { acknowledged with dup := header.dup, packettype := header.type }
  let mylen ← MQTTPacket_decodeBuf buf curdata
  let curdata := curdata + mylen.len
  let enddata := curdata + mylen.value
  if (enddata : Int) - curdata < 2 then .ok (mylen.len, acknowledged)
  else
    let (packetid, _) ← readInt buf curdata
    .ok (1, { acknowledged with packetid := UInt16.ofNat packetid })

/-! ## The bytes of a publish packet -/

def publishHeader (dup qos retained : Nat) : MQTTHeader :=
  { type := msgTypes.PUBLISH.code, dup := dup, qos := qos, retain := retained }

/-- The packet identifier, which only some qualities of service have. -/
def identifierBytes (qos : Nat) (packetid : UInt16) : List UInt8 :=
  if 0 < qos then intBytes packetid.toNat else []

def publishBody (qos : Nat) (packetid : UInt16) (topic payload : List UInt8) : List UInt8 :=
  stringBytes topic ++ identifierBytes qos packetid ++ payload

section Publish

variable {qos : Nat} {packetid : UInt16} {topicName : MQTTString} {payload : List UInt8}

theorem length_publishBody (qos : Nat) (packetid : UInt16) (payload : List UInt8)
    (single : topicName.Single) :
    (publishBody qos packetid topicName.content payload).length =
      MQTTSerialize_publishLength qos topicName payload.length := by
  simp only [publishBody, List.length_append, length_stringBytes, identifierBytes,
    MQTTSerialize_publishLength]
  rw [show MQTTstrlen topicName = topicName.content.length from single]
  split
  · rw [length_intBytes]
    omega
  · rw [List.length_nil]
    omega

theorem write_identifier (output : Output size) :
    (if 0 < qos then writeInt packetid.toNat output else .ok output) =
      output.emit .buf (identifierBytes qos packetid) := by
  rw [identifierBytes]
  split
  · exact writeInt_eq _
  · rfl

theorem MQTTSerialize_publish_serialized (buf : Block size) (dup qos retained : Nat)
    (packetid : UInt16) (payload : List UInt8) (single : topicName.Single) :
    MQTTSerialize_publish buf dup qos retained packetid topicName payload =
      serialized buf (MQTTPacket_len (publishBody qos packetid topicName.content payload).length)
        (publishHeader dup qos retained) (publishBody qos packetid topicName.content payload) := by
  have length := length_publishBody qos packetid payload single
  apply serialized_of_emit
  · intro short
    rw [MQTTSerialize_publish, if_pos (by rwa [← length])]
  · intro enough
    rw [MQTTSerialize_publish, if_neg (by rwa [← length]), ← length]
    simp only [writeChar_eq, MQTTPacket_encode_eq, writeMQTTString_eq, write_identifier, memcpy_eq,
      packetBytes, Output.emit_cons, publishBody, Output.emit_append, bind_assoc]
    rfl

theorem MQTTSerialize_publish_eq (buf : Block size) (dup retained : Nat) (single : topicName.Single)
    (bounded : MQTTSerialize_publishLength qos topicName payload.length < 268435456)
    (fits : MQTTPacket_len (MQTTSerialize_publishLength qos topicName payload.length) ≤ size) :
    MQTTSerialize_publish buf dup qos retained packetid topicName payload =
      .ok ((packetBytes (publishHeader dup qos retained)
          (publishBody qos packetid topicName.content payload)).length,
        sent buf (publishHeader dup qos retained)
          (publishBody qos packetid topicName.content payload)) := by
  have length := length_publishBody qos packetid payload single
  rw [← length] at bounded fits
  rw [MQTTSerialize_publish_serialized buf dup qos retained packetid payload single,
    serialized_eq_ok buf bounded fits]

/-- What is read of the packet, with the places of the topic and of the payload. -/
def published (before : Published) (dup qos retained : Nat) (packetid : UInt16)
    (topic payload : List UInt8) : Published :=
  let start := 1 + (lengthBytes (publishBody qos packetid topic payload).length).length + 2
  { dup := dup, qos := qos, retained := retained
    packetid := if 0 < qos then packetid else before.packetid
    topicName := ⟨start, topic.length⟩
    payload := start + topic.length + (identifierBytes qos packetid).length
    payloadlen := payload.length }

variable {block : Block size} {dup retained : Nat} {topic : List UInt8}

theorem ofByte_publishHeader (flags : dup < 2 ∧ qos < 4 ∧ retained < 2) :
    MQTTHeader.ofByte (publishHeader dup qos retained).byte =
      ⟨msgTypes.PUBLISH.code, dup, qos, retained⟩ := by
  rw [MQTTHeader.ofByte_byte]
  simp only [publishHeader, msgTypes.code, MQTTHeader.mk.injEq]
  exact ⟨trivial, by omega⟩

theorem MQTTDeserialize_publish_eq (before : Published) (flags : dup < 2 ∧ qos < 4 ∧ retained < 2)
    (short : topic.length < 65536)
    (bounded : (publishBody qos packetid topic payload).length < 268435456)
    (reads : Reads block 0 (packetBytes (publishHeader dup qos retained)
      (publishBody qos packetid topic payload))) :
    MQTTDeserialize_publish before block =
      .ok (1, published before dup qos retained packetid topic payload) := by
  obtain ⟨first, length, body⟩ := opened_of_reads bounded reads
  rw [MQTTDeserialize_publish, first, ok_bind]
  simp only [ofByte_publishHeader flags, length, ok_bind, published]
  generalize (lengthBytes (publishBody qos packetid topic payload).length).length = digits at body ⊢
  generalize 1 + digits + (publishBody qos packetid topic payload).length = enddata at body ⊢
  rw [publishBody, List.append_assoc] at body
  obtain ⟨string, -, behind⟩ := body.string short before.topicName
  obtain ⟨identifierReads, atPayload, ends⟩ := behind.append
  have enough : ¬((enddata : Int) - (1 + digits + 2 + topic.length : Nat) < 0) := by omega
  have rest : (enddata : Int) -
      (1 + digits + 2 + topic.length + (identifierBytes qos packetid).length : Nat) =
        payload.length := by omega
  rw [if_neg (not_not.mpr rfl), string, ok_bind]
  simp only [Bool.not_true, Bool.false_or, enough, decide_false]
  by_cases identified : 0 < qos
  · rw [identifierBytes, if_pos identified] at identifierReads rest ⊢
    have identifier := readInt_eq packetid.toNat_lt identifierReads
    rw [length_intBytes] at rest
    simp only [if_pos identified, identifier, ok_bind, UInt16.ofNat_toNat, length_intBytes,
      Bool.false_eq_true, if_false, rest]
  · rw [identifierBytes, if_neg identified] at rest ⊢
    rw [List.length_nil, Nat.add_zero] at rest
    simp only [if_neg identified, List.length_nil, Bool.false_eq_true, if_false, Nat.add_zero, rest]

/-- The topic and the payload lie where the pointers say. -/
theorem reads_published (before : Published)
    (reads : Reads block 0 (packetBytes (publishHeader dup qos retained)
      (publishBody qos packetid topic payload))) :
    (published before dup qos retained packetid topic payload).topicName.Holds block topic ∧
      Reads block (published before dup qos retained packetid topic payload).payload payload := by
  have body := (reads_append_iff.mp (reads_cons_iff.mp reads).2.2).2
  simp only [published]
  generalize (lengthBytes (publishBody qos packetid topic payload).length).length = digits at body ⊢
  rw [publishBody, stringBytes, List.append_assoc, List.append_assoc] at body
  simp only [reads_append_iff, length_intBytes, Nat.zero_add] at body
  obtain ⟨-, topicReads, -, payloadReads⟩ := body
  exact ⟨⟨rfl, topicReads⟩, payloadReads⟩

end Publish

/-! ## Acknowledgements -/

section Acknowledge

variable {block : Block size} {header : MQTTHeader} {body : List UInt8}

def ackHeader (packettype : msgTypes) (dup : Nat) : MQTTHeader :=
  { type := packettype.code, dup := dup, qos := if packettype = .PUBREL then 1 else 0 }

theorem MQTTSerialize_ack_serialized (buf : Block size) (packettype : msgTypes) (dup : Nat)
    (packetid : UInt16) : MQTTSerialize_ack buf packettype dup packetid =
      serialized buf 4 (ackHeader packettype dup) (intBytes packetid.toNat) := by
  apply serialized_of_emit
  · intro short
    rw [MQTTSerialize_ack, if_pos short]
  · intro enough
    rw [MQTTSerialize_ack, if_neg enough]
    simp only [writeChar_eq, MQTTPacket_encode_eq, writeInt_eq, packetBytes, length_intBytes,
      Output.emit_cons, Output.emit_append, bind_assoc]
    rfl

theorem MQTTSerialize_ack_eq (buf : Block size) (packettype : msgTypes) (dup : Nat)
    (packetid : UInt16) : MQTTSerialize_ack buf packettype dup packetid =
      if size < 4 then .ok (MQTTPACKET_BUFFER_TOO_SHORT, buf)
      else .ok (4, sent buf (ackHeader packettype dup) (intBytes packetid.toNat)) := by
  have length : (packetBytes (ackHeader packettype dup) (intBytes packetid.toNat)).length = 4 := by
    rw [length_packetBytes, length_intBytes, length_lengthBytes_of_lt (by decide)]
  rw [MQTTSerialize_ack_serialized, serialized, length]
  by_cases short : size < 4
  · rw [if_pos short, if_pos short]
  · rw [if_neg short, if_neg short, if_pos (by omega)]
    rfl

/-- Whatever the length of an acknowledgement, it is taken for one; the identifier of
a packet without one is the one that the caller had before. -/
theorem MQTTDeserialize_ack_eq (before : Acknowledged) (bounded : body.length < 268435456)
    (reads : Reads block 0 (packetBytes header body)) :
    MQTTDeserialize_ack before block = .ok (1,
      ⟨header.type % 16, header.dup % 2,
        match body with
        | high :: low :: _ => UInt16.ofNat (256 * high.toNat + low.toNat)
        | _ => before.packetid⟩) := by
  obtain ⟨first, length, ahead⟩ := opened_of_reads bounded reads
  rw [MQTTDeserialize_ack, first, ok_bind]
  simp only [MQTTHeader.ofByte_byte, length, ok_bind]
  have short : body.length < 2 →
      (((1 + (lengthBytes body.length).length + body.length : Nat) : Int) -
        (1 + (lengthBytes body.length).length : Nat) < 2) ∧ (lengthBytes body.length).length = 1 :=
    fun few => ⟨by omega, length_lengthBytes_of_lt (by omega)⟩
  match body with
  | [] =>
      obtain ⟨early, one⟩ := short Nat.two_pos
      rw [if_pos early, one]
      rfl
  | [_] =>
      obtain ⟨early, one⟩ := short Nat.one_lt_two
      rw [if_pos early, one]
      rfl
  | high :: low :: rest =>
      rw [if_neg (by simp only [List.length_cons]; omega), readInt_of_reads ahead.reads, ok_bind]

end Acknowledge

/-! ## The round trip -/

/-- A publish packet that is written is read in every buffer that holds its
bytes, as it was written; behind the packet the buffer of the sender stays. -/
theorem MQTTDeserialize_publish_MQTTSerialize_publish {size : Nat} (buf : Block size)
    {dup qos retained : Nat} (packetid : UInt16) {topicName : MQTTString}
    {payload : List UInt8} (before : Published) (flags : dup < 2 ∧ qos < 4 ∧ retained < 2)
    (single : topicName.Single) (short : topicName.content.length < 65536)
    (bounded : MQTTSerialize_publishLength qos topicName payload.length < 268435456)
    (fits : MQTTPacket_len (MQTTSerialize_publishLength qos topicName payload.length) ≤ size) :
    ∃ (packet : List UInt8) (written : Block size),
      MQTTSerialize_publish buf dup qos retained packetid topicName payload =
        .ok (packet.length, written) ∧
      Reads written 0 packet ∧
      (∀ index, packet.length ≤ index → written.byteAt index = buf.byteAt index) ∧
      ∀ (room : Nat) (received : Block room), Reads received 0 packet → ∃ message : Published,
        MQTTDeserialize_publish before received = .ok (1, message) ∧
        message.dup = dup ∧ message.qos = qos ∧ message.retained = retained ∧
        message.packetid = (if 0 < qos then packetid else before.packetid) ∧
        message.topicName.Holds received topicName.content ∧
        message.payloadlen = payload.length ∧ Reads received message.payload payload := by
  have length := length_publishBody qos packetid payload single
  have fitsBody := fits
  rw [← length] at fitsBody
  have within : (packetBytes (publishHeader dup qos retained)
      (publishBody qos packetid topicName.content payload)).length ≤ size :=
    length_packetBytes_le (by rwa [length]) fitsBody
  refine ⟨_, _, MQTTSerialize_publish_eq buf dup retained single bounded fits, reads_sent buf within,
    fun index => byteAt_sent buf, fun room received reads => ?_⟩
  have places := reads_published before reads
  exact ⟨_, MQTTDeserialize_publish_eq before flags short (by rwa [length]) reads, rfl, rfl, rfl, rfl,
    places.1, rfl, places.2⟩

/-- Two bytes to the topic `a`, with an identifier. -/
theorem MQTTDeserialize_publish_MQTTSerialize_publish_two_bytes :
    ∃ (packet : List UInt8) (written : Block 16) (message : Published),
      MQTTSerialize_publish (fun _ => 0) 0 1 0 7 { lenstring := some [0x61] } [1, 2] =
        .ok (packet.length, written) ∧
      MQTTDeserialize_publish {} written = .ok (1, message) ∧ message.packetid = 7 ∧
      message.topicName.Holds written [0x61] ∧ Reads written message.payload [1, 2] := by
  obtain ⟨packet, written, serialized, reads, -, read⟩ :=
    @MQTTDeserialize_publish_MQTTSerialize_publish 16 (fun _ => 0) 0 1 0 7
      { lenstring := some [0x61] } [1, 2] {} (by decide) (by decide) (by decide) (by decide) (by decide)
  obtain ⟨message, deserialized, -, -, -, packetid, topicName, -, payload⟩ := read 16 written reads
  exact ⟨packet, written, message, serialized, deserialized, packetid, topicName, payload⟩

end WifiIot.Paho
