import WifiIot.Paho.Sending

/-!
# Serving a server

While the network delivers what a server sends, takes what the client writes, and no
timer runs out, the client answers every packet in its turn: the messages that are to
be acknowledged, and both steps of those that are sent exactly once, with the
identifier that came with them.  A call that waits for its answer does the same with
every packet in front of the answer.

Source: `paho_mqtt/MQTTClient-C/src/MQTTClient.c`, `readPacket`, `cycle` and `MQTTRun`,
built with `MQTT_TASK`; the mutex keeps a turn of the task and a call of the application
apart.
-/

namespace WifiIot.Paho

open Memory Wire

variable {World Handler : Type} {size room : Nat}

/-- `MQTTRun`, for a number of turns, with what `cycle` returns; `MQTTStopTask` ends it. -/
def MQTTRun (env : Environment World) (rounds : Nat) :
    Nat → Session World size room Handler → Running (List Int × Session World size room Handler)
  | 0, s => .ok ([], s)
  | turns + 1, s =>
      if s.client.running then do
        let (rc, s) ← cycle env rounds { s with world := env.TimerCountdownMS s.world .caller 500 }
        let (rest, s) ← MQTTRun env rounds turns s
        .ok (rc :: rest, s)
      else .ok ([], s)

/-! ## The packets of a server -/

inductive ServerPacket where
  | publish (dup qos retained : Nat) (packetid : UInt16) (topicName payload : List UInt8)
  | pubrec (packetid : UInt16)
  | pubrel (packetid : UInt16)
  | pingresp
  | answer (packettype : msgTypes) (body : List UInt8)

namespace ServerPacket

def header : ServerPacket → MQTTHeader
  | publish dup qos retained _ _ _ => publishHeader dup qos retained
  | pubrec _ => ackHeader .PUBREC 0
  | pubrel _ => ackHeader .PUBREL 0
  | pingresp => { type := msgTypes.PINGRESP.code }
  | answer packettype _ => { type := packettype.code }

def body : ServerPacket → List UInt8
  | publish _ qos _ packetid topicName payload => publishBody qos packetid topicName payload
  | pubrec packetid | pubrel packetid => intBytes packetid.toNat
  | pingresp => []
  | answer _ body => body

/-- What a server may send to a client that has a buffer of this size. -/
structure Valid (room : Nat) (packet : ServerPacket) : Prop where
  fits : (packetBytes packet.header packet.body).length ≤ room
  bounded : packet.body.length < 268435456
  flags : ∀ dup qos retained packetid topicName payload,
    packet = publish dup qos retained packetid topicName payload →
      dup < 2 ∧ qos < 3 ∧ retained < 2 ∧ topicName.length < 65536
  answers : ∀ packettype body, packet = answer packettype body →
    packettype ∈ [msgTypes.CONNACK, .PUBACK, .SUBACK, .UNSUBACK, .PUBCOMP]

def reply : ServerPacket → List UInt8
  | publish _ qos _ packetid _ _ =>
      if qos = 1 then packetBytes (ackHeader .PUBACK 0) (intBytes packetid.toNat)
      else if qos = 2 then packetBytes (ackHeader .PUBREC 0) (intBytes packetid.toNat)
      else []
  | pubrec packetid => packetBytes (ackHeader .PUBREL 0) (intBytes packetid.toNat)
  | pubrel packetid => packetBytes (ackHeader .PUBCOMP 0) (intBytes packetid.toNat)
  | pingresp | answer _ _ => []

end ServerPacket

structure Seen where
  dup : Nat
  qos : Nat
  retained : Nat
  topicName : List UInt8
  payload : List UInt8
  deriving DecidableEq

def bytesAt (block : Block room) (start len : Nat) : List UInt8 :=
  (List.range' start len).map block.byteAt

/-- The messages that have been handed over, and to whom. -/
def handed (log : List (Event room Handler)) : List (Handler × Seen) :=
  log.filterMap fun event => match event with
    | .written _ => none
    | .delivered fp message readbuf => some (fp,
        ⟨message.dup, message.qos, message.retained,
          bytesAt readbuf message.topicName.data message.topicName.len,
          bytesAt readbuf message.payload message.payloadlen.toNat⟩)

def ServerPacket.deliveries (strings : Address → Text) (c : MQTTClient size room Handler) :
    ServerPacket → List (Handler × Seen)
  | publish dup qos retained _ topicName payload =>
      (delivery strings topicName c.messageHandlers c.defaultMessageHandler).map fun fp =>
        (fp, ⟨dup, qos, retained, topicName, payload⟩)
  | _ => []

theorem deliveries_of_handlers (strings : Address → Text) {c c' : MQTTClient size room Handler}
    (messageHandlers : c'.messageHandlers = c.messageHandlers)
    (defaultMessageHandler : c'.defaultMessageHandler = c.defaultMessageHandler) :
    ServerPacket.deliveries strings c' = ServerPacket.deliveries strings c := by
  funext packet
  cases packet <;> simp only [ServerPacket.deliveries, messageHandlers, defaultMessageHandler]

theorem handed_of_handlers {strings : Address → Text} {c c' : MQTTClient size room Handler}
    {packets : List ServerPacket} {seen before : List (Handler × Seen)}
    (messageHandlers : c'.messageHandlers = c.messageHandlers)
    (defaultMessageHandler : c'.defaultMessageHandler = c.defaultMessageHandler)
    (handedEq : seen = before ++ packets.flatMap (ServerPacket.deliveries strings c')) :
    seen = before ++ packets.flatMap (ServerPacket.deliveries strings c) := by
  rw [handedEq, deliveries_of_handlers strings messageHandlers defaultMessageHandler]

section Log

variable {log : List (Event room Handler)}

@[simp]
theorem handed_written (bytes : List UInt8) : handed (log ++ [.written bytes]) = handed log := by
  simp [handed]

theorem handed_delivered (fps : List Handler) {message : Published} {readbuf : Block room}
    {topicName payload : List UInt8} (topic : message.topicName.Holds readbuf topicName)
    (content : Reads readbuf message.payload payload)
    (length : message.payloadlen = payload.length) :
    handed (log ++ fps.map fun fp => .delivered fp message readbuf) = handed log ++
      fps.map fun fp => (fp, ⟨message.dup, message.qos, message.retained, topicName, payload⟩) := by
  have topicBytes : bytesAt readbuf message.topicName.data message.topicName.len = topicName := by
    rw [bytesAt, topic.1, topic.2.map_byteAt]
  have payloadBytes : bytesAt readbuf message.payload message.payloadlen.toNat = payload := by
    rw [bytesAt, length, Int.toNat_natCast, content.map_byteAt]
  rw [handed, List.filterMap_append, List.filterMap_map, ← handed]
  congr 1
  rw [← List.filterMap_eq_map]
  congr 1
  funext fp
  simp [topicBytes, payloadBytes]

end Log

/-! ## The network -/

/-- A network that delivers a stream and takes every packet at once, a clock on which no
timer runs out, and an application that leaves its strings as they are. -/
structure Serving (env : Environment World) (stream : World → List UInt8)
    (strings : Address → Text) : Prop where
  mqttread : ∀ world timer byte more rest, stream world = byte :: more ++ rest →
    ∃ incoming next, env.mqttread world timer (byte :: more).length = (incoming, next) ∧
      incoming.rc = (byte :: more).length ∧ incoming.bytes = byte :: more ∧ stream next = rest
  mqttwrite : ∀ world timer count, ∃ next,
    env.mqttwrite world timer count = ((count : Int), next) ∧ stream next = stream world
  taken : ∀ world bytes, stream (env.taken world bytes) = stream world
  TimerIsExpired : ∀ world timer, ∃ next,
    env.TimerIsExpired world timer = (false, next) ∧ stream next = stream world
  TimerCountdown : ∀ world timer seconds, stream (env.TimerCountdown world timer seconds) = stream world
  TimerCountdownMS : ∀ world timer ms, stream (env.TimerCountdownMS world timer ms) = stream world
  strings : ∀ world, env.strings world = strings

section Serving

variable {env : Environment World} {stream : World → List UInt8} {strings : Address → Text}
  {s : Session World size room Handler}
  {rounds : Nat} {rest : List UInt8}

theorem sendPacket_serving (serving : Serving env stream strings) (enough : 2 ≤ rounds) (timer : Timer)
    {bytes : List UInt8} (nonempty : 0 < bytes.length) (reads : Reads s.client.buf 0 bytes) :
    ∃ world, sendPacket env rounds timer bytes.length s =
        .ok (SUCCESS, { s with world := world, log := s.log ++ [.written bytes] }) ∧
      stream world = stream s.world := by
  obtain ⟨rounds, rfl⟩ := Nat.exists_eq_add_of_le' enough
  obtain ⟨asked, running, sameAsked⟩ := serving.TimerIsExpired s.world timer
  obtain ⟨next, written, sameNext⟩ := serving.mqttwrite asked timer bytes.length
  have read : readBytes (fun k => s.client.buf.read Buffer.buf (0 + k)) bytes.length = .ok bytes :=
    readBytes_of_reads reads
  have first : sendRounds env timer bytes.length (rounds + 2) 0 s = .ok (bytes.length,
      { s with world := env.taken next bytes, log := s.log ++ [.written bytes] }) := by
    rw [sendRounds, if_pos nonempty, running]
    simp only [written]
    rw [if_neg (by omega), Int.toNat_natCast, read, check_ok, running_ok_bind, Nat.zero_add,
      sendRounds, if_neg (lt_irrefl _)]
  refine ⟨env.TimerCountdown (env.taken next bytes) .last_sent s.client.keepAliveInterval, ?_, ?_⟩
  · rw [sendPacket, first, running_ok_bind]
    simp only [if_true]
  · rw [serving.TimerCountdown, serving.taken, sameNext, sameAsked]

theorem sendAck_serving (serving : Serving env stream strings) (enough : 2 ≤ rounds) (space : 4 ≤ size)
    (packettype : msgTypes) (packetid : UInt16) :
    ∃ world buf, sendAck env rounds packettype packetid s = .ok (SUCCESS,
        { client := { s.client with buf := buf }, world := world
          log := s.log ++ [.written (packetBytes (ackHeader packettype 0) (intBytes packetid.toNat))] }) ∧
      stream world = stream s.world := by
  have length : (packetBytes (ackHeader packettype 0) (intBytes packetid.toNat)).length = 4 := by
    rw [length_packetBytes, length_intBytes, length_lengthBytes_of_lt (by decide)]
  let buf := sent s.client.buf (ackHeader packettype 0) (intBytes packetid.toNat)
  have serializes : MQTTSerialize_ack s.client.buf packettype 0 packetid = .ok (4, buf) := by
    rw [MQTTSerialize_ack_eq, if_neg (by omega)]
  obtain ⟨world, sends, same⟩ := @sendPacket_serving World Handler size room env stream strings
    { s with client := { s.client with buf := buf } } rounds serving enough .caller
    (packetBytes (ackHeader packettype 0) (intBytes packetid.toNat)) (by omega)
    (reads_sent s.client.buf (by omega))
  refine ⟨world, buf, ?_, same⟩
  rw [sendAck, serializes, check_ok, running_ok_bind]
  simp only
  rw [if_neg (by decide), ← sends, length]
  rfl

theorem keepalive_serving (serving : Serving env stream strings) :
    ∃ world, keepalive env rounds s = .ok (SUCCESS, { s with world := world }) ∧
      stream world = stream s.world := by
  rw [keepalive]
  by_cases switchedOff : s.client.keepAliveInterval = 0
  · exact ⟨s.world, if_pos switchedOff, rfl⟩
  · obtain ⟨first, running, same⟩ := serving.TimerIsExpired s.world .last_sent
    obtain ⟨second, stillRunning, sameAgain⟩ := serving.TimerIsExpired first .last_received
    refine ⟨second, ?_, sameAgain.trans same⟩
    rw [if_neg switchedOff, isExpired, running]
    simp only [stillRunning]

/-! ## One packet -/

/-- `decodePacket` does what `MQTTPacket_decode` does, on the network. -/
theorem decodeDigits_eq (env : Environment World) (rounds len value multiplier : Nat) (world : World) :
    ∃ digits, decodeRound (fun world => .ok (readByte env world)) rounds multiplier ⟨len, value⟩ world =
      .ok (⟨digits, (decodeDigits env rounds value multiplier world).1⟩,
        (decodeDigits env rounds value multiplier world).2) := by
  induction rounds generalizing len value multiplier world with
  | zero => exact ⟨_, rfl⟩
  | succ rounds inductionHypothesis =>
      rw [decodeRound, decodeDigits, ok_bind]
      rcases readByte env world with ⟨_ | i, next⟩
      · exact ⟨_, rfl⟩
      · simp only
        split_ifs with more
        · exact inductionHypothesis _ _ _ next
        · exact ⟨_, rfl⟩

theorem readByte_serving (serving : Serving env stream strings) {byte : UInt8} {world : World}
    (ahead : stream world = byte :: rest) :
    ∃ next, readByte env world = (some byte, next) ∧ stream next = rest := by
  obtain ⟨⟨rc, bytes, few, counted⟩, next, answered, same, came, behind⟩ :=
    serving.mqttread world .caller byte [] rest ahead
  obtain rfl : rc = 1 := same
  obtain rfl : bytes = [byte] := came
  refine ⟨next, ?_, behind⟩
  change env.mqttread world .caller 1 = _ at answered
  simp only [readByte, answered]

theorem spells_readByte (serving : Serving env stream strings) {bytes : List UInt8} {world : World}
    (ahead : stream world = bytes ++ rest) :
    ∃ last, Spells (fun world => .ok (readByte env world)) world bytes last ∧ stream last = rest := by
  induction bytes generalizing world with
  | nil => exact ⟨world, rfl, ahead⟩
  | cons byte bytes inductionHypothesis =>
      obtain ⟨next, answered, behind⟩ := readByte_serving serving ahead
      obtain ⟨last, spelled, left⟩ := inductionHypothesis behind
      exact ⟨last, ⟨next, congrArg Except.ok answered, spelled⟩, left⟩

theorem decodePacket_serving (serving : Serving env stream strings) {length : Nat}
    (bounded : length < 268435456) {world : World} (ahead : stream world = lengthBytes length ++ rest) :
    ∃ last, decodePacket env world = (length, last) ∧ stream last = rest := by
  obtain ⟨last, spelled, left⟩ := spells_readByte serving ahead
  obtain ⟨digits, decoded⟩ :=
    decodeDigits_eq env MAX_NO_OF_REMAINING_LENGTH_BYTES 0 0 1 world
  have same := decoded.symm.trans (MQTTPacket_decode_spelled bounded spelled)
  have parts := Prod.mk.inj (Except.ok.inj same)
  exact ⟨last, Prod.ext (congrArg Decoded.value parts.1) parts.2, left⟩

theorem front_of_packet (buf : Block room) {header : MQTTHeader} {body : List UInt8}
    (fits : (packetBytes header body).length ≤ room) :
    ((⟨buf, 0⟩ : Output room).emit Buffer.buf [header.byte] =
      .ok ((⟨buf, 0⟩ : Output room).filled [header.byte])) ∧
    MQTTPacket_encode body.length ((⟨buf, 0⟩ : Output room).filled [header.byte]) =
      .ok ((⟨buf, 0⟩ : Output room).filled (header.byte :: lengthBytes body.length)) ∧
    ((⟨buf, 0⟩ : Output room).filled (header.byte :: lengthBytes body.length)).emit Buffer.buf body =
      .ok ((⟨buf, 0⟩ : Output room).filled (packetBytes header body)) := by
  have length := length_packetBytes header body
  refine ⟨?_, ?_, ?_⟩
  · exact Output.emit_eq_ok (by simp only [List.length_singleton]; omega)
  · rw [MQTTPacket_encode_eq, Output.emit_eq_ok (by simp; omega), Output.filled_append]
    rfl
  · rw [Output.emit_eq_ok (by simp; omega), Output.filled_append]
    rfl

theorem received_serving (serving : Serving env stream strings) {header : MQTTHeader} {body : List UInt8}
    (reads : Reads s.client.readbuf 0 (packetBytes header body)) :
    ∃ world, receivedPacket env s = .ok ((header.type % 16 : Nat), { s with world := world }) ∧
      stream world = stream s.world := by
  have read : s.client.readbuf.read Buffer.buf 0 = .ok header.byte := read_of_reads reads
  refine ⟨if 0 < s.client.keepAliveInterval then
    env.TimerCountdown s.world .last_received s.client.keepAliveInterval else s.world, ?_, ?_⟩
  · rw [receivedPacket, read, check_ok, running_ok_bind, MQTTHeader.ofByte_byte]
  · split
    · exact serving.TimerCountdown _ _ _
    · rfl

theorem readPacket_serving (serving : Serving env stream strings) {header : MQTTHeader} {body : List UInt8}
    (bounded : body.length < 268435456) (fits : (packetBytes header body).length ≤ room)
    (ahead : stream s.world = packetBytes header body ++ rest) :
    ∃ world, readPacket env s = .ok ((header.type % 16 : Nat),
        { s with
          client := { s.client with readbuf := sent s.client.readbuf header body }
          world := world }) ∧
      stream world = rest := by
  have length := length_packetBytes header body
  rw [packetBytes, List.cons_append, List.append_assoc] at ahead
  obtain ⟨⟨rc, bytes, few, counted⟩, next, answered, same, came, ahead⟩ :=
    serving.mqttread s.world .caller header.byte [] _ ahead
  obtain rfl : rc = 1 := same
  obtain rfl : bytes = [header.byte] := came
  change env.mqttread s.world .caller 1 = _ at answered
  obtain ⟨behindLength, decoded, ahead⟩ := decodePacket_serving serving bounded ahead
  obtain ⟨first, encoded, filled⟩ := front_of_packet s.client.readbuf fits
  rw [readPacket, answered]
  simp only
  rw [first, check_ok, running_ok_bind, if_neg (by simp), decoded]
  simp only
  change MQTTPacket_encode body.length ⟨((⟨s.client.readbuf, 0⟩ : Output room).filled
    [header.byte]).block, 1⟩ = _ at encoded
  rw [encoded, check_ok, running_ok_bind, if_neg (by simp; omega)]
  have reads : Reads (sent s.client.readbuf header body) 0 (packetBytes header body) :=
    reads_sent s.client.readbuf fits
  cases body with
  | nil =>
      rw [List.length_nil, if_neg (lt_irrefl 0)]
      have whole : (header.byte :: lengthBytes 0) = packetBytes header [] := by
        rw [packetBytes, List.length_nil, List.append_nil]
      rw [whole]
      obtain ⟨world, receives, sameWorld⟩ := @received_serving World Handler size room env stream strings
        { s with
          client := { s.client with readbuf := sent s.client.readbuf header [] }
          world := behindLength } serving header [] reads
      exact ⟨world, receives, sameWorld.trans ahead⟩
  | cons byte more =>
      have nonempty : 0 < (byte :: more).length := Nat.succ_pos _
      obtain ⟨⟨rc, bytes, few, counted⟩, last, answered, same, came, ahead⟩ :=
        serving.mqttread behindLength .caller byte more rest ahead
      obtain rfl : rc = (byte :: more).length := same
      obtain rfl : bytes = byte :: more := came
      obtain ⟨world, receives, sameWorld⟩ := @received_serving World Handler size room env stream strings
        { s with
          client := { s.client with readbuf := sent s.client.readbuf header (byte :: more) }
          world := last } serving header (byte :: more) reads
      refine ⟨world, ?_, sameWorld.trans ahead⟩
      rw [if_pos nonempty, readBody]
      simp only [answered]
      rw [filled, check_ok, running_ok_bind, if_neg (by simp)]
      exact receives

/-- What a packet has come to: bytes for the server and messages for the handlers. -/
structure Answered (stream : World → List UInt8) (s s' : Session World size room Handler)
    (out : List UInt8) (seen : List (Handler × Seen)) : Prop where
  client : ∃ buf ping, s'.client = { s.client with buf := buf, ping_outstanding := ping }
  world : stream s'.world = stream s.world
  wire : wire s'.log = wire s.log ++ out
  handed : handed s'.log = handed s.log ++ seen

theorem answered_sendAck (serving : Serving env stream strings) (enough : 2 ≤ rounds) (space : 4 ≤ size)
    (packettype : msgTypes) (packetid : UInt16) :
    ∃ s', sendAck env rounds packettype packetid s = .ok (SUCCESS, s') ∧
      Answered stream s s' (packetBytes (ackHeader packettype 0) (intBytes packetid.toNat)) [] := by
  obtain ⟨world, buf, sends, same⟩ := @sendAck_serving World Handler size room env stream strings s rounds
    serving enough space packettype packetid
  exact ⟨_, sends, ⟨buf, _, rfl⟩, same, wire_written _, by rw [handed_written, List.append_nil]⟩

theorem handlePublish_serving (serving : Serving env stream strings) (enough : 2 ≤ rounds) (space : 4 ≤ size)
    {dup qos retained : Nat} {packetid : UInt16} {topicName payload : List UInt8}
    (valid : (ServerPacket.publish dup qos retained packetid topicName payload).Valid room)
    (reads : Reads s.client.readbuf 0 (packetBytes (publishHeader dup qos retained)
      (publishBody qos packetid topicName payload))) :
    ∃ s', handlePublish env rounds s = .ok (SUCCESS, false, s') ∧ Answered stream s s'
      (ServerPacket.publish dup qos retained packetid topicName payload).reply
      ((ServerPacket.publish dup qos retained packetid topicName payload).deliveries strings s.client) := by
  obtain ⟨smallDup, smallQos, smallRetained, short⟩ := valid.flags _ _ _ _ _ _ rfl
  let before : Published := { env.indeterminate s.world with payloadlen := 0 }
  let message := published before dup qos retained packetid topicName payload
  have read : MQTTDeserialize_publish before s.client.readbuf = .ok (1, message) :=
    MQTTDeserialize_publish_eq before ⟨smallDup, by omega, smallRetained⟩ short valid.bounded reads
  obtain ⟨topic, content⟩ := reads_published before reads
  obtain ⟨delivered, delivers⟩ := deliverMessage_of_holds strings topic s.client.messageHandlers
    s.client.defaultMessageHandler
  have seen : handed (s.log ++ (delivery strings topicName s.client.messageHandlers
      s.client.defaultMessageHandler).map fun fp => .delivered fp message s.client.readbuf) =
      handed s.log ++ (ServerPacket.publish dup qos retained packetid topicName payload).deliveries
        strings s.client := handed_delivered _ topic content rfl
  rw [handlePublish, read, check_ok, running_ok_bind]
  simp only
  rw [if_neg (by decide), serving.strings, delivers, check_ok, running_ok_bind]
  have given : 0 < qos → message.packetid = packetid := fun acknowledged => if_pos acknowledged
  have sameQos : message.qos = qos := rfl
  generalize message = message at given sameQos seen ⊢
  let handedOver : Session World size room Handler := { s with
    log := s.log ++ (delivery strings topicName s.client.messageHandlers
      s.client.defaultMessageHandler).map fun fp => .delivered fp message s.client.readbuf }
  have acknowledged : ∀ packettype, ∃ s', sendAck env rounds packettype packetid handedOver =
      .ok (SUCCESS, s') ∧ Answered stream s s'
        (packetBytes (ackHeader packettype 0) (intBytes packetid.toNat))
        ((ServerPacket.publish dup qos retained packetid topicName payload).deliveries strings s.client) := by
    intro packettype
    obtain ⟨s', acks, answered⟩ := @answered_sendAck World Handler size room env stream strings handedOver rounds
      serving enough space packettype packetid
    refine ⟨s', acks, answered.client, answered.world, ?_, ?_⟩
    · rw [answered.wire, wire_delivered]
    · rw [answered.handed, List.append_nil]
      exact seen
  have asked : qos = 0 ∨ qos = 1 ∨ qos = 2 := by omega
  rcases asked with rfl | rfl | rfl
  · refine ⟨handedOver, by rw [if_pos sameQos], ⟨_, _, rfl⟩, rfl, ?_, seen⟩
    exact (wire_delivered _ _ _).trans (List.append_nil _).symm
  · obtain ⟨s', acks, answered⟩ := acknowledged .PUBACK
    refine ⟨s', ?_, answered⟩
    rw [if_neg (by omega), if_pos sameQos, given Nat.one_pos, acks]
    rfl
  · obtain ⟨s', acks, answered⟩ := acknowledged .PUBREC
    refine ⟨s', ?_, answered⟩
    rw [if_neg (by omega), if_neg (by omega), if_pos sameQos, given Nat.two_pos, acks]
    rfl

theorem handleAck_serving (serving : Serving env stream strings) (enough : 2 ≤ rounds) (space : 4 ≤ size)
    (packettype : msgTypes) {header : MQTTHeader} {packetid : UInt16}
    (reads : Reads s.client.readbuf 0 (packetBytes header (intBytes packetid.toNat))) :
    ∃ s', handleAck env rounds packettype s = .ok (SUCCESS, false, s') ∧
      Answered stream s s' (packetBytes (ackHeader packettype 0) (intBytes packetid.toNat)) [] := by
  obtain ⟨s', acks, answered⟩ := @answered_sendAck World Handler size room env stream strings s rounds
    serving enough space packettype packetid
  have small : 256 * (UInt8.ofNat (packetid.toNat / 256)).toNat +
      (UInt8.ofNat (packetid.toNat % 256)).toNat = packetid.toNat := by
    have bounded := packetid.toNat_lt
    rw [UInt8.toNat_ofNat', UInt8.toNat_ofNat']
    omega
  have read := MQTTDeserialize_ack_eq { packetid := (env.indeterminate s.world).packetid }
    (show (intBytes packetid.toNat).length < 268435456 by rw [length_intBytes]; decide) reads
  simp only [intBytes, small, UInt16.ofNat_toNat] at read
  refine ⟨s', ?_, answered⟩
  rw [handleAck, read, check_ok, running_ok_bind]
  simp only
  rw [if_neg (by decide), acks]
  rfl

theorem handle_serving (serving : Serving env stream strings) (enough : 2 ≤ rounds) (space : 4 ≤ size)
    {packet : ServerPacket} (valid : packet.Valid room)
    (reads : Reads s.client.readbuf 0 (packetBytes packet.header packet.body)) :
    ∃ s', handle env rounds (packet.header.type % 16 : Nat) s = .ok (SUCCESS, false, s') ∧
      Answered stream s s' packet.reply (packet.deliveries strings s.client) := by
  have quiet : Answered stream s s [] ([] : List (Handler × Seen)) :=
    ⟨⟨_, _, rfl⟩, rfl, (List.append_nil _).symm, (List.append_nil _).symm⟩
  cases packet with
  | publish dup qos retained packetid topicName payload =>
      change ∃ s', handle env rounds (3 : Nat) s = _ ∧ _
      rw [handle, if_pos (by decide)]
      exact handlePublish_serving serving enough space valid reads
  | pubrec packetid =>
      change ∃ s', handle env rounds (5 : Nat) s = _ ∧ _
      rw [handle, if_neg (by decide), if_pos (by decide)]
      exact handleAck_serving serving enough space .PUBREL reads
  | pubrel packetid =>
      change ∃ s', handle env rounds (6 : Nat) s = _ ∧ _
      rw [handle, if_neg (by decide), if_neg (by decide), if_pos (by decide)]
      exact handleAck_serving serving enough space .PUBCOMP reads
  | pingresp =>
      change ∃ s', handle env rounds (13 : Nat) s = _ ∧ _
      rw [handle, if_neg (by decide), if_neg (by decide), if_neg (by decide), if_pos (by decide)]
      exact ⟨_, rfl, ⟨_, _, rfl⟩, rfl, (List.append_nil _).symm, (List.append_nil _).symm⟩
  | answer packettype body =>
      have known := valid.answers packettype body rfl
      refine ⟨s, ?_, quiet⟩
      simp only [List.mem_cons, List.not_mem_nil, or_false] at known
      rcases known with rfl | rfl | rfl | rfl | rfl <;> rfl

theorem cycle_serving (serving : Serving env stream strings) (enough : 2 ≤ rounds) (space : 4 ≤ size)
    {packet : ServerPacket} (valid : packet.Valid room)
    (ahead : stream s.world = packetBytes packet.header packet.body ++ rest) :
    ∃ s', cycle env rounds s = .ok ((packet.header.type % 16 : Nat), s') ∧
      stream s'.world = rest ∧
      (∃ buf ping, s'.client = { s.client with
        buf := buf, readbuf := sent s.client.readbuf packet.header packet.body
        ping_outstanding := ping }) ∧
      wire s'.log = wire s.log ++ packet.reply ∧
      handed s'.log = handed s.log ++ packet.deliveries strings s.client := by
  obtain ⟨world, reads, left⟩ := readPacket_serving serving valid.bounded valid.fits ahead
  obtain ⟨handled, handles, answered⟩ := @handle_serving World Handler size room env stream strings
    { s with
      client := { s.client with readbuf := sent s.client.readbuf packet.header packet.body }
      world := world } rounds serving enough space packet valid (reads_sent s.client.readbuf valid.fits)
  obtain ⟨last, alive, same⟩ := @keepalive_serving World Handler size room env stream strings handled rounds serving
  obtain ⟨⟨buf, ping, client⟩, sameWorld, wireEq, handedEq⟩ := answered
  refine ⟨{ handled with world := last }, ?_, ?_, ⟨buf, ping, client⟩, wireEq, handedEq⟩
  · rw [cycle, reads, running_ok_bind]
    simp only [handles, running_ok_bind, alive]
    rfl
  · exact same.trans (sameWorld.trans left)

end Serving

/-- Packet by packet, the client returns what has come, answers it and hands it over; the
messages of a server come to the handlers once each and in its order. -/
theorem MQTTRun_serving {env : Environment World} {stream : World → List UInt8}
    {strings : Address → Text} (serving : Serving env stream strings) {rounds : Nat} (enough : 2 ≤ rounds) (space : 4 ≤ size)
    {packets : List ServerPacket} (valid : ∀ packet ∈ packets, packet.Valid room)
    {s : Session World size room Handler} {rest : List UInt8} (running : s.client.running = true)
    (ahead : stream s.world =
      (packets.flatMap fun packet => packetBytes packet.header packet.body) ++ rest) :
    ∃ s', MQTTRun env rounds packets.length s =
        .ok (packets.map fun packet => ((packet.header.type % 16 : Nat) : Int), s') ∧
      stream s'.world = rest ∧
      wire s'.log = wire s.log ++ packets.flatMap ServerPacket.reply ∧
      handed s'.log = handed s.log ++ packets.flatMap (ServerPacket.deliveries strings s.client) := by
  induction packets generalizing s with
  | nil => exact ⟨s, rfl, ahead, (List.append_nil _).symm, (List.append_nil _).symm⟩
  | cons packet packets inductionHypothesis =>
      obtain ⟨first, others⟩ := List.forall_mem_cons.mp valid
      rw [List.flatMap_cons, List.append_assoc] at ahead
      obtain ⟨next, cycles, behind, ⟨buf, ping, client⟩, wireEq, handedEq⟩ :=
        @cycle_serving World Handler size room env stream strings
          { s with world := env.TimerCountdownMS s.world .caller 500 } rounds _ serving enough space
          packet first ((serving.TimerCountdownMS _ _ _).trans ahead)
      obtain ⟨last, runs, left, wireLast, handedLast⟩ := inductionHypothesis others
        (by rw [client]; exact running) behind
      have same : ServerPacket.deliveries strings next.client =
          ServerPacket.deliveries strings s.client :=
        deliveries_of_handlers _ (by rw [client]) (by rw [client])
      refine ⟨last, ?_, left, ?_, ?_⟩
      · rw [List.length_cons, MQTTRun, if_pos running, cycles, running_ok_bind]
        simp only [runs]
        rfl
      · rw [wireLast, wireEq, List.flatMap_cons, List.append_assoc]
      · rw [handedLast, handedEq, same, List.flatMap_cons, List.append_assoc]

/-! ## Requests and their answers -/

section Requests

variable {env : Environment World} {stream : World → List UInt8} {strings : Address → Text}
  {s : Session World size room Handler}
  {rounds cycles : Nat} {rest : List UInt8}

/-- What is left of a client behind an answer: the answer stands in the read buffer. -/
structure Replied (c c' : MQTTClient size room Handler) (packettype : msgTypes)
    (content : List UInt8) : Prop where
  client : ∃ buf ping, c' = { c with
    buf := buf, readbuf := c'.readbuf, ping_outstanding := ping }
  reads : Reads c'.readbuf 0 (packetBytes { type := packettype.code } content)

theorem waitfor_serving (serving : Serving env stream strings) (enough : 2 ≤ rounds) (space : 4 ≤ size)
    {packets : List ServerPacket} (valid : ∀ packet ∈ packets, packet.Valid room)
    {packettype : msgTypes} (others : ∀ packet ∈ packets, packet.header.type % 16 ≠ packettype.code)
    {content : List UInt8} (validAnswer : (ServerPacket.answer packettype content).Valid room)
    (turns : packets.length < cycles) (before : Int) (ahead : stream s.world =
      (packets.flatMap fun packet => packetBytes packet.header packet.body) ++
        (packetBytes { type := packettype.code } content ++ rest)) :
    ∃ s', waitfor env rounds packettype.code cycles before s = .ok ((packettype.code : Int), s') ∧
      stream s'.world = rest ∧ Replied s.client s'.client packettype content ∧
      wire s'.log = wire s.log ++ packets.flatMap ServerPacket.reply ∧
      handed s'.log = handed s.log ++
        packets.flatMap (ServerPacket.deliveries strings s.client) := by
  obtain ⟨cycles, rfl⟩ := Nat.exists_eq_add_one_of_ne_zero (Nat.ne_of_gt (Nat.zero_lt_of_lt turns))
  induction packets generalizing s cycles before with
  | nil =>
      obtain ⟨asked, running, sameAsked⟩ := serving.TimerIsExpired s.world .caller
      obtain ⟨s', cycled, behind, ⟨buf, ping, client⟩, wireEq, handedEq⟩ :=
        @cycle_serving World Handler size room env stream strings { s with world := asked } rounds rest serving
          enough space (.answer packettype content) validAnswer (sameAsked.trans ahead)
      have code : packettype.code % 16 = packettype.code := by
        cases packettype <;> rfl
      change cycle env rounds _ = .ok ((packettype.code % 16 : Nat), s') at cycled
      rw [code] at cycled
      refine ⟨s', ?_, behind, ⟨⟨buf, ping, by rw [client]⟩, ?_⟩, wireEq, handedEq⟩
      · rw [waitfor, running]
        simp only [cycled, running_ok_bind, ne_eq, not_true_eq_false, false_and, if_false]
      · rw [client]
        exact reads_sent _ validAnswer.fits
  | cons packet packets inductionHypothesis =>
      obtain ⟨first, later⟩ := List.forall_mem_cons.mp valid
      obtain ⟨other, otherLater⟩ := List.forall_mem_cons.mp others
      rw [List.flatMap_cons, List.append_assoc] at ahead
      obtain ⟨asked, running, sameAsked⟩ := serving.TimerIsExpired s.world .caller
      obtain ⟨next, cycled, behind, ⟨buf, ping, client⟩, wireEq, handedEq⟩ :=
        @cycle_serving World Handler size room env stream strings { s with world := asked } rounds _ serving
          enough space packet first (sameAsked.trans ahead)
      rw [List.length_cons] at turns
      obtain ⟨cycles, rfl⟩ :=
        Nat.exists_eq_add_one_of_ne_zero (show cycles ≠ 0 by omega)
      obtain ⟨s', waited, left, replied, wireLast, handedLast⟩ := inductionHypothesis later otherLater
        ((packet.header.type % 16 : Nat) : Int) behind cycles (by omega)
      obtain ⟨⟨buf', ping', clientLast⟩, reads⟩ := replied
      have same : ServerPacket.deliveries strings next.client =
          ServerPacket.deliveries strings s.client :=
        deliveries_of_handlers _ (by rw [client]) (by rw [client])
      refine ⟨s', ?_, left, ⟨⟨buf', ping', ?_⟩, reads⟩, ?_, ?_⟩
      · have goesOn : ((packet.header.type % 16 : Nat) : Int) ≠ packettype.code ∧
            (0 : Int) ≤ (packet.header.type % 16 : Nat) := ⟨by exact_mod_cast other, by omega⟩
        rw [waitfor, running]
        simp only [cycled, running_ok_bind, if_pos goesOn]
        exact waited
      · rw [clientLast, client]
      · rw [wireLast, wireEq, List.flatMap_cons, List.append_assoc]
      · rw [handedLast, handedEq, same, List.flatMap_cons, List.append_assoc]

/-- A request is answered by the first packet of the right type, whatever is in it; the
packets in front of it are served. -/
theorem request_serving (serving : Serving env stream strings) (enough : 2 ≤ rounds) (space : 4 ≤ size)
    {packets : List ServerPacket} (valid : ∀ packet ∈ packets, packet.Valid room)
    {packettype : msgTypes} (others : ∀ packet ∈ packets, packet.header.type % 16 ≠ packettype.code)
    {content : List UInt8} (validAnswer : (ServerPacket.answer packettype content).Valid room)
    (turns : packets.length < cycles) {packet : Checked Buffer (Int × Block size)}
    {header : MQTTHeader} {body : List UInt8} (fits : (packetBytes header body).length ≤ size)
    (written : packet = .ok ((packetBytes header body).length, sent s.client.buf header body))
    (ahead : stream s.world =
      (packets.flatMap fun packet => packetBytes packet.header packet.body) ++
        (packetBytes { type := packettype.code } content ++ rest)) :
    ∃ s', request env rounds cycles packet (some packettype) s = .ok (SUCCESS, s') ∧
      stream s'.world = rest ∧ Replied s.client s'.client packettype content ∧
      wire s'.log = wire s.log ++ (packetBytes header body ++ packets.flatMap ServerPacket.reply) ∧
      handed s'.log = handed s.log ++
        packets.flatMap (ServerPacket.deliveries strings s.client) := by
  have positive : 0 < (packetBytes header body).length := by
    rw [length_packetBytes]
    omega
  obtain ⟨sentWorld, sends, sameSent⟩ := @sendPacket_serving World Handler size room env stream strings
    { s with client := { s.client with buf := sent s.client.buf header body } } rounds serving enough
    .caller (packetBytes header body) positive (reads_sent s.client.buf fits)
  obtain ⟨s', waited, behind, ⟨⟨buf, ping, client⟩, reads⟩, wireEq, handedEq⟩ :=
    @waitfor_serving World Handler size room env stream strings
      { client := { s.client with buf := sent s.client.buf header body }, world := sentWorld
        log := s.log ++ [.written (packetBytes header body)] } rounds cycles rest serving enough space
      packets valid packettype others content validAnswer turns FAILURE (sameSent.trans ahead)
  refine ⟨s', ?_, behind, ⟨⟨buf, ping, client⟩, reads⟩, ?_, ?_⟩
  · rw [request, written, check_ok, running_ok_bind]
    simp only
    rw [if_neg (by omega), Int.toNat_natCast, sends, running_ok_bind]
    simp only [ne_eq, not_true_eq_false, if_false]
    rw [waited, running_ok_bind]
    simp only [if_true]
  · rw [wireEq, wire_written, List.append_assoc]
  · rw [handed_written] at handedEq
    exact handed_of_handlers rfl rfl handedEq

/-- The code in an answer to a connect packet, or the 0 that the client begins with. -/
def connackCode : List UInt8 → UInt8
  | _ :: code :: _ => code
  | _ => 0

theorem acceptConnack_eq {content : List UInt8} (bounded : content.length < 268435456)
    (reads : Reads s.client.readbuf 0 (packetBytes { type := msgTypes.CONNACK.code } content)) :
    acceptConnack s = if connackCode content ≠ 0 then .ok ((connackCode content).toNat, s)
      else .ok (SUCCESS, { s with
        client := { s.client with isconnected := true, ping_outstanding := false } }) := by
  have read := MQTTDeserialize_connack_eq {} bounded reads
  have isConnack : ({ type := msgTypes.CONNACK.code } : MQTTHeader).type % 16 =
      msgTypes.CONNACK.code := rfl
  rw [if_pos isConnack] at read
  rw [acceptConnack, read, check_ok, running_ok_bind]
  match content with
  | [] => rfl
  | [_] => rfl
  | _ :: code :: _ => rfl

/-- The answer to a connect packet is taken for an acceptance if its code is 0 and also
if there is none; only then the client is connected. -/
theorem MQTTConnect_serving (serving : Serving env stream strings) (enough : 2 ≤ rounds) (space : 4 ≤ size)
    {options : MQTTPacket_connectData MQTTString} (wellFormed : WellFormed options)
    (bounded : MQTTSerialize_connectLength options < 268435456)
    (fits : MQTTPacket_len (MQTTSerialize_connectLength options) ≤ size)
    {packets : List ServerPacket} (valid : ∀ packet ∈ packets, packet.Valid room)
    (others : ∀ packet ∈ packets, packet.header.type % 16 ≠ msgTypes.CONNACK.code)
    {content : List UInt8} (validAnswer : (ServerPacket.answer .CONNACK content).Valid room)
    (turns : packets.length < cycles) (closed : s.client.isconnected = false)
    (ahead : stream s.world =
      (packets.flatMap fun packet => packetBytes packet.header packet.body) ++
        (packetBytes { type := msgTypes.CONNACK.code } content ++ rest)) :
    ∃ s', MQTTConnect env rounds cycles options s = .ok ((connackCode content).toNat, s') ∧
      (s'.client.isconnected = true ↔ connackCode content = 0) ∧ stream s'.world = rest ∧
      wire s'.log = wire s.log ++ (packetBytes connectHeader (connectBody options) ++
        packets.flatMap ServerPacket.reply) ∧
      handed s'.log = handed s.log ++
        packets.flatMap (ServerPacket.deliveries strings s.client) := by
  have length := length_connectBody wellFormed
  have sameStart : stream (prepareConnect env options s).world = stream s.world :=
    (serving.TimerCountdown _ _ _).trans (serving.TimerCountdownMS _ _ _)
  obtain ⟨next, requested, behind, ⟨⟨buf, ping, client⟩, reads⟩, wireEq, handedEq⟩ :=
    request_serving serving enough space valid others validAnswer turns
      (length_packetBytes_le (by rwa [length]) (by rwa [length]))
      (MQTTSerialize_connect_eq (prepareConnect env options s).client.buf wellFormed bounded fits)
      (sameStart.trans ahead)
  have notYet : next.client.isconnected = false := by
    rw [client]
    exact closed
  have seen : handed next.log = handed s.log ++
      packets.flatMap (ServerPacket.deliveries strings s.client) :=
    handed_of_handlers rfl rfl handedEq
  have isOpen : ¬s.client.isconnected = true := by simp [closed]
  have connects : MQTTConnect env rounds cycles options s = acceptConnack next := by
    rw [MQTTConnect, if_neg isOpen]
    exact congrArg (· >>= _) requested
  have bound : content.length < 268435456 := validAnswer.bounded
  rw [connects, acceptConnack_eq bound reads]
  by_cases accepted : connackCode content = 0
  · rw [if_neg (not_not.mpr accepted), accepted]
    exact ⟨_, rfl, by simp, behind, wireEq, seen⟩
  · rw [if_pos accepted]
    exact ⟨next, rfl, by simp [notYet, accepted], behind, wireEq, seen⟩

/-- A message counts as acknowledged by the first packet of the right type, whatever
identifier is in it, or none. -/
theorem MQTTPublish_serving (serving : Serving env stream strings) (enough : 2 ≤ rounds) (space : 4 ≤ size)
    {topicName : Text} {message : MQTTMessage} {packettype : msgTypes}
    (acknowledged : answerOf message.qos = some packettype)
    (bounded : MQTTSerialize_publishLength message.qos { cstring := some topicName }
      message.payload.length < 268435456)
    (fits : MQTTPacket_len (MQTTSerialize_publishLength message.qos { cstring := some topicName }
      message.payload.length) ≤ size)
    {packets : List ServerPacket} (valid : ∀ packet ∈ packets, packet.Valid room)
    (others : ∀ packet ∈ packets, packet.header.type % 16 ≠ packettype.code)
    {content : List UInt8} (validAnswer : (ServerPacket.answer packettype content).Valid room)
    (turns : packets.length < cycles) (connected : s.client.isconnected = true)
    (ahead : stream s.world =
      (packets.flatMap fun packet => packetBytes packet.header packet.body) ++
        (packetBytes { type := packettype.code } content ++ rest)) :
    ∃ s', MQTTPublish env rounds cycles topicName message s = .ok (SUCCESS, s') ∧
      s'.client.isconnected = true ∧ stream s'.world = rest ∧
      wire s'.log = wire s.log ++ (packetBytes (publishHeader 0 message.qos message.retained)
        (publishBody message.qos (UInt16.ofNat (getNextPacketId s.client).1) topicName.val
          message.payload) ++ packets.flatMap ServerPacket.reply) ∧
      handed s'.log = handed s.log ++
        packets.flatMap (ServerPacket.deliveries strings s.client) := by
  let id := UInt16.ofNat (getNextPacketId s.client).1
  let start : Session World size room Handler :=
    { startTimer env s with client := (getNextPacketId s.client).2 }
  have identified : takeId message (startTimer env s) = (id, start) := by
    rw [takeId, if_pos]
    · rfl
    · by_contra atMostOnce
      push Not at atMostOnce
      rw [answerOf, if_neg atMostOnce.1, if_neg atMostOnce.2] at acknowledged
      cases acknowledged
  have length := length_publishBody message.qos id message.payload (single_cstring topicName)
  obtain ⟨next, requested, behind, ⟨⟨buf, ping, client⟩, reads⟩, wireEq, handedEq⟩ :=
    request_serving serving enough space valid others validAnswer turns
      (length_packetBytes_le (by rwa [length]) (by rwa [length]))
      (@MQTTSerialize_publish_eq size message.qos id { cstring := some topicName } message.payload
        start.client.buf 0 message.retained (single_cstring topicName) bounded fits)
      (show stream start.world = _ from (serving.TimerCountdownMS _ _ _).trans ahead)
  have read := MQTTDeserialize_ack_eq { packetid := (env.indeterminate next.world).packetid }
    validAnswer.bounded reads
  have open_ : ¬s.client.isconnected = false := by simp [connected]
  refine ⟨next, ?_, ?_, behind, wireEq, handed_of_handlers rfl rfl handedEq⟩
  · rw [MQTTPublish, if_neg open_, identified]
    simp only
    rw [acknowledged, requested, running_ok_bind]
    simp only [ne_eq, not_true_eq_false, reduceCtorEq, or_self, if_false]
    rw [read, check_ok, running_ok_bind]
    rfl
  · rw [client]
    exact connected

/-- With one code, the handler is set unless the code refuses, and the call succeeds
either way; with none, the handler is set as if the server had agreed; the second code of
several is written behind the variable for the first. -/
theorem acceptSuback_eq {packetid : UInt16} {grantedQoSs : List UInt8} (topicFilter : Address)
    (messageHandler : Option Handler) (bounded : (subackBody packetid grantedQoSs).length < 268435456)
    (reads : Reads s.client.readbuf 0
      (packetBytes (answerHeader .SUBACK) (subackBody packetid grantedQoSs))) :
    acceptSuback env topicFilter messageHandler s =
      if 1 < grantedQoSs.length then .error (.fault ⟨.grantedQoSs, 1, .write⟩)
      else if grantedQoSs = [0x80] then .ok (SUCCESS, s)
      else
        let (rc, slots) :=
          MQTTSetMessageHandler (env.strings s.world) s.client.messageHandlers topicFilter messageHandler
        .ok (closeOnFailure rc { s with client := { s.client with messageHandlers := slots } }) := by
  rw [acceptSuback, MQTTDeserialize_suback_eq {} bounded reads]
  match grantedQoSs with
  | [] => rfl
  | [code] =>
      by_cases refused : code = 0x80
      · subst refused
        rfl
      · rw [if_pos (by simp), if_neg (by simp), if_neg (by simp [refused]), check_ok, running_ok_bind]
        simp [refused]
  | _ :: _ :: more =>
      rw [if_neg (by simp), if_pos (by simp)]
      rfl

end Requests

/-! ## A stream and a clock that stands still -/

def stillNetwork : Environment (List UInt8) where
  strings _ := letters
  mqttread stream _ count := takeBytes stream count
  mqttwrite stream _ count := (count, stream)
  taken stream _ := stream
  TimerIsExpired stream _ := (false, stream)
  TimerCountdown stream _ _ := stream
  TimerCountdownMS stream _ _ := stream
  indeterminate _ := {}

theorem serving_stillNetwork : Serving stillNetwork id letters where
  mqttread := by
    rintro stream timer byte more rest rfl
    have enough : (byte :: more).length ≤ (byte :: more ++ rest).length := by
      rw [List.length_append]
      exact Nat.le_add_right _ _
    refine ⟨_, _, dif_pos enough, rfl, ?_, ?_⟩
    · exact List.take_left
    · exact List.drop_left
  mqttwrite stream _ count := ⟨stream, rfl, rfl⟩
  taken _ _ := rfl
  TimerIsExpired stream _ := ⟨stream, rfl, rfl⟩
  TimerCountdown _ _ _ := rfl
  TimerCountdownMS _ _ _ := rfl
  strings _ := rfl

/-- A message that is acknowledged, the release of another one and a PINGRESP. -/
theorem MQTTRun_serving_three_packets :
    let packets : List ServerPacket := [.publish 0 1 0 9 [97] [1, 2], .pubrel 7, .pingresp]
    let start : Session (List UInt8) 8 16 Nat :=
      { client := { MQTTClientInit 5 (fun _ => 0) (fun _ => 0) 60 fun _ => none with
          defaultMessageHandler := some 3 }
        world := packets.flatMap fun packet => packetBytes packet.header packet.body }
    ∃ s', MQTTRun stillNetwork 2 3 start = .ok ([3, 6, 13], s') ∧
      wire s'.log = packets.flatMap ServerPacket.reply ∧
      handed s'.log = [(3, ⟨0, 1, 0, [97], [1, 2]⟩)] := by
  intro packets start
  have valid : ∀ packet ∈ packets, packet.Valid 16 := by
    intro packet membership
    simp only [packets, List.mem_cons, List.not_mem_nil, or_false] at membership
    rcases membership with rfl | rfl | rfl
    · exact ⟨by decide +kernel, by decide, by rintro _ _ _ _ _ _ ⟨⟩; decide, nofun⟩
    · exact ⟨by decide +kernel, by decide, nofun, nofun⟩
    · exact ⟨by decide +kernel, by decide, nofun, nofun⟩
  obtain ⟨s', runs, -, wireEq, handedEq⟩ := MQTTRun_serving serving_stillNetwork (le_refl 2)
    (show 4 ≤ 8 by decide) valid (show start.client.running = true from rfl)
    (show id start.world = _ ++ [] from (List.append_nil _).symm)
  exact ⟨s', runs, wireEq, handedEq.trans (by decide +kernel)⟩

/-- A client of the network, with buffers of 32 bytes. -/
def stillSession (isconnected : Bool) (bytes : List UInt8) : Session (List UInt8) 32 32 Nat where
  client := { MQTTClientInit 5 (fun _ => 0) (fun _ => 0) 0 fun _ => none with
    isconnected := isconnected }
  world := bytes

/-- A client that still has a filter from its last connection gets a message for it in
front of an answer without a code. -/
theorem MQTTConnect_serving_message_first :
    let message := ServerPacket.publish 0 1 0 9 [97] [1, 2]
    let coming := packetBytes message.header message.body ++
      packetBytes { type := msgTypes.CONNACK.code } []
    let before := stillSession false coming
    let start := { before with client := { before.client with
      messageHandlers := (MQTTSetMessageHandler letters before.client.messageHandlers 0 (some 7)).2 } }
    ∃ s', MQTTConnect stillNetwork 2 2 MQTTPacket_connectData_initializer start = .ok (0, s') ∧
      s'.client.isconnected = true ∧ handed s'.log = [(7, ⟨0, 1, 0, [97], [1, 2]⟩)] := by
  intro message coming before start
  have wellFormed : WellFormed MQTTPacket_connectData_initializer :=
    ⟨by decide, by decide, by decide, by decide, by decide, by decide⟩
  have valid : ∀ packet ∈ [message], packet.Valid 32 := by
    intro packet membership
    rw [List.mem_singleton.mp membership]
    refine ⟨by decide +kernel, by decide, fun _ _ _ _ _ _ same => ?_, nofun⟩
    injection same with dup qos retained _ topicName
    subst dup qos retained topicName
    decide
  have validAnswer : (ServerPacket.answer .CONNACK []).Valid 32 :=
    ⟨by decide +kernel, by decide, nofun, by rintro _ _ ⟨⟩; decide⟩
  have ahead : coming = ([message].flatMap fun packet => packetBytes packet.header packet.body) ++
      (packetBytes { type := msgTypes.CONNACK.code } [] ++ []) := by
    rw [List.append_nil, List.flatMap_singleton]
  obtain ⟨s', connects, connected, -, -, handedEq⟩ := MQTTConnect_serving (s := start)
    serving_stillNetwork (le_refl 2) (show 4 ≤ 32 by decide) wellFormed (by decide) (by decide) valid
    (by decide) validAnswer Nat.one_lt_two rfl ahead
  exact ⟨s', connects, connected.mpr rfl, handedEq.trans (by decide +kernel)⟩

/-- A message is taken for acknowledged by the acknowledgement of another one. -/
theorem MQTTPublish_serving_another :
    let coming := packetBytes { type := msgTypes.PINGRESP.code } [] ++
      packetBytes { type := msgTypes.PUBACK.code } (intBytes 9)
    ∃ s', MQTTPublish stillNetwork 2 2 ⟨[97], by decide⟩ ⟨1, 0, 0, [1]⟩ (stillSession true coming) =
        .ok (SUCCESS, s') ∧
      wire s'.log = packetBytes (publishHeader 0 1 0) (publishBody 1 2 [97] [1]) := by
  intro coming
  have valid : ∀ packet ∈ [ServerPacket.pingresp], packet.Valid 32 := by
    intro packet membership
    obtain rfl := List.mem_singleton.mp membership
    exact ⟨by decide +kernel, by decide, nofun, nofun⟩
  have validAnswer : (ServerPacket.answer .PUBACK (intBytes 9)).Valid 32 :=
    ⟨by decide +kernel, by decide, nofun, by rintro _ _ ⟨⟩; decide⟩
  have ahead : coming = ([ServerPacket.pingresp].flatMap fun packet =>
      packetBytes packet.header packet.body) ++
        (packetBytes { type := msgTypes.PUBACK.code } (intBytes 9) ++ []) := by
    rw [List.append_nil, List.flatMap_singleton]
    rfl
  obtain ⟨s', publishes, -, -, wireEq⟩ := @MQTTPublish_serving (List UInt8) Nat 32 32 stillNetwork id letters
    (stillSession true coming) 2 2 [] serving_stillNetwork (le_refl 2) (by decide) ⟨[97], by decide⟩
    ⟨1, 0, 0, [1]⟩ .PUBACK rfl (by decide) (by decide) [.pingresp] valid (by decide) (intBytes 9)
    validAnswer Nat.one_lt_two rfl ahead
  exact ⟨s', publishes, wireEq.1.trans ((List.nil_append _).trans (List.append_nil _))⟩

end WifiIot.Paho
