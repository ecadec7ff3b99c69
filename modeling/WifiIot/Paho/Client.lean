import WifiIot.Paho.Connect
import WifiIot.Paho.Handlers
import WifiIot.Paho.Publish
import WifiIot.Paho.Subscribe

/-!
# The client

The network, the clock and what lies on the stack are given as functions on a world
that the model leaves open.  The client writes a log of what it hands to the network
and to the handlers of messages.  The strings of the application belong to the world:
the client keeps their addresses, and reads what they are at the time.

Source: `paho_mqtt/MQTTClient-C/src/MQTTClient.h`, `MQTTClient.c`.
-/

namespace WifiIot.Paho

open Memory Wire

/-- Why a function does not come to an end: it leaves an array, or its rounds are used
up. -/
inductive Stop where
  | fault (fault : Fault Buffer)
  | running
  deriving DecidableEq

abbrev Running := Except Stop

def check {Value : Type} : Checked Buffer Value → Running Value
  | .ok value => .ok value
  | .error fault => .error (.fault fault)

/-- What a call of `mqttread` returns, and the bytes that it has put down. -/
structure Incoming (count : Nat) where
  rc : Int
  bytes : List UInt8
  few : bytes.length ≤ count
  counted : 0 < rc → (bytes.length : Int) = rc

/-- The timers of the client, the one of the call that is going on and that of a ping. -/
inductive Timer where
  | caller
  | ping
  | last_sent
  | last_received

/-- `c->ipstack`, the timers, the application's `strings` and `indeterminate` for the variables
that nobody sets. -/
structure Environment (World : Type) where
  strings : World → Address → Text
  mqttread : World → Timer → (count : Nat) → Incoming count × World
  mqttwrite : World → Timer → Nat → Int × World
  taken : World → List UInt8 → World
  TimerIsExpired : World → Timer → Bool × World
  TimerCountdown : World → Timer → Nat → World
  TimerCountdownMS : World → Timer → Nat → World
  indeterminate : World → Published

structure MQTTClient (size room : Nat) (Handler : Type) where
  next_packetid : Nat
  command_timeout_ms : Nat
  buf : Block size
  readbuf : Block room
  keepAliveInterval : Nat
  ping_outstanding : Bool
  isconnected : Bool
  cleansession : Nat
  messageHandlers : List (MessageHandlers Handler)
  defaultMessageHandler : Option Handler
  running : Bool

inductive Event (room : Nat) (Handler : Type) where
  | written (bytes : List UInt8)
  | delivered (fp : Handler) (message : Published) (readbuf : Block room)

structure Session (World : Type) (size room : Nat) (Handler : Type) where
  client : MQTTClient size room Handler
  world : World
  log : List (Event room Handler) := []

variable {World Handler : Type} {size room : Nat}

/-! ## Packets out and in -/

def MAX_PACKET_ID : Nat := 65535

def getNextPacketId (c : MQTTClient size room Handler) : Nat × MQTTClient size room Handler :=
  let next := if c.next_packetid = MAX_PACKET_ID then 1 else c.next_packetid + 1
  (next, { c with next_packetid := next })

/-- The loop of `sendPacket`: every round offers `length` bytes, however many have gone. -/
def sendRounds (env : Environment World) (timer : Timer) (length : Nat) :
    Nat → Nat → Session World size room Handler → Running (Nat × Session World size room Handler)
  | 0, _, _ => .error .running
  | rounds + 1, sent, s =>
      if sent < length then
        match env.TimerIsExpired s.world timer with
        | (true, world) => .ok (sent, { s with world := world })
        | (false, world) =>
            match env.mqttwrite world timer length with
            | (rc, world) =>
                if rc < 0 then .ok (sent, { s with world := world })
                else do
                  let bytes ← check (readBytes (fun k => s.client.buf.read .buf (sent + k)) rc.toNat)
                  sendRounds env timer length rounds (sent + rc.toNat)
                    { s with world := env.taken world bytes, log := s.log ++ [.written bytes] }
      else .ok (sent, s)

def sendPacket (env : Environment World) (rounds : Nat) (timer : Timer) (length : Nat)
    (s : Session World size room Handler) : Running (Int × Session World size room Handler) := do
  let (sent, s) ← sendRounds env timer length rounds 0 s
  if sent = length then
    .ok (SUCCESS, { s with
      world := env.TimerCountdown s.world .last_sent s.client.keepAliveInterval })
  else .ok (FAILURE, s)

/-- One byte, if `mqttread` returns 1. -/
def readByte (env : Environment World) (world : World) : Option UInt8 × World :=
  match env.mqttread world .caller 1 with
  | (⟨1, [i], _, _⟩, world) => (some i, world)
  | (_, world) => (none, world)

/-- The loop of `decodePacket`; what it returns is not used. -/
def decodeDigits (env : Environment World) : Nat → Nat → Nat → World → Nat × World
  | 0, value, _, world => (value, world)
  | rounds + 1, value, multiplier, world =>
      match readByte env world with
      | (some i, world) =>
          let value := value + (i &&& 127).toNat * multiplier
          if i &&& 128 ≠ 0 then decodeDigits env rounds value (multiplier * 128) world
          else (value, world)
      | (none, world) => (value, world)

def decodePacket (env : Environment World) (world : World) : Nat × World :=
  decodeDigits env MAX_NO_OF_REMAINING_LENGTH_BYTES 0 1 world

/-- The end of `readPacket`: the type of the packet, and the time of it. -/
def receivedPacket (env : Environment World) (s : Session World size room Handler) :
    Running (Int × Session World size room Handler) := do
  let byte ← check (s.client.readbuf.read .buf 0)
  let world := if 0 < s.client.keepAliveInterval then
    env.TimerCountdown s.world .last_received s.client.keepAliveInterval else s.world
  .ok ((MQTTHeader.ofByte byte).type, { s with world := world })

/-- The rest of a packet; a part of it counts as nothing. -/
def readBody (env : Environment World) (rem_len : Nat) (output : Output room)
    (s : Session World size room Handler) : Running (Int × Session World size room Handler) := do
  let (rest, world) := env.mqttread s.world .caller rem_len
  let output ← check (output.emit .buf rest.bytes)
  let s := { s with client := { s.client with readbuf := output.block }, world := world }
  if rest.rc ≠ rem_len then .ok (0, s) else receivedPacket env s

def readPacket (env : Environment World) (s : Session World size room Handler) :
    Running (Int × Session World size room Handler) := do
  let (first, world) := env.mqttread s.world .caller 1
  let output ← check ((⟨s.client.readbuf, 0⟩ : Output room).emit .buf first.bytes)
  if first.rc ≠ 1 then
    .ok (first.rc, { s with client := { s.client with readbuf := output.block }, world := world })
  else
    let (rem_len, world) := decodePacket env world
    let output ← check (MQTTPacket_encode rem_len (⟨output.block, 1⟩ : Output room))
    let s := { s with client := { s.client with readbuf := output.block }, world := world }
    if rem_len > room - output.ptr then .ok (BUFFER_OVERFLOW, s)
    else if 0 < rem_len then readBody env rem_len output s
    else receivedPacket env s

/-! ## One packet at a time -/

def MQTTCloseSession (c : MQTTClient size room Handler) : MQTTClient size room Handler :=
  { c with
    ping_outstanding := false
    isconnected := false
    messageHandlers :=
      if c.cleansession ≠ 0 then MQTTCleanSession c.messageHandlers else c.messageHandlers }

/-- The condition of `keepalive`. -/
def isExpired (env : Environment World) (world : World) : Bool × World :=
  match env.TimerIsExpired world .last_sent with
  | (true, world) => (true, world)
  | (false, world) => env.TimerIsExpired world .last_received

def keepalive (env : Environment World) (rounds : Nat) (s : Session World size room Handler) :
    Running (Int × Session World size room Handler) :=
  if s.client.keepAliveInterval = 0 then .ok (SUCCESS, s)
  else
    match isExpired env s.world with
    | (false, world) => .ok (SUCCESS, { s with world := world })
    | (true, world) =>
        if s.client.ping_outstanding then .ok (FAILURE, { s with world := world })
        else do
          let s := { s with world := env.TimerCountdownMS world .ping 1000 }
          let (len, buf) ← check (MQTTSerialize_pingreq s.client.buf)
          let s := { s with client := { s.client with buf := buf } }
          if 0 < len then
            let (rc, s) ← sendPacket env rounds .ping len.toNat s
            .ok (rc, if rc = SUCCESS then
              { s with client := { s.client with ping_outstanding := true } } else s)
          else .ok (SUCCESS, s)

/-- `MQTTSerialize_ack` and `sendPacket`. -/
def sendAck (env : Environment World) (rounds : Nat) (packettype : msgTypes) (packetid : UInt16)
    (s : Session World size room Handler) : Running (Int × Session World size room Handler) := do
  let (len, buf) ← check (MQTTSerialize_ack s.client.buf packettype 0 packetid)
  let s := { s with client := { s.client with buf := buf } }
  if len ≤ 0 then .ok (FAILURE, s) else sendPacket env rounds .caller len.toNat s

/-- `case PUBLISH`: the result, and whether it ends the cycle. -/
def handlePublish (env : Environment World) (rounds : Nat) (s : Session World size room Handler) :
    Running (Int × Bool × Session World size room Handler) := do
  let before := { env.indeterminate s.world with payloadlen := 0 }
  let (rc, message) ← check (MQTTDeserialize_publish before s.client.readbuf)
  if rc ≠ 1 then .ok (SUCCESS, true, s)
  else
    let (_, called) ← check (deliverMessage (env.strings s.world) s.client.readbuf message.topicName
      s.client.messageHandlers s.client.defaultMessageHandler)
    let s := { s with log := s.log ++ called.map fun fp => .delivered fp message s.client.readbuf }
    if message.qos = 0 then .ok (SUCCESS, false, s)
    else
      let (rc, s) ← (if message.qos = 1 then sendAck env rounds .PUBACK message.packetid s
        else if message.qos = 2 then sendAck env rounds .PUBREC message.packetid s
        else .ok (FAILURE, s))
      .ok (rc, decide (rc = FAILURE), s)

/-- `case PUBREC` and `case PUBREL` -/
def handleAck (env : Environment World) (rounds : Nat) (packettype : msgTypes)
    (s : Session World size room Handler) : Running (Int × Bool × Session World size room Handler) := do
  let before : Acknowledged := { packetid := (env.indeterminate s.world).packetid }
  let (rc, acknowledged) ← check (MQTTDeserialize_ack before s.client.readbuf)
  if rc ≠ 1 then .ok (FAILURE, true, s)
  else
    let (rc, s) ← sendAck env rounds packettype acknowledged.packetid s
    .ok (rc, decide (rc = FAILURE), s)

def handle (env : Environment World) (rounds : Nat) (packet_type : Int)
    (s : Session World size room Handler) : Running (Int × Bool × Session World size room Handler) :=
  if packet_type = msgTypes.PUBLISH.code then handlePublish env rounds s
  else if packet_type = msgTypes.PUBREC.code then handleAck env rounds .PUBREL s
  else if packet_type = msgTypes.PUBREL.code then handleAck env rounds .PUBCOMP s
  else if packet_type = msgTypes.PINGRESP.code then
    .ok (SUCCESS, false, { s with client := { s.client with ping_outstanding := false } })
  else if packet_type = 0 ∨ packet_type = msgTypes.CONNACK.code ∨
      packet_type = msgTypes.PUBACK.code ∨ packet_type = msgTypes.SUBACK.code ∨
      packet_type = msgTypes.UNSUBACK.code ∨ packet_type = msgTypes.PUBCOMP.code then
    .ok (SUCCESS, false, s)
  else .ok (packet_type, true, s)

def cycle (env : Environment World) (rounds : Nat) (s : Session World size room Handler) :
    Running (Int × Session World size room Handler) := do
  let (packet_type, s) ← readPacket env s
  let (rc, leave, s) ← handle env rounds packet_type s
  let (rc, s) ← (if leave then .ok (rc, s) else do
    let (alive, s) ← keepalive env rounds s
    .ok (if alive ≠ SUCCESS then FAILURE else rc, s))
  if rc = SUCCESS then .ok (packet_type, s)
  else if s.client.isconnected then .ok (rc, { s with client := MQTTCloseSession s.client })
  else .ok (rc, s)

/-- The loop of `MQTTYield`. -/
def yieldRounds (env : Environment World) (rounds : Nat) :
    Nat → Session World size room Handler → Running (Int × Session World size room Handler)
  | 0, _ => .error .running
  | cycles + 1, s => do
      let (rc, s) ← cycle env rounds s
      if rc < 0 then .ok (FAILURE, s)
      else
        match env.TimerIsExpired s.world .caller with
        | (true, world) => .ok (SUCCESS, { s with world := world })
        | (false, world) => yieldRounds env rounds cycles { s with world := world }

def MQTTYield (env : Environment World) (rounds cycles timeout_ms : Nat)
    (s : Session World size room Handler) : Running (Int × Session World size room Handler) :=
  yieldRounds env rounds cycles { s with world := env.TimerCountdownMS s.world .caller timeout_ms }

def waitfor (env : Environment World) (rounds : Nat) (packet_type : Int) :
    Nat → Int → Session World size room Handler → Running (Int × Session World size room Handler)
  | 0, _, _ => .error .running
  | cycles + 1, rc, s =>
      match env.TimerIsExpired s.world .caller with
      | (true, world) => .ok (rc, { s with world := world })
      | (false, world) => do
          let (rc, s) ← cycle env rounds { s with world := world }
          if rc ≠ packet_type ∧ 0 ≤ rc then waitfor env rounds packet_type cycles rc s else .ok (rc, s)

/-! ## What an application calls -/

/-- `MQTTClientInit`: the pointers to the functions and the interval are not set. -/
def MQTTClientInit (command_timeout_ms : Nat) (buf : Block size) (readbuf : Block room)
    (keepAliveInterval : Nat) (fp : Nat → Option Handler) : MQTTClient size room Handler where
  next_packetid := 1
  command_timeout_ms := command_timeout_ms
  buf := buf
  readbuf := readbuf
  keepAliveInterval := keepAliveInterval
  ping_outstanding := false
  isconnected := false
  cleansession := 0
  messageHandlers := noHandlers fp
  defaultMessageHandler := none
  running := true

def startTimer (env : Environment World) (s : Session World size room Handler) :
    Session World size room Handler :=
  { s with world := env.TimerCountdownMS s.world .caller s.client.command_timeout_ms }

/-- `sendPacket` for what has been serialized, and the wait for the answer to it. -/
def request (env : Environment World) (rounds cycles : Nat) (packet : Checked Buffer (Int × Block size))
    (answer : Option msgTypes) (s : Session World size room Handler) :
    Running (Int × Session World size room Handler) := do
  let (len, buf) ← check packet
  let s := { s with client := { s.client with buf := buf } }
  if len ≤ 0 then .ok (FAILURE, s)
  else
    let (rc, s) ← sendPacket env rounds .caller len.toNat s
    if rc ≠ SUCCESS then .ok (rc, s)
    else
      match answer with
      | none => .ok (SUCCESS, s)
      | some packet_type => do
          let (rc, s) ← waitfor env rounds packet_type.code cycles FAILURE s
          .ok (if rc = packet_type.code then SUCCESS else FAILURE, s)

/-- What is noted of the options in front of a connect packet. -/
def prepareConnect (env : Environment World) (options : MQTTPacket_connectData MQTTString)
    (s : Session World size room Handler) : Session World size room Handler :=
  let s := startTimer env s
  { s with
    world := env.TimerCountdown s.world .last_received options.keepAliveInterval.toNat
    client := { s.client with
      keepAliveInterval := options.keepAliveInterval.toNat
      cleansession := options.cleansession } }

def acceptConnack (s : Session World size room Handler) :
    Running (Int × Session World size room Handler) := do
  let (rc, data) ← check (MQTTDeserialize_connack {} s.client.readbuf)
  if rc ≠ 1 then .ok (FAILURE, s)
  else if data.rc ≠ 0 then .ok (data.rc.toNat, s)
  else
    .ok (SUCCESS, { s with
      client := { s.client with isconnected := true, ping_outstanding := false } })

def MQTTConnect (env : Environment World) (rounds cycles : Nat)
    (options : MQTTPacket_connectData MQTTString) (s : Session World size room Handler) :
    Running (Int × Session World size room Handler) :=
  if s.client.isconnected then .ok (FAILURE, s)
  else do
    let (rc, s) ← request env rounds cycles (MQTTSerialize_connect s.client.buf options)
      (some .CONNACK) (prepareConnect env options s)
    if rc ≠ SUCCESS then .ok (rc, s) else acceptConnack s

def closeOnFailure (rc : Int) (s : Session World size room Handler) :
    Int × Session World size room Handler :=
  if rc = FAILURE then (rc, { s with client := MQTTCloseSession s.client }) else (rc, s)

def acceptSuback (env : Environment World) (topicFilter : Address) (messageHandler : Option Handler)
    (s : Session World size room Handler) : Running (Int × Session World size room Handler) := do
  let (rc, granted) ← check (MQTTDeserialize_suback 1 1 {} s.client.readbuf)
  -- without a code it is the 0 from before the call
  if rc = 1 ∧ granted.grantedQoSs.headD 0 ≠ 0x80 then
    let (rc, slots) :=
      MQTTSetMessageHandler (env.strings s.world) s.client.messageHandlers topicFilter messageHandler
    .ok (closeOnFailure rc { s with client := { s.client with messageHandlers := slots } })
  else .ok (SUCCESS, s)

def MQTTSubscribe (env : Environment World) (rounds cycles : Nat) (topicFilter : Address) (qos : UInt8)
    (messageHandler : Option Handler) (s : Session World size room Handler) :
    Running (Int × Session World size room Handler) :=
  if s.client.isconnected = false then .ok (closeOnFailure FAILURE s)
  else do
    let s := startTimer env s
    let (packetid, client) := getNextPacketId s.client
    let s := { s with client := client }
    let (rc, s) ← request env rounds cycles (MQTTSerialize_subscribe s.client.buf 0
      (UInt16.ofNat packetid) [({ cstring := some (env.strings s.world topicFilter) }, qos)]) (some .SUBACK) s
    if rc ≠ SUCCESS then .ok (closeOnFailure rc s) else acceptSuback env topicFilter messageHandler s

def MQTTUnsubscribe (env : Environment World) (rounds cycles : Nat) (topicFilter : Address)
    (s : Session World size room Handler) : Running (Int × Session World size room Handler) :=
  if s.client.isconnected = false then .ok (closeOnFailure FAILURE s)
  else do
    let s := startTimer env s
    let (packetid, client) := getNextPacketId s.client
    let s := { s with client := client }
    let (rc, s) ← request env rounds cycles (MQTTSerialize_unsubscribe s.client.buf 0
      (UInt16.ofNat packetid) [{ cstring := some (env.strings s.world topicFilter) }]) (some .UNSUBACK) s
    if rc ≠ SUCCESS then .ok (closeOnFailure rc s)
    else
      let (rc, _) ← check (MQTTDeserialize_unsuback (env.indeterminate s.world).packetid
        s.client.readbuf)
      if rc = 1 then
        let (_, slots) :=
          MQTTSetMessageHandler (env.strings s.world) s.client.messageHandlers topicFilter none
        .ok (SUCCESS, { s with client := { s.client with messageHandlers := slots } })
      else .ok (SUCCESS, s)

/-- `MQTTMessage`, as far as it is sent. -/
structure MQTTMessage where
  qos : Nat
  retained : Nat
  id : UInt16
  payload : List UInt8

/-- The identifier of a message, a new one unless it is sent at most once. -/
def takeId (message : MQTTMessage) (s : Session World size room Handler) :
    UInt16 × Session World size room Handler :=
  if message.qos = 1 ∨ message.qos = 2 then
    (UInt16.ofNat (getNextPacketId s.client).1, { s with client := (getNextPacketId s.client).2 })
  else (message.id, s)

/-- The packet that a message is answered with in the end. -/
def answerOf (qos : Nat) : Option msgTypes :=
  if qos = 1 then some .PUBACK else if qos = 2 then some .PUBCOMP else none

def MQTTPublish (env : Environment World) (rounds cycles : Nat) (topicName : Text)
    (message : MQTTMessage) (s : Session World size room Handler) :
    Running (Int × Session World size room Handler) :=
  if s.client.isconnected = false then .ok (closeOnFailure FAILURE s)
  else do
    let (id, s) := takeId message (startTimer env s)
    let (rc, s) ← request env rounds cycles (MQTTSerialize_publish s.client.buf 0 message.qos
      message.retained id { cstring := some topicName } message.payload) (answerOf message.qos) s
    if rc ≠ SUCCESS ∨ answerOf message.qos = none then .ok (closeOnFailure rc s)
    else
      let before : Acknowledged := { packetid := (env.indeterminate s.world).packetid }
      let (rc, _) ← check (MQTTDeserialize_ack before s.client.readbuf)
      .ok (closeOnFailure (if rc ≠ 1 then FAILURE else SUCCESS) s)

def MQTTDisconnect (env : Environment World) (rounds : Nat) (s : Session World size room Handler) :
    Running (Int × Session World size room Handler) := do
  let (rc, s) ← request env rounds 0 (MQTTSerialize_disconnect s.client.buf) none
    (startTimer env s)
  .ok (rc, { s with client := MQTTCloseSession s.client })

/-! ## A network of lists -/

def takeBytes (stream : List UInt8) (count : Nat) : Incoming count × List UInt8 :=
  if enough : count ≤ stream.length then
    (⟨count, stream.take count, List.length_take_le _ _, fun _ => by
      rw [List.length_take_of_le enough]⟩, stream.drop count)
  else (⟨0, [], Nat.zero_le _, fun positive => absurd positive (lt_irrefl 0)⟩, stream)

/-- Two topic filters, `a` at address 0 and `b` elsewhere. -/
def letters (address : Address) : Text := beforeNul [if address = 0 then 97 else 98]

/-- A network that has the given bytes to read and takes what it is offered, with a
clock that stands still: the timer of a call runs for a number of questions. -/
def listNetwork : Environment (List UInt8 × Nat) where
  strings _ := letters
  mqttread world _ count :=
    ((takeBytes world.1 count).1, ((takeBytes world.1 count).2, world.2))
  mqttwrite world _ count := (count, world)
  taken world _ := world
  TimerIsExpired world timer :=
    match timer with
    | .caller => (world.2 = 0, (world.1, world.2 - 1))
    | _ => (false, world)
  TimerCountdown world _ _ := world
  TimerCountdownMS world timer timeout_ms :=
    match timer with
    | .caller => (world.1, timeout_ms)
    | _ => world
  indeterminate _ := {}

/-- A new client in front of it, with buffers of 32 bytes. -/
def listSession (bytes : List UInt8) : Session (List UInt8 × Nat) 32 32 Nat where
  client := MQTTClientInit 5 (fun _ => 0) (fun _ => 0) 0 fun _ => none
  world := (bytes, 0)

end WifiIot.Paho
