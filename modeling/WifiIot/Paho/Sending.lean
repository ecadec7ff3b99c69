import WifiIot.Paho.Client
import WifiIot.Paho.Stream

/-!
# What goes to the network

Whatever the network takes of a packet, a client that is still connected has handed
over whole packets, one after the other: a packet of which too little or too much has
gone ends the session.

Source: `paho_mqtt/MQTTClient-C/src/MQTTClient.c`.
-/

namespace WifiIot.Paho

open Memory Wire

variable {World Handler : Type} {size room : Nat}

/-! ## Computations that may stop -/

theorem running_bind_eq_ok {First Second : Type} {first : Running First}
    {next : First → Running Second} {result : Second} :
    (first >>= next) = .ok result ↔ ∃ value, first = .ok value ∧ next value = .ok result := by
  cases first with
  | error stop => exact ⟨nofun, nofun⟩
  | ok value =>
      constructor
      · exact fun done => ⟨value, rfl, done⟩
      · rintro ⟨other, same, done⟩
        cases same
        exact done

theorem check_eq_ok {Value : Type} {checked : Checked Buffer Value} {value : Value} :
    check checked = .ok value ↔ checked = .ok value := by
  cases checked with
  | error fault => exact ⟨nofun, nofun⟩
  | ok other => exact ⟨fun same => by cases same; rfl, fun same => by cases same; rfl⟩

@[simp]
theorem running_ok_bind {First Second : Type} (value : First) (next : First → Running Second) :
    ((Except.ok value : Running First) >>= next) = next value := rfl

@[simp]
theorem check_ok {Value : Type} (value : Value) :
    check (.ok value : Checked Buffer Value) = .ok value := rfl

/-! ## The log -/

def wire (log : List (Event room Handler)) : List UInt8 :=
  log.flatMap fun event => match event with
    | .written bytes => bytes
    | .delivered .. => []

section Log

variable {log : List (Event room Handler)}

@[simp]
theorem wire_written (bytes : List UInt8) : wire (log ++ [.written bytes]) = wire log ++ bytes := by
  simp [wire]

@[simp]
theorem wire_delivered (fps : List Handler) (message : Published) (readbuf : Block room) :
    wire (log ++ fps.map fun fp => .delivered fp message readbuf) = wire log := by
  simp [wire, List.flatMap_map]

end Log

/-! ## One packet -/

section Sending

variable {env : Environment World} {timer : Timer} {length rounds sent total : Nat}
  {s s' : Session World size room Handler}

theorem sendRounds_ok (ran : sendRounds env timer length rounds sent s = .ok (total, s')) :
    ∃ bytes, Reads s.client.buf sent bytes ∧ total = sent + bytes.length ∧ s'.client = s.client ∧
      wire s'.log = wire s.log ++ bytes := by
  induction rounds generalizing sent s with
  | zero => exact absurd ran nofun
  | succ rounds inductionHypothesis =>
      rw [sendRounds] at ran
      have nothing : ∀ world, (.ok (sent, { s with world := world }) : Running _) = .ok (total, s') →
          ∃ bytes, Reads s.client.buf sent bytes ∧ total = sent + bytes.length ∧
            s'.client = s.client ∧ wire s'.log = wire s.log ++ bytes := by
        intro world same
        cases same
        exact ⟨[], reads_nil _ _, rfl, rfl, (List.append_nil _).symm⟩
      split_ifs at ran with more
      · split at ran
        · exact nothing _ ran
        · split at ran
          split_ifs at ran with failed
          · exact nothing _ ran
          · rename_i rc world written
            obtain ⟨bytes, read, later⟩ := running_bind_eq_ok.mp ran
            obtain ⟨counted, reads⟩ := reads_of_readBytes (check_eq_ok.mp read)
            obtain ⟨rest, readsRest, totalEq, client, wireEq⟩ := inductionHypothesis later
            rw [← counted] at readsRest totalEq
            refine ⟨bytes ++ rest, reads_append_iff.mpr ⟨reads, readsRest⟩, ?_, client, ?_⟩
            · rw [List.length_append, totalEq, Nat.add_assoc]
            · rw [wireEq, wire_written, List.append_assoc]
      · exact nothing s.world ran

/-- Success is reported exactly if the network has taken the whole packet and no more. -/
theorem sendPacket_ok {rc : Int} (ran : sendPacket env rounds timer length s = .ok (rc, s')) :
    ∃ bytes, Reads s.client.buf 0 bytes ∧ s'.client = s.client ∧
      wire s'.log = wire s.log ++ bytes ∧
      (bytes.length = length ∧ rc = SUCCESS ∨ bytes.length ≠ length ∧ rc = FAILURE) := by
  obtain ⟨⟨sent, next⟩, rounds, later⟩ := running_bind_eq_ok.mp ran
  obtain ⟨bytes, reads, sentEq, client, wireEq⟩ := sendRounds_ok rounds
  rw [Nat.zero_add] at sentEq
  simp only at later
  split_ifs at later with whole
  · cases later
    exact ⟨bytes, reads, client, wireEq, .inl ⟨sentEq.symm.trans whole, rfl⟩⟩
  · cases later
    exact ⟨bytes, reads, client, wireEq, .inr ⟨fun same => whole (sentEq.trans same), rfl⟩⟩

end Sending

/-! ## Whole packets -/

/-- From one state to another, whole packets have gone to the network. -/
def Frames (s s' : Session World size room Handler) : Prop :=
  ∃ packets, wire s'.log = wire s.log ++ streamBytes packets

section Frames

variable {s s' s'' : Session World size room Handler}

theorem frames_of_eq (same : wire s'.log = wire s.log) : Frames s s' :=
  ⟨[], by rw [same, streamBytes, List.flatMap_nil, List.append_nil]⟩

theorem Frames.trans (first : Frames s s') (second : Frames s' s'') : Frames s s'' := by
  obtain ⟨packets, firstEq⟩ := first
  obtain ⟨others, secondEq⟩ := second
  refine ⟨packets ++ others, ?_⟩
  rw [secondEq, firstEq, streamBytes, streamBytes, streamBytes, List.flatMap_append,
    List.append_assoc]

theorem frames_of_packet {header : MQTTHeader} {body : List UInt8}
    (same : wire s'.log = wire s.log ++ packetBytes header body) : Frames s s' :=
  ⟨[(header, body)], by rw [same, streamBytes, List.flatMap_singleton]⟩

structure Kept (c c' : MQTTClient size room Handler) : Prop where
  isconnected : c'.isconnected = c.isconnected
  next_packetid : c'.next_packetid = c.next_packetid

theorem Kept.trans {c c' c'' : MQTTClient size room Handler} (first : Kept c c')
    (second : Kept c' c'') : Kept c c'' :=
  ⟨second.isconnected.trans first.isconnected, second.next_packetid.trans first.next_packetid⟩

end Frames

section Steps

variable {env : Environment World} {timer : Timer} {rounds cycles : Nat}
  {s s' : Session World size room Handler} {rc : Int}

theorem sendPacket_frames {buf : Block size} {header : MQTTHeader} {body : List UInt8}
    (fits : (packetBytes header body).length ≤ size) (stands : s.client.buf = sent buf header body)
    (ran : sendPacket env rounds timer (packetBytes header body).length s = .ok (rc, s')) :
    Kept s.client s'.client ∧ (rc = FAILURE ∨
      rc = SUCCESS ∧ wire s'.log = wire s.log ++ packetBytes header body) := by
  obtain ⟨bytes, reads, client, wireEq, outcome⟩ := sendPacket_ok ran
  refine ⟨⟨by rw [client], by rw [client]⟩, ?_⟩
  rcases outcome with ⟨whole, success⟩ | ⟨-, failure⟩
  · have same : bytes = packetBytes header body := by
      have packet := reads_sent buf fits
      rw [← stands] at packet
      rw [← reads.map_byteAt, ← packet.map_byteAt, whole]
    exact .inr ⟨success, by rw [wireEq, same]⟩
  · exact .inl failure

theorem send_serialized {asked : Nat} {header : MQTTHeader} {body : List UInt8} {len : Int}
    {buf : Block size} (written : serialized s.client.buf asked header body = .ok (len, buf))
    (positive : 0 < len) (ran : sendPacket env rounds timer len.toNat
      { s with client := { s.client with buf := buf } } = .ok (rc, s')) :
    Kept s.client s'.client ∧ (rc = FAILURE ∨
      rc = SUCCESS ∧ wire s'.log = wire s.log ++ packetBytes header body) := by
  obtain ⟨fits, rfl, rfl⟩ := eq_sent_of_serialized written positive
  rw [Int.toNat_natCast] at ran
  obtain ⟨kept, outcome⟩ := sendPacket_frames fits rfl ran
  exact ⟨⟨kept.isconnected, kept.next_packetid⟩, outcome⟩

theorem sendAck_ok {packettype : msgTypes} {packetid : UInt16}
    (ran : sendAck env rounds packettype packetid s = .ok (rc, s')) :
    Kept s.client s'.client ∧ (rc = FAILURE ∨ rc = SUCCESS ∧ wire s'.log = wire s.log ++
      packetBytes (ackHeader packettype 0) (intBytes packetid.toNat)) := by
  obtain ⟨⟨len, buf⟩, written, later⟩ := running_bind_eq_ok.mp ran
  rw [check_eq_ok, MQTTSerialize_ack_serialized] at written
  simp only at later
  split_ifs at later with short
  · cases later
    exact ⟨⟨rfl, rfl⟩, .inl rfl⟩
  · exact send_serialized written (not_le.mp short) later

theorem received_ok (ran : receivedPacket env s = .ok (rc, s')) :
    s'.client = s.client ∧ s'.log = s.log := by
  obtain ⟨byte, -, later⟩ := running_bind_eq_ok.mp ran
  cases later
  exact ⟨rfl, rfl⟩

theorem readBody_ok {rem_len : Nat} {output : Output room}
    (ran : readBody env rem_len output s = .ok (rc, s')) :
    (∃ readbuf, s'.client = { s.client with readbuf := readbuf }) ∧ s'.log = s.log := by
  obtain ⟨output, -, later⟩ := running_bind_eq_ok.mp ran
  split_ifs at later with part
  · cases later
    exact ⟨⟨_, rfl⟩, rfl⟩
  · obtain ⟨client, log⟩ := received_ok later
    exact ⟨⟨_, client⟩, log⟩

theorem readPacket_ok (ran : readPacket env s = .ok (rc, s')) :
    (∃ readbuf, s'.client = { s.client with readbuf := readbuf }) ∧ s'.log = s.log := by
  obtain ⟨output, -, later⟩ := running_bind_eq_ok.mp ran
  split_ifs at later with failed
  · cases later
    exact ⟨⟨_, rfl⟩, rfl⟩
  · obtain ⟨output, -, later⟩ := running_bind_eq_ok.mp later
    simp only at later
    split_ifs at later with long some
    · cases later
      exact ⟨⟨_, rfl⟩, rfl⟩
    · obtain ⟨⟨readbuf, client⟩, log⟩ := readBody_ok later
      exact ⟨⟨readbuf, client⟩, log⟩
    · obtain ⟨client, log⟩ := received_ok later
      exact ⟨⟨_, client⟩, log⟩

theorem keepalive_ok (ran : keepalive env rounds s = .ok (rc, s')) :
    Kept s.client s'.client ∧ (rc = FAILURE ∨ rc = SUCCESS ∧ Frames s s') := by
  have quiet : ∀ world, (.ok (SUCCESS, { s with world := world }) : Running _) = .ok (rc, s') →
      Kept s.client s'.client ∧ (rc = FAILURE ∨ rc = SUCCESS ∧ Frames s s') := by
    intro world same
    cases same
    exact ⟨⟨rfl, rfl⟩, .inr ⟨rfl, frames_of_eq rfl⟩⟩
  rw [keepalive] at ran
  by_cases switchedOff : s.client.keepAliveInterval = 0
  · rw [if_pos switchedOff] at ran
    exact quiet _ ran
  · rw [if_neg switchedOff] at ran
    split at ran
    · exact quiet _ ran
    · split_ifs at ran with outstanding
      · cases ran
        exact ⟨⟨rfl, rfl⟩, .inl rfl⟩
      · obtain ⟨⟨len, buf⟩, written, later⟩ := running_bind_eq_ok.mp ran
        rw [check_eq_ok, MQTTSerialize_pingreq, MQTTSerialize_zero_serialized] at written
        simp only at later
        by_cases positive : 0 < len
        · rw [if_pos positive] at later
          obtain ⟨⟨rc, next⟩, ran, later⟩ := running_bind_eq_ok.mp later
          obtain ⟨kept, outcome⟩ := send_serialized written positive ran
          cases later
          have pinged : Kept s.client (if rc = SUCCESS then
              { next with client := { next.client with ping_outstanding := true } } else next).client := by
            split
            · exact ⟨kept.isconnected, kept.next_packetid⟩
            · exact ⟨kept.isconnected, kept.next_packetid⟩
          refine ⟨pinged, outcome.imp_right fun ⟨success, wireEq⟩ => ⟨success, ?_⟩⟩
          rw [if_pos success]
          exact frames_of_packet wireEq
        · rw [if_neg positive] at later
          cases later
          exact ⟨⟨rfl, rfl⟩, .inr ⟨rfl, frames_of_eq rfl⟩⟩

theorem sendAck_frames {packettype : msgTypes} {packetid : UInt16}
    (ran : sendAck env rounds packettype packetid s = .ok (rc, s')) :
    Kept s.client s'.client ∧ (rc = FAILURE ∨ Frames s s') := by
  obtain ⟨kept, outcome⟩ := sendAck_ok ran
  exact ⟨kept, outcome.imp_right fun sent => frames_of_packet sent.2⟩

theorem handlePublish_ok {leave : Bool} (ran : handlePublish env rounds s = .ok (rc, leave, s')) :
    Kept s.client s'.client ∧ (rc = FAILURE ∨ Frames s s') := by
  obtain ⟨⟨deserialized, message⟩, -, later⟩ := running_bind_eq_ok.mp ran
  simp only at later
  by_cases refused : deserialized ≠ 1
  · rw [if_pos refused] at later
    cases later
    exact ⟨⟨rfl, rfl⟩, .inr (frames_of_eq rfl)⟩
  · rw [if_neg refused] at later
    obtain ⟨⟨delivered, called⟩, -, later⟩ := running_bind_eq_ok.mp later
    simp only at later
    by_cases atMostOnce : message.qos = 0
    · rw [if_pos atMostOnce] at later
      cases later
      exact ⟨⟨rfl, rfl⟩, .inr (frames_of_eq (wire_delivered _ _ _))⟩
    · rw [if_neg atMostOnce] at later
      obtain ⟨⟨answered, next⟩, answer, later⟩ := running_bind_eq_ok.mp later
      cases later
      have handed : Frames s { s with
          log := s.log ++ called.map fun fp => .delivered fp message s.client.readbuf } :=
        frames_of_eq (wire_delivered _ _ _)
      split_ifs at answer with atLeastOnce exactlyOnce
      · obtain ⟨kept, outcome⟩ := sendAck_frames answer
        exact ⟨kept, outcome.imp_right handed.trans⟩
      · obtain ⟨kept, outcome⟩ := sendAck_frames answer
        exact ⟨kept, outcome.imp_right handed.trans⟩
      · cases answer
        exact ⟨⟨rfl, rfl⟩, .inl rfl⟩

theorem handleAck_ok {packettype : msgTypes} {leave : Bool}
    (ran : handleAck env rounds packettype s = .ok (rc, leave, s')) :
    Kept s.client s'.client ∧ (rc = FAILURE ∨ Frames s s') := by
  obtain ⟨⟨deserialized, acknowledged⟩, -, later⟩ := running_bind_eq_ok.mp ran
  simp only at later
  split_ifs at later with refused
  · cases later
    exact ⟨⟨rfl, rfl⟩, .inl rfl⟩
  · obtain ⟨⟨answered, next⟩, answer, later⟩ := running_bind_eq_ok.mp later
    cases later
    exact sendAck_frames answer

theorem handle_ok {packet_type : Int} {leave : Bool}
    (ran : handle env rounds packet_type s = .ok (rc, leave, s')) :
    Kept s.client s'.client ∧ (rc = FAILURE ∨ Frames s s') := by
  rw [handle] at ran
  split_ifs at ran
  · exact handlePublish_ok ran
  · exact handleAck_ok ran
  · exact handleAck_ok ran
  · cases ran
    exact ⟨⟨rfl, rfl⟩, .inr (frames_of_eq rfl)⟩
  · cases ran
    exact ⟨⟨rfl, rfl⟩, .inr (frames_of_eq rfl)⟩
  · cases ran
    exact ⟨⟨rfl, rfl⟩, .inr (frames_of_eq rfl)⟩

/-- What a call can do to a connection: it keeps it or ends it, and unless it ends it or
fails, whole packets have gone. -/
structure Steps (s s' : Session World size room Handler) (rc : Int) : Prop where
  next_packetid : s'.client.next_packetid = s.client.next_packetid
  isconnected : s'.client.isconnected = true → s.client.isconnected = true
  frames : 0 ≤ rc ∨ s'.client.isconnected = true → Frames s s'

theorem cycle_ok (ran : cycle env rounds s = .ok (rc, s')) : Steps s s' rc := by
  obtain ⟨⟨packet_type, first⟩, read, later⟩ := running_bind_eq_ok.mp ran
  obtain ⟨⟨readbuf, readEq⟩, readLog⟩ := readPacket_ok read
  have readFrames : Frames s first := frames_of_eq (congrArg wire readLog)
  have readKept : Kept s.client first.client := ⟨by rw [readEq], by rw [readEq]⟩
  obtain ⟨⟨handled, leave, second⟩, done, later⟩ := running_bind_eq_ok.mp later
  obtain ⟨handledKept, handledOutcome⟩ := handle_ok done
  obtain ⟨⟨result, third⟩, alive, later⟩ := running_bind_eq_ok.mp later
  have kept : Kept s.client third.client ∧ (result = FAILURE ∨ Frames s third) := by
    have both := readKept.trans handledKept
    have sofar := handledOutcome.imp_right readFrames.trans
    split_ifs at alive with left
    · cases alive
      exact ⟨both, sofar⟩
    · obtain ⟨⟨kept, last⟩, pinged, alive⟩ := running_bind_eq_ok.mp alive
      obtain ⟨lastKept, outcome⟩ := keepalive_ok pinged
      cases alive
      refine ⟨both.trans lastKept, ?_⟩
      rcases outcome with rfl | ⟨rfl, lastFrames⟩
      · exact .inl rfl
      · exact sofar.imp_right fun frames => frames.trans lastFrames
  obtain ⟨⟨connected, packetid⟩, outcome⟩ := kept
  simp only at later
  split_ifs at later with success open_
  · cases later
    refine ⟨packetid, connected.symm.trans, fun _ => outcome.resolve_left ?_⟩
    rw [success]
    decide
  · cases later
    refine ⟨packetid, nofun, fun good => outcome.resolve_left ?_⟩
    rintro rfl
    rcases good with positive | connectedStill
    · exact absurd positive (by decide)
    · exact Bool.false_ne_true connectedStill
  · cases later
    refine ⟨packetid, connected.symm.trans, fun good => outcome.resolve_left ?_⟩
    rintro rfl
    rcases good with positive | connectedStill
    · exact absurd positive (by decide)
    · exact open_ connectedStill

theorem steps_refl (s : Session World size room Handler) (world : World) (rc : Int) :
    Steps s { s with world := world } rc :=
  ⟨rfl, id, fun _ => frames_of_eq rfl⟩

theorem Steps.trans {s'' : Session World size room Handler} {first : Int} (good : 0 ≤ first)
    (step : Steps s s' first) (further : Steps s' s'' rc) : Steps s s'' rc :=
  ⟨further.next_packetid.trans step.next_packetid,
    fun connected => step.isconnected (further.isconnected connected),
    fun outcome => (step.frames (.inl good)).trans (further.frames outcome)⟩

theorem yieldRounds_ok (ran : yieldRounds env rounds cycles s = .ok (rc, s')) : Steps s s' rc := by
  induction cycles generalizing s with
  | zero => exact absurd ran nofun
  | succ cycles inductionHypothesis =>
      obtain ⟨⟨first, next⟩, cycled, later⟩ := running_bind_eq_ok.mp ran
      have step := cycle_ok cycled
      simp only at later
      by_cases failed : first < 0
      · rw [if_pos failed] at later
        cases later
        refine ⟨step.next_packetid, step.isconnected, fun outcome => step.frames ?_⟩
        rcases outcome with positive | connected
        · exact absurd positive (by decide)
        · exact .inr connected
      · rw [if_neg failed] at later
        have good : 0 ≤ first := not_lt.mp failed
        split at later
        · cases later
          exact step.trans good (steps_refl next _ SUCCESS)
        · exact step.trans good (((steps_refl next _ 0).trans (Int.le_refl 0))
            (inductionHypothesis later))

theorem waitfor_ok {packet_type before : Int}
    (ran : waitfor env rounds packet_type cycles before s = .ok (rc, s')) : Steps s s' rc := by
  induction cycles generalizing s before with
  | zero => exact absurd ran nofun
  | succ cycles inductionHypothesis =>
      rw [waitfor] at ran
      split at ran
      · cases ran
        exact steps_refl s _ _
      · rename_i world _
        obtain ⟨⟨first, next⟩, cycled, later⟩ := running_bind_eq_ok.mp ran
        have step : Steps s next first :=
          (steps_refl s world 0).trans (Int.le_refl 0) (cycle_ok cycled)
        simp only at later
        split_ifs at later with again
        · exact step.trans again.2 (inductionHypothesis later)
        · cases later
          exact step

/-- A request has gone as a whole, and then whole packets until the answer. -/
theorem request_ok {packet : Checked Buffer (Int × Block size)} {asked : Nat} {header : MQTTHeader}
    {body : List UInt8} (written : packet = serialized s.client.buf asked header body)
    {answer : Option msgTypes}
    (ran : request env rounds cycles packet answer s = .ok (rc, s')) :
    s'.client.next_packetid = s.client.next_packetid ∧
      (s'.client.isconnected = true → s.client.isconnected = true) ∧
      (rc = FAILURE ∨ rc = SUCCESS ∧ ∃ packets,
        wire s'.log = wire s.log ++ streamBytes ((header, body) :: packets)) := by
  obtain ⟨⟨len, buf⟩, serializedEq, later⟩ := running_bind_eq_ok.mp ran
  rw [check_eq_ok, written] at serializedEq
  simp only at later
  by_cases short : len ≤ 0
  · rw [if_pos short] at later
    cases later
    exact ⟨rfl, id, .inl rfl⟩
  · rw [if_neg short] at later
    obtain ⟨⟨first, next⟩, sendRan, later⟩ := running_bind_eq_ok.mp later
    obtain ⟨kept, outcome⟩ := send_serialized serializedEq (not_le.mp short) sendRan
    have connected : next.client.isconnected = true → s.client.isconnected = true :=
      kept.isconnected.symm.trans
    simp only at later
    by_cases failed : first ≠ SUCCESS
    · rw [if_pos failed] at later
      cases later
      exact ⟨kept.next_packetid, connected, .inl (outcome.resolve_right fun sent => failed sent.1)⟩
    · rw [if_neg failed] at later
      obtain ⟨-, wireEq⟩ := outcome.resolve_left (by
        rintro rfl
        exact failed (by decide))
      have whole : wire next.log = wire s.log ++ streamBytes [(header, body)] := by
        rw [wireEq, streamBytes, List.flatMap_singleton]
      cases answer with
      | none =>
          cases later
          exact ⟨kept.next_packetid, connected, .inr ⟨rfl, [], whole⟩⟩
      | some packet_type =>
          obtain ⟨⟨answered, last⟩, waited, later⟩ := running_bind_eq_ok.mp later
          have step := waitfor_ok waited
          cases later
          refine ⟨step.next_packetid.trans kept.next_packetid,
            fun open_ => connected (step.isconnected open_), ?_⟩
          by_cases came : answered = packet_type.code
          · obtain ⟨packets, wireEq⟩ := step.frames (.inl (by omega))
            refine .inr ⟨if_pos came, packets, ?_⟩
            rw [wireEq, whole, streamBytes, streamBytes, streamBytes, List.flatMap_cons,
              List.flatMap_cons, List.flatMap_nil, List.append_nil, List.append_assoc]
          · exact .inl (if_neg came)

end Steps

/-! ## Calls in a row -/

inductive Call (Handler : Type) where
  | MQTTYield (timeout_ms : Nat)
  | MQTTPublish (topicName : Text) (message : MQTTMessage)
  | MQTTSubscribe (topicFilter : Address) (qos : UInt8) (messageHandler : Option Handler)
  | MQTTUnsubscribe (topicFilter : Address)
  | MQTTSetMessageHandler (topicFilter : Address) (messageHandler : Option Handler)
  | MQTTDisconnect

def Call.perform (env : Environment World) (rounds cycles : Nat) :
    Call Handler → Session World size room Handler → Running (Int × Session World size room Handler)
  | .MQTTYield timeout_ms, s => Paho.MQTTYield env rounds cycles timeout_ms s
  | .MQTTPublish topicName message, s => Paho.MQTTPublish env rounds cycles topicName message s
  | .MQTTSubscribe topicFilter qos messageHandler, s =>
      Paho.MQTTSubscribe env rounds cycles topicFilter qos messageHandler s
  | .MQTTUnsubscribe topicFilter, s => Paho.MQTTUnsubscribe env rounds cycles topicFilter s
  | .MQTTSetMessageHandler topicFilter messageHandler, s =>
      let (rc, slots) :=
        Paho.MQTTSetMessageHandler (env.strings s.world) s.client.messageHandlers topicFilter
          messageHandler
      .ok (rc, { s with client := { s.client with messageHandlers := slots } })
  | .MQTTDisconnect, s => Paho.MQTTDisconnect env rounds s

def performAll (env : Environment World) (rounds cycles : Nat) :
    List (Call Handler) → Session World size room Handler → Running (Session World size room Handler)
  | [], s => .ok s
  | call :: calls, s => do
      let (_, s) ← call.perform env rounds cycles s
      performAll env rounds cycles calls s

section Calls

variable {env : Environment World} {rounds cycles : Nat} {s s' : Session World size room Handler}
  {rc : Int}

/-- Of a session that is still connected, whole packets have gone. -/
structure Whole (s s' : Session World size room Handler) : Prop where
  isconnected : s'.client.isconnected = true → s.client.isconnected = true
  frames : s'.client.isconnected = true → Frames s s'

theorem whole_closeOnFailure
    (connected : s'.client.isconnected = true → s.client.isconnected = true)
    (outcome : rc = FAILURE ∨ Frames s s') : Whole s (closeOnFailure rc s').2 := by
  rw [closeOnFailure]
  by_cases failed : rc = FAILURE
  · rw [if_pos failed]
    exact ⟨fun closed => absurd closed Bool.false_ne_true,
      fun closed => absurd closed Bool.false_ne_true⟩
  · rw [if_neg failed]
    exact ⟨connected, fun _ => outcome.resolve_left failed⟩

theorem single_cstring (text : Text) : MQTTString.Single { cstring := some text } := rfl

theorem whole_of_ok {result : Int × Session World size room Handler} (whole : Whole s result.2)
    (ran : (.ok result : Running _) = .ok (rc, s')) : Whole s s' := by
  rwa [Except.ok.inj ran] at whole

theorem whole_refl (s : Session World size room Handler) : Whole s s :=
  ⟨id, fun _ => frames_of_eq rfl⟩

theorem whole_of_closed (ran : (.ok (closeOnFailure FAILURE s) : Running _) = .ok (rc, s')) : Whole s s' := by
  cases ran
  exact ⟨fun open_ => absurd open_ Bool.false_ne_true, fun open_ => absurd open_ Bool.false_ne_true⟩

structure Requested (s s' : Session World size room Handler) (rc : Int) : Prop where
  isconnected : s'.client.isconnected = true → s.client.isconnected = true
  outcome : rc = FAILURE ∨ rc = SUCCESS ∧ Frames s s'

theorem requested_of_ok {packet : Checked Buffer (Int × Block size)} {asked : Nat}
    {header : MQTTHeader} {body : List UInt8}
    (written : packet = serialized s.client.buf asked header body) {answer : Option msgTypes}
    (ran : request env rounds cycles packet answer s = .ok (rc, s')) : Requested s s' rc := by
  obtain ⟨-, connected, outcome⟩ := request_ok written ran
  exact ⟨connected, outcome.imp_right fun ⟨success, packets, wireEq⟩ => ⟨success, _, wireEq⟩⟩

theorem Requested.close (requested : Requested s s' rc) : Whole s (closeOnFailure rc s').2 :=
  whole_closeOnFailure requested.isconnected (requested.outcome.imp_right fun sent => sent.2)

/-- Once the answer is there, nothing else is sent. -/
theorem Requested.answered (requested : Requested s s' rc) (came : ¬rc ≠ SUCCESS)
    {last : Session World size room Handler} (log : last.log = s'.log)
    (connected : last.client.isconnected = s'.client.isconnected) (result : Int) :
    Whole s last ∧ Whole s (closeOnFailure result last).2 := by
  have frames : Frames s s' := (requested.outcome.resolve_left (by
    rintro rfl
    exact came (by decide))).2
  have whole : Frames s last := frames.trans (frames_of_eq (congrArg wire log))
  have open_ : last.client.isconnected = true → s.client.isconnected = true :=
    fun still => requested.isconnected (connected.symm.trans still)
  exact ⟨⟨open_, fun _ => whole⟩, whole_closeOnFailure open_ (.inr whole)⟩

theorem takeId_kept (message : MQTTMessage) (s : Session World size room Handler) :
    (takeId message s).2.log = s.log ∧
      (takeId message s).2.client.isconnected = s.client.isconnected := by
  rw [takeId]
  split_ifs <;> exact ⟨rfl, rfl⟩

theorem Requested.of_kept {first : Session World size room Handler}
    (requested : Requested first s' rc) (log : first.log = s.log)
    (connected : first.client.isconnected = s.client.isconnected) : Requested s s' rc :=
  ⟨fun open_ => connected.symm.trans (requested.isconnected open_),
    requested.outcome.imp_right fun sent =>
      ⟨sent.1, (frames_of_eq (congrArg wire log)).trans sent.2⟩⟩

theorem MQTTPublish_whole {topicName : Text} {message : MQTTMessage}
    (ran : MQTTPublish env rounds cycles topicName message s = .ok (rc, s')) : Whole s s' := by
  rw [MQTTPublish] at ran
  by_cases closed : s.client.isconnected = false
  · rw [if_pos closed] at ran
    exact whole_of_closed ran
  · rw [if_neg closed] at ran
    obtain ⟨log, connected⟩ := takeId_kept message (startTimer env s)
    obtain ⟨id, start⟩ := takeId message (startTimer env s)
    obtain ⟨⟨first, next⟩, ran, later⟩ := running_bind_eq_ok.mp ran
    have requested := (requested_of_ok (MQTTSerialize_publish_serialized _ _ _ _ _ _
      (single_cstring topicName)) ran).of_kept (s := s) log connected
    simp only at later
    by_cases early : first ≠ SUCCESS ∨ answerOf message.qos = none
    · rw [if_pos early] at later
      exact whole_of_ok requested.close later
    · rw [if_neg early] at later
      obtain ⟨⟨deserialized, acknowledged⟩, -, later⟩ := running_bind_eq_ok.mp later
      exact whole_of_ok (requested.answered (fun failed => early (.inl failed)) rfl rfl _).2 later

theorem single_filter (topicFilter : Text) (qos : UInt8) :
    ∀ item ∈ [(({ cstring := some topicFilter } : MQTTString), qos)], item.1.Single := by
  simpa using single_cstring topicFilter

theorem MQTTSubscribe_whole {topicFilter : Address} {qos : UInt8} {messageHandler : Option Handler}
    (ran : MQTTSubscribe env rounds cycles topicFilter qos messageHandler s = .ok (rc, s')) :
    Whole s s' := by
  rw [MQTTSubscribe] at ran
  by_cases closed : s.client.isconnected = false
  · rw [if_pos closed] at ran
    exact whole_of_closed ran
  · rw [if_neg closed] at ran
    obtain ⟨⟨first, next⟩, ran, later⟩ := running_bind_eq_ok.mp ran
    have requested := (requested_of_ok (MQTTSerialize_subscribe_serialized _ _ _
      (single_filter _ qos)) ran).of_kept (s := s) rfl rfl
    simp only at later
    by_cases early : first ≠ SUCCESS
    · rw [if_pos early] at later
      exact whole_of_ok requested.close later
    · rw [if_neg early] at later
      obtain ⟨⟨deserialized, granted⟩, -, later⟩ := running_bind_eq_ok.mp later
      simp only at later
      split_ifs at later with accepted
      · refine whole_of_ok (requested.answered early ?_ ?_ _).2 later <;> rfl
      · cases later
        exact (requested.answered early rfl rfl SUCCESS).1

theorem MQTTUnsubscribe_whole {topicFilter : Address}
    (ran : MQTTUnsubscribe env rounds cycles topicFilter s = .ok (rc, s')) : Whole s s' := by
  rw [MQTTUnsubscribe] at ran
  by_cases closed : s.client.isconnected = false
  · rw [if_pos closed] at ran
    exact whole_of_closed ran
  · rw [if_neg closed] at ran
    obtain ⟨⟨first, next⟩, ran, later⟩ := running_bind_eq_ok.mp ran
    have single (filter : Text) : ∀ item ∈ [({ cstring := some filter } : MQTTString)],
        item.Single := by
      simpa using single_cstring filter
    have requested := (requested_of_ok (MQTTSerialize_unsubscribe_serialized _ _ _ (single _))
      ran).of_kept (s := s) rfl rfl
    simp only at later
    by_cases early : first ≠ SUCCESS
    · rw [if_pos early] at later
      exact whole_of_ok requested.close later
    · rw [if_neg early] at later
      obtain ⟨⟨deserialized, packetid⟩, -, later⟩ := running_bind_eq_ok.mp later
      simp only at later
      split_ifs at later with accepted
      · cases later
        refine (requested.answered early ?_ ?_ SUCCESS).1 <;> rfl
      · cases later
        refine (requested.answered early ?_ ?_ SUCCESS).1 <;> rfl

/-- No call leaves a connected client with a part of a packet sent. -/
theorem perform_whole {call : Call Handler}
    (ran : call.perform env rounds cycles s = .ok (rc, s')) : Whole s s' := by
  cases call with
  | MQTTYield timeout_ms =>
      have step := (steps_refl s _ 0).trans (Int.le_refl 0) (yieldRounds_ok ran)
      exact ⟨step.isconnected, fun open_ => step.frames (.inr open_)⟩
  | MQTTPublish topicName message => exact MQTTPublish_whole ran
  | MQTTSubscribe topicFilter qos messageHandler => exact MQTTSubscribe_whole ran
  | MQTTUnsubscribe topicFilter => exact MQTTUnsubscribe_whole ran
  | MQTTSetMessageHandler topicFilter messageHandler =>
      cases ran
      exact ⟨id, fun _ => frames_of_eq rfl⟩
  | MQTTDisconnect =>
      obtain ⟨⟨first, next⟩, -, later⟩ := running_bind_eq_ok.mp ran
      cases later
      exact ⟨fun open_ => absurd open_ Bool.false_ne_true, fun open_ => absurd open_ Bool.false_ne_true⟩

theorem performAll_whole {calls : List (Call Handler)}
    (ran : performAll env rounds cycles calls s = .ok s') : Whole s s' := by
  induction calls generalizing s with
  | nil =>
      cases ran
      exact whole_refl _
  | cons call calls inductionHypothesis =>
      obtain ⟨⟨rc, next⟩, first, later⟩ := running_bind_eq_ok.mp ran
      have step := perform_whole first
      have further := inductionHypothesis later
      exact ⟨fun open_ => step.isconnected (further.isconnected open_), fun open_ =>
        (step.frames (further.isconnected open_)).trans (further.frames open_)⟩

theorem MQTTConnect_ok {options : MQTTPacket_connectData MQTTString} (wellFormed : WellFormed options)
    (ran : MQTTConnect env rounds cycles options s = .ok (SUCCESS, s')) :
    ∃ packets, wire s'.log =
      wire s.log ++ streamBytes ((connectHeader, connectBody options) :: packets) := by
  rw [MQTTConnect] at ran
  by_cases connected : s.client.isconnected = true
  · rw [if_pos connected] at ran
    cases ran
  · rw [if_neg connected] at ran
    obtain ⟨⟨first, next⟩, ran, later⟩ := running_bind_eq_ok.mp ran
    obtain ⟨-, -, outcome⟩ := request_ok
      (MQTTSerialize_connect_serialized (prepareConnect env options s).client.buf wellFormed) ran
    simp only at later
    by_cases failed : first ≠ SUCCESS
    · rw [if_pos failed] at later
      cases later
      exact absurd rfl failed
    · rw [if_neg failed] at later
      obtain ⟨-, packets, wireEq⟩ := outcome.resolve_left (by
        rintro rfl
        exact failed (by decide))
      obtain ⟨⟨deserialized, data⟩, -, later⟩ := running_bind_eq_ok.mp later
      simp only at later
      split_ifs at later with refused code
      · cases later
      · have zero : (data.rc.toNat : Int) = 0 := congrArg Prod.fst (Except.ok.inj later)
        exact absurd (UInt8.toNat_inj.mp (Int.ofNat.inj zero)) code
      · cases later
        exact ⟨packets, wireEq⟩

/-- Whatever the network takes, loses or sends, and whatever the clock says: as long as a
client is connected, what the network has taken since the connection is the connect
packet and whole packets behind it. -/
theorem wire_of_connected {connected : Session World size room Handler}
    {options : MQTTPacket_connectData MQTTString} (wellFormed : WellFormed options)
    (connects : MQTTConnect env rounds cycles options s = .ok (SUCCESS, connected))
    {calls : List (Call Handler)} (ran : performAll env rounds cycles calls connected = .ok s')
    (still : s'.client.isconnected = true) :
    ∃ packets, wire s'.log =
      wire s.log ++ streamBytes ((connectHeader, connectBody options) :: packets) := by
  obtain ⟨packets, first⟩ := MQTTConnect_ok wellFormed connects
  obtain ⟨others, later⟩ := (performAll_whole ran).frames still
  refine ⟨packets ++ others, ?_⟩
  rw [later, first, streamBytes, streamBytes, streamBytes, List.flatMap_cons, List.flatMap_cons,
    List.flatMap_append]
  simp only [List.append_assoc]

end Calls

/-- A connection, a message with an acknowledgement, and a message of the client. -/
theorem wire_of_connected_two_messages :
    let answers : List UInt8 := [0x20, 2, 0, 0, 0x32, 7, 0, 1, 97, 0, 9, 1, 2]
    let calls : List (Call Nat) := [.MQTTYield 2, .MQTTPublish ⟨[97], by decide⟩ ⟨0, 0, 0, [1]⟩]
    ∃ connected s' packets,
      MQTTConnect listNetwork 3 5 MQTTPacket_connectData_initializer (listSession answers) =
        .ok (SUCCESS, connected) ∧
      performAll listNetwork 3 5 calls connected = .ok s' ∧
      wire s'.log = streamBytes
        ((connectHeader, connectBody MQTTPacket_connectData_initializer) :: packets) := by
  intro answers calls
  have ran : (match MQTTConnect listNetwork 3 5 MQTTPacket_connectData_initializer
        (listSession answers) with
      | .ok (rc, connected) =>
          match performAll listNetwork 3 5 calls connected with
          | .ok s' => rc = SUCCESS && s'.client.isconnected
          | .error _ => false
      | .error _ => false) = true := by
    decide +kernel
  split at ran
  · rename_i rc connected connects
    split at ran
    · rename_i s' performed
      obtain ⟨success, still⟩ := (Bool.and_eq_true _ _).mp ran
      obtain rfl := of_decide_eq_true success
      obtain ⟨packets, wireEq⟩ := wire_of_connected
        ⟨by decide, by decide, by decide, by decide, by decide, by decide⟩ connects performed still
      exact ⟨connected, s', packets, connects, performed, wireEq⟩
    · exact absurd ran Bool.false_ne_true
  · exact absurd ran Bool.false_ne_true

end WifiIot.Paho
