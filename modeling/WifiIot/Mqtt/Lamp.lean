import WifiIot.Machine.Run
import WifiIot.Memory.CString

/-!
# The lamp commands of the MQTT client

Each packet is received at the start of `readbuf`, over what is left of the
packets before it, and the callback takes the payload apart in place.  Neither
`strtok` nor `atoi` is told where the payload ends.

Source: `mqtt_light/mqtt_task.c`, `OnMessageArrived`, and
`mqtt_light/traffic_light.c`, `SetTrafficLight`.
-/

namespace WifiIot.Mqtt.Lamp

open Memory

def READBUF_SIZE : Nat := 512

inductive Buffer where
  | readbuf
  deriving DecidableEq

abbrev ReadBuf := Block READBUF_SIZE

/-- A packet that fits the buffer; a longer one is refused before it is read. -/
structure Packet where
  bytes : List UInt8
  fits : bytes.length ≤ READBUF_SIZE

/-- The payload is the last `payloadlen` bytes of the packet. -/
structure Publish extends Packet where
  payloadlen : Nat
  within : payloadlen ≤ bytes.length

def Publish.start (publish : Publish) : Nat := publish.bytes.length - publish.payloadlen

def Publish.payload (publish : Publish) : List UInt8 := publish.bytes.drop publish.start

/-- What the client receives; only a PUBLISH packet reaches the callback. -/
inductive Message where
  | publish (publish : Publish)
  | other (packet : Packet)

inductive GpioValue where
  | IOT_GPIO_VALUE0
  | IOT_GPIO_VALUE1
  deriving DecidableEq

inductive Action where
  | SetTrafficLight (color state : Int)
  | IoTGpioSetOutputVal (id : Nat) (val : GpioValue)
  deriving DecidableEq

def RED_GPIO : Nat := 10
def GREEN_GPIO : Nat := 11
def YELLOW_GPIO : Nat := 12

/-- A lamp is lit by every state except 1. -/
def gpioValue (state : Int) : GpioValue := if state = 1 then .IOT_GPIO_VALUE0 else .IOT_GPIO_VALUE1

def SetTrafficLight (color state : Int) : List Action :=
  if color = 1 then [.IoTGpioSetOutputVal RED_GPIO (gpioValue state)]
  else if color = 2 then [.IoTGpioSetOutputVal GREEN_GPIO (gpioValue state)]
  else if color = 3 then [.IoTGpioSetOutputVal YELLOW_GPIO (gpioValue state)]
  else []

/-- The byte `,`. -/
def comma : UInt8 := 44

def isComma (byte : UInt8) : Bool := byte == comma

section Callback

variable (overflow : Int → Int)

/-- The number in a token, and 0 if `strtok` returned none. -/
def number (text : ReadBuf) : Option Nat → Checked Buffer Int
  | none => .ok 0
  | some p => atoi .readbuf overflow text p

def command (color state : Int) : List Action :=
  if color = 0 ∨ state = 0 then [] else .SetTrafficLight color state :: SetTrafficLight color state

/-- The callback, from the position of the payload in `readbuf`. -/
def OnMessageArrived (readbuf : ReadBuf) (payload : Nat) :
    Checked Buffer (ReadBuf × List Action) := do
  let first ← strtok .readbuf isComma readbuf (some payload)
  let color ← number overflow first.text first.token
  let second ← strtok .readbuf isComma first.text first.rest
  let state ← number overflow second.text second.token
  pure (second.text, command color state)

/-- A packet is written over the start of the buffer; the rest stays. -/
def receive (readbuf : ReadBuf) (packet : Packet) : ReadBuf :=
  readbuf.patch 0 packet.bytes.length fun k => packet.bytes.getD k 0

/-- Undefined where the callback reads outside of `readbuf`. -/
def step (readbuf : ReadBuf) : Message → Option (ReadBuf × List Action)
  | .other packet => some (receive readbuf packet, [])
  | .publish publish =>
      match OnMessageArrived overflow (receive readbuf publish.toPacket) publish.start with
      | .ok (text, actions) => some (text, actions)
      | .error _ => none

def machine : Machine ReadBuf Message Action := ⟨step overflow⟩

def boot : ReadBuf := fun _ => 0

/-! ## The law -/

/-- Whatever was received before, the callback does the same for the packet. -/
def Independent (publish : Publish) : Prop :=
  ∀ firstHistory secondHistory first second firstLog secondLog,
    (machine overflow).Run boot firstHistory first firstLog →
    (machine overflow).Run boot secondHistory second secondLog →
    ∃ actions firstNext secondNext,
      step overflow first (.publish publish) = some (firstNext, actions) ∧
      step overflow second (.publish publish) = some (secondNext, actions)

end Callback

/-- The payload has a NUL, or a comma behind each of two tokens. -/
def Terminated (payload : List UInt8) : Prop :=
  0 ∈ payload ∨
    ∃ first stop second last, first < stop ∧ stop < second ∧ second < last ∧
      last < payload.length ∧ payload.getD first 0 ≠ comma ∧ payload.getD stop 0 = comma ∧
      payload.getD second 0 ≠ comma ∧ payload.getD last 0 = comma

/-! ## The buffer after a packet -/

section Receiving

variable {readbuf : ReadBuf} {publish : Publish}

theorem byteAt_receive {packet : Packet} {k : Nat} (inside : k < READBUF_SIZE) :
    (receive readbuf packet).byteAt k =
      if k < packet.bytes.length then packet.bytes.getD k 0 else readbuf.byteAt k := by
  rw [receive, Block.byteAt_patch inside]
  simp

theorem Publish.start_add (publish : Publish) (k : Nat) :
    publish.start + k < publish.bytes.length ↔ k < publish.payload.length := by
  have := publish.within
  simp only [Publish.payload, Publish.start, List.length_drop]
  omega

theorem byteAt_payload {k : Nat} (inside : k < publish.payload.length) :
    (receive readbuf publish.toPacket).byteAt (publish.start + k) = publish.payload.getD k 0 := by
  have position := (publish.start_add k).mpr inside
  rw [byteAt_receive (lt_of_lt_of_le position publish.fits), if_pos position]
  simp [Publish.payload, List.getD_eq_getElem?_getD]

theorem receive_agree (first second : ReadBuf) (publish : Publish) :
    Agree publish.start publish.bytes.length (receive first publish.toPacket)
      (receive second publish.toPacket) := by
  intro k _ before
  have inside := lt_of_lt_of_le before publish.fits
  rw [byteAt_receive inside, byteAt_receive inside, if_pos before, if_pos before]

theorem zero_mem_payload_iff :
    0 ∈ publish.payload ↔ Stops (· == 0) (receive readbuf publish.toPacket) publish.start
      publish.bytes.length := by
  constructor
  · intro membership
    obtain ⟨k, inside, zero⟩ := List.mem_iff_getElem.mp membership
    refine ⟨publish.start + k, by omega, (publish.start_add k).mpr inside, ?_⟩
    rw [byteAt_payload inside, ← List.getElem_eq_getD (h := inside) 0, zero]
    rfl
  · rintro ⟨position, after, before, zero⟩
    obtain ⟨k, rfl⟩ := Nat.exists_eq_add_of_le after
    have inside := (publish.start_add k).mp before
    rw [byteAt_payload inside] at zero
    rw [List.mem_iff_getElem]
    refine ⟨k, inside, ?_⟩
    rw [List.getElem_eq_getD (h := inside) 0]
    simpa using zero

end Receiving

/-! ## The callback on texts that agree -/

/-- A NUL, or a comma behind each of two tokens, between `start` and `limit`. -/
def Complete (text : ReadBuf) (start limit : Nat) : Prop :=
  Stops (· == 0) text start limit ∨
    ∃ first stop second last, start ≤ first ∧ first < stop ∧ stop < second ∧ second < last ∧
      last < limit ∧ isComma (text.byteAt first) = false ∧ isComma (text.byteAt stop) = true ∧
      isComma (text.byteAt second) = false ∧ isComma (text.byteAt last) = true

theorem isComma_eq_true_iff {byte : UInt8} : isComma byte = true ↔ byte = comma := by
  simp [isComma]

theorem isComma_eq_false_iff {byte : UInt8} : isComma byte = false ↔ byte ≠ comma := by
  simp [isComma]

theorem isComma_zero : isComma 0 = false := rfl

section Agreement

variable {overflow : Int → Int} {text left right : ReadBuf} {start last limit : Nat}
  {parsed other : Parsed READBUF_SIZE}

theorem Complete.delimited (complete : Complete text start limit) :
    Delimited isComma text start limit := by
  rcases complete with nul | ⟨first, stop, second, last, after, inToken, _, _, before, token, ended, _⟩
  · exact .inl nul
  · exact .inr ⟨first, stop, after, inToken, by omega, token, ended⟩

/-- The rest behind the first token has a NUL or a comma behind the second one. -/
theorem Complete.rest_delimited (complete : Complete text start limit)
    (inside : limit ≤ READBUF_SIZE) (tokenized : Tokenized isComma text start last parsed)
    {rest : Nat} (kept : parsed.rest = some rest) :
    Delimited isComma parsed.text rest limit := by
  obtain ⟨rfl, ⟨token, skipped, ended, _, _⟩, nonzero, unchanged⟩ :=
    tokenized.rest_begins isComma_zero kept
  rcases complete with ⟨k, after, before, zero⟩ |
    ⟨first, stop, second, final, after, inToken, behind, inSecond, before, isFirst, isStop, isSecond, isFinal⟩
  · -- the first call passed no NUL
    have behind : last < k := by
      by_contra passed
      exact nonzero k after (not_lt.mp passed) (by simpa using zero)
    refine .inl ⟨k, behind, before, ?_⟩
    rw [unchanged k behind (by omega)]
    exact zero
  · -- the first call stopped at the first comma behind a token, or before it
    have startsEarly : token ≤ first := skipped.le_of_stop after (by simp [isFirst])
    have stopsEarly : last ≤ stop := ended.le_of_stop (by omega) (by simp [ends, isStop])
    refine .inr ⟨second, final, by omega, inSecond, before, ?_, ?_⟩
    · rw [unchanged second (by omega) (by omega)]
      exact isSecond
    · rw [unchanged final (by omega) (by omega)]
      exact isFinal

theorem number_agree (overflow : Int → Int)
    (tokenized : Tokenized isComma text start last parsed) (before : last < limit)
    (inside : limit ≤ READBUF_SIZE) (sameToken : other.token = parsed.token)
    (agree : Agree start limit parsed.text other.text) :
    ∃ value, number overflow parsed.text parsed.token = .ok value ∧
      number overflow other.text other.token = .ok value := by
  rw [sameToken]
  cases returned : parsed.token with
  | none => exact ⟨0, rfl, rfl⟩
  | some token =>
      obtain ⟨after, upTo, nul⟩ := tokenized.token_ends returned
      exact atoi_agree (agree.mono after) inside ⟨last, upTo, before, by simp [nul]⟩

theorem strtok_agree (overflow : Int → Int) (agree : Agree start limit left right)
    (inside : limit ≤ READBUF_SIZE) (delimited : Delimited isComma left start limit) :
    ∃ last parsed other value, Tokenized isComma left start last parsed ∧
      strtok Buffer.readbuf isComma left (some start) = .ok parsed ∧
      strtok Buffer.readbuf isComma right (some start) = .ok other ∧
      number overflow parsed.text parsed.token = .ok value ∧
      number overflow other.text other.token = .ok value ∧
      other.rest = parsed.rest ∧ Agree start limit parsed.text other.text := by
  obtain ⟨last, parsed, tokenized, before⟩ :=
    Tokenized.exists_of_delimited delimited isComma_zero inside
  obtain ⟨other, tokenizedRight, sameToken, sameRest, agreeAfter⟩ :=
    tokenized.agree agree before inside
  obtain ⟨value, numberLeft, numberRight⟩ :=
    number_agree overflow tokenized before inside sameToken agreeAfter
  exact ⟨last, parsed, other, value, tokenized, strtok_eq_ok_iff.mpr ⟨last, tokenized⟩,
    strtok_eq_ok_iff.mpr ⟨last, tokenizedRight⟩, numberLeft, numberRight, sameRest, agreeAfter⟩

/-- The callback looks at no byte behind a complete text. -/
theorem OnMessageArrived_agree (overflow : Int → Int) (agree : Agree start limit left right)
    (inside : limit ≤ READBUF_SIZE) (complete : Complete left start limit) :
    ∃ actions leftNext rightNext,
      OnMessageArrived overflow left start = .ok (leftNext, actions) ∧
      OnMessageArrived overflow right start = .ok (rightNext, actions) := by
  obtain ⟨last, first, firstRight, color, tokenized, parsedLeft, parsedRight, colorLeft, colorRight,
    sameRest, agreeAfter⟩ := strtok_agree overflow agree inside complete.delimited
  simp only [OnMessageArrived, parsedLeft, parsedRight, ok_bind, colorLeft, colorRight, sameRest]
  cases kept : first.rest with
  | none => exact ⟨command color 0, first.text, firstRight.text, rfl, rfl⟩
  | some rest =>
      have later : start ≤ rest := by
        obtain ⟨rfl, -⟩ := tokenized.rest_begins isComma_zero kept
        exact le_trans tokenized.start_le (Nat.le_succ last)
      obtain ⟨_, second, secondRight, state, _, parsedLeft, parsedRight, stateLeft, stateRight, -⟩ :=
        strtok_agree overflow (agreeAfter.mono later) inside
          (complete.rest_delimited inside tokenized kept)
      simp only [parsedLeft, parsedRight, ok_bind, stateLeft, stateRight]
      exact ⟨command color state, second.text, secondRight.text, rfl, rfl⟩

/-- A callback that returns on a text with neither a NUL nor a comma from
`limit` on found all it needs before. -/
theorem complete_of_OnMessageArrived {result : ReadBuf × List Action}
    (returned : OnMessageArrived overflow text start = .ok result)
    (blank : ∀ k, limit ≤ k → k < READBUF_SIZE → ends isComma (text.byteAt k) = false) :
    Complete text start limit := by
  have before_limit : ∀ {k}, k < READBUF_SIZE → ends isComma (text.byteAt k) = true → k < limit := by
    intro k within ended
    by_contra behind
    rw [blank k (not_lt.mp behind) within] at ended
    cases ended
  have complete_of_zero : ∀ {k}, start ≤ k → k < READBUF_SIZE → text.byteAt k = 0 →
      Complete text start limit := by
    intro k after within zero
    exact .inl ⟨k, after, before_limit within (by simp [ends, zero]), by simp [zero]⟩
  simp only [OnMessageArrived, bind_eq_ok_iff] at returned
  obtain ⟨first, parsedFirst, _, -, second, parsedSecond, -⟩ := returned
  obtain ⟨last, tokenized⟩ := strtok_eq_ok_iff.mp parsedFirst
  rcases tokenized.zero_or_rest with zero | kept
  · exact complete_of_zero tokenized.start_le tokenized.last_lt zero
  obtain ⟨-, ⟨token, skipped, _, inToken, isStop⟩, -, unchanged⟩ :=
    tokenized.rest_begins isComma_zero kept
  rw [kept] at parsedSecond
  obtain ⟨final, tokenizedSecond⟩ := strtok_eq_ok_iff.mp parsedSecond
  have firstAfter := skipped.le
  have secondAfter := tokenizedSecond.start_le
  have same := unchanged final (by omega) tokenizedSecond.last_lt
  rcases tokenizedSecond.zero_or_rest with zero | kept
  · exact complete_of_zero (by omega) tokenizedSecond.last_lt (same ▸ zero)
  obtain ⟨-, ⟨tokenSecond, skippedSecond, _, inSecond, isFinal⟩, -, -⟩ :=
    tokenizedSecond.rest_begins isComma_zero kept
  have isSecond := skippedSecond.found
  rw [unchanged tokenSecond (by have := skippedSecond.le; omega) skippedSecond.lt] at isSecond
  rw [same] at isFinal
  exact .inr ⟨token, last, tokenSecond, final, firstAfter, inToken, skippedSecond.le, inSecond,
    before_limit tokenizedSecond.last_lt (by simp [ends, isFinal]), by simpa using skipped.found,
    isStop, by simpa using isSecond, isFinal⟩

end Agreement

/-! ## Payloads -/

theorem terminated_iff_complete {readbuf : ReadBuf} {publish : Publish} :
    Terminated publish.payload ↔
      Complete (receive readbuf publish.toPacket) publish.start publish.bytes.length := by
  refine or_congr zero_mem_payload_iff ?_
  simp only [isComma_eq_true_iff, isComma_eq_false_iff]
  constructor
  · rintro ⟨first, stop, second, last, inFirst, behind, inSecond, inside, isFirst, isStop, isSecond, isLast⟩
    refine ⟨publish.start + first, publish.start + stop, publish.start + second,
      publish.start + last, Nat.le_add_right .., by omega, by omega, by omega,
      (publish.start_add last).mpr inside, ?_⟩
    rw [byteAt_payload (by omega), byteAt_payload (by omega), byteAt_payload (by omega),
      byteAt_payload inside]
    exact ⟨isFirst, isStop, isSecond, isLast⟩
  · rintro ⟨first, stop, second, last, after, inFirst, behind, inSecond, inside, holds⟩
    obtain ⟨first, rfl⟩ := Nat.exists_eq_add_of_le after
    obtain ⟨stop, rfl⟩ := Nat.exists_eq_add_of_le (show publish.start ≤ stop by omega)
    obtain ⟨second, rfl⟩ := Nat.exists_eq_add_of_le (show publish.start ≤ second by omega)
    obtain ⟨last, rfl⟩ := Nat.exists_eq_add_of_le (show publish.start ≤ last by omega)
    have inPayload := (publish.start_add last).mp inside
    rw [byteAt_payload (by omega), byteAt_payload (by omega), byteAt_payload (by omega),
      byteAt_payload inPayload] at holds
    exact ⟨first, stop, second, last, by omega, by omega, by omega, inPayload, holds⟩

/-- A PUBCOMP packet of 512 bytes, 509 of them behind its fixed header. -/
def longest : Packet where
  bytes := [0x70, 0xfd, 0x03] ++ List.replicate 509 0x78
  fits := by rw [List.length_append, List.length_replicate]; decide

theorem longest_length : longest.bytes.length = READBUF_SIZE := by
  rw [longest, List.length_append, List.length_replicate]
  rfl

theorem longest_blank (readbuf : ReadBuf) {k : Nat} (inside : k < READBUF_SIZE) :
    ends isComma ((receive readbuf longest).byteAt k) = false := by
  have membership : (receive readbuf longest).byteAt k ∈ longest.bytes := by
    have within : k < longest.bytes.length := longest_length ▸ inside
    rw [byteAt_receive inside, if_pos within, ← List.getElem_eq_getD (h := within) 0]
    exact List.getElem_mem within
  have clean : ∀ byte ∈ longest.bytes, ends isComma byte = false := by
    intro byte membership
    rcases List.mem_append.mp membership with header | filler
    · have values : byte = 0x70 ∨ byte = 0xfd ∨ byte = 0x03 := by simpa using header
      rcases values with rfl | rfl | rfl <;> rfl
    · rw [List.eq_of_mem_replicate filler]
      rfl
  exact clean _ membership

/-- The callback depends on nothing but its own message exactly when the payload
itself stops the scans. -/
theorem command_independent_iff (overflow : Int → Int) (publish : Publish) :
    Independent overflow publish ↔ Terminated publish.payload := by
  constructor
  · intro independent
    have run : (machine overflow).Run boot [.other longest] (receive boot longest) [] :=
      Machine.Run.single rfl
    obtain ⟨actions, next, _, stepped, -⟩ := independent _ _ _ _ _ _ run run
    have returned : OnMessageArrived overflow (receive (receive boot longest) publish.toPacket)
        publish.start = .ok (next, actions) := by
      simp only [step] at stepped
      split at stepped
      · rename_i returned
        cases stepped
        exact returned
      · cases stepped
    refine terminated_iff_complete.mpr (complete_of_OnMessageArrived returned ?_)
    intro k behind inside
    rw [byteAt_receive inside, if_neg (not_lt.mpr behind)]
    exact longest_blank boot inside
  · intro terminated _ _ first second _ _ _ _
    obtain ⟨actions, firstNext, secondNext, returnedFirst, returnedSecond⟩ :=
      OnMessageArrived_agree overflow (receive_agree first second publish) publish.fits
        (terminated_iff_complete.mp terminated)
    exact ⟨actions, firstNext, secondNext, by rw [step, returnedFirst], by rw [step, returnedSecond]⟩

/-- A PUBLISH packet of quality of service 0 for the topic `t`. -/
def shortCommand : Publish where
  bytes := [0x30, 6, 0, 1, 0x74, 0x31, 0x2c, 0x31]
  fits := by decide
  payloadlen := 3
  within := by decide

def longCommand : Publish where
  bytes := [0x30, 7, 0, 1, 0x74, 0x31, 0x2c, 0x31, 0x32]
  fits := by decide
  payloadlen := 4
  within := by decide

/-- The message `1,1` switches the red lamp off, but on after the message `1,12`,
whose last digit is still in the buffer. -/
theorem stale_digit_read :
    (step id boot (.publish shortCommand)).map Prod.snd =
        some [.SetTrafficLight 1 1, .IoTGpioSetOutputVal RED_GPIO .IOT_GPIO_VALUE0] ∧
      ((step id boot (.publish longCommand)).bind fun after =>
          (step id after.1 (.publish shortCommand)).map Prod.snd) =
        some [.SetTrafficLight 1 12, .IoTGpioSetOutputVal RED_GPIO .IOT_GPIO_VALUE1] ∧
      ¬ Independent id shortCommand := by
  have alone : (step id boot (.publish shortCommand)).map Prod.snd =
      some [.SetTrafficLight 1 1, .IoTGpioSetOutputVal RED_GPIO .IOT_GPIO_VALUE0] := by
    decide +kernel
  have behind : ((step id boot (.publish longCommand)).bind fun after =>
        (step id after.1 (.publish shortCommand)).map Prod.snd) =
      some [.SetTrafficLight 1 12, .IoTGpioSetOutputVal RED_GPIO .IOT_GPIO_VALUE1] := by
    decide +kernel
  refine ⟨alone, behind, ?_⟩
  intro independent
  obtain ⟨after, stepped, observed⟩ := Option.bind_eq_some_iff.mp behind
  obtain ⟨actions, _, _, first, second⟩ :=
    independent [] [.publish longCommand] _ _ _ _ .refl (Machine.Run.single stepped)
  rw [first] at alone
  rw [second] at observed
  rw [Option.map_some] at alone observed
  have same := alone.symm.trans observed
  revert same
  decide

end WifiIot.Mqtt.Lamp
