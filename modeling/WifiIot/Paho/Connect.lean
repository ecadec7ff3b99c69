import WifiIot.Paho.Packet

/-!
# Connecting

The connect packet of a client and what a server reads of it.  The reader asks
for a byte in each name and password that the flags announce, so that it does not
accept everything that the writer puts into a packet; what it accepts comes back
as it was written.

Source: `paho_mqtt/MQTTPacket/src/MQTTConnect.h`, `MQTTConnectClient.c`,
`MQTTConnectServer.c`.
-/

namespace WifiIot.Paho

open Memory Wire

variable {size : Nat}

/-- The flags of a connect packet, from the second lowest bit on. -/
structure MQTTConnectFlags where
  cleansession : Nat := 0
  will : Nat := 0
  willQoS : Nat := 0
  willRetain : Nat := 0
  password : Nat := 0
  username : Nat := 0
  deriving DecidableEq

namespace MQTTConnectFlags

def all (flags : MQTTConnectFlags) : UInt8 :=
  UInt8.ofNat (flags.cleansession % 2 * 2 + flags.will % 2 * 4 + flags.willQoS % 4 * 8 +
    flags.willRetain % 2 * 32 + flags.password % 2 * 64 + flags.username % 2 * 128)

def ofByte (byte : UInt8) : MQTTConnectFlags where
  cleansession := byte.toNat / 2 % 2
  will := byte.toNat / 4 % 2
  willQoS := byte.toNat / 8 % 4
  willRetain := byte.toNat / 32 % 2
  password := byte.toNat / 64 % 2
  username := byte.toNat / 128

theorem ofByte_all (flags : MQTTConnectFlags) : ofByte flags.all =
    ⟨flags.cleansession % 2, flags.will % 2, flags.willQoS % 4, flags.willRetain % 2,
      flags.password % 2, flags.username % 2⟩ := by
  have whole : flags.all.toNat = flags.cleansession % 2 * 2 + flags.will % 2 * 4 +
      flags.willQoS % 4 * 8 + flags.willRetain % 2 * 32 + flags.password % 2 * 64 +
      flags.username % 2 * 128 := by
    rw [all, UInt8.toNat_ofNat']
    omega
  rw [ofByte, whole, MQTTConnectFlags.mk.injEq]
  omega

end MQTTConnectFlags

structure MQTTPacket_willOptions (Str : Type) where
  topicName : Str
  message : Str
  retained : Nat := 0
  qos : Nat := 0

/-- The options of a client, and what a server reads of them. -/
structure MQTTPacket_connectData (Str : Type) where
  MQTTVersion : Nat := 4
  clientID : Str
  keepAliveInterval : UInt16 := 60
  cleansession : Nat := 1
  willFlag : Nat := 0
  will : MQTTPacket_willOptions Str
  username : Str
  password : Str

/-- `MQTTPacket_connectData_initializer` -/
def MQTTPacket_connectData_initializer : MQTTPacket_connectData MQTTString where
  clientID := {}
  will := { topicName := {}, message := {} }
  username := {}
  password := {}

def MQTTString.given (mqttstring : MQTTString) : Bool :=
  mqttstring.cstring.isSome || mqttstring.lenstring.isSome

/-! ## The client -/

def MQTTSerialize_connectLength (options : MQTTPacket_connectData MQTTString) : Nat :=
  let len := if options.MQTTVersion = 3 then 12 else if options.MQTTVersion = 4 then 10 else 0
  let len := len + (MQTTstrlen options.clientID + 2)
  let len := if options.willFlag ≠ 0 then
    len + (MQTTstrlen options.will.topicName + 2 + MQTTstrlen options.will.message + 2) else len
  let len := if options.username.given then len + (MQTTstrlen options.username + 2) else len
  if options.password.given then len + (MQTTstrlen options.password + 2) else len

def nameMQTT : Text := ⟨[0x4d, 0x51, 0x54, 0x54], by decide⟩
def nameMQIsdp : Text := ⟨[0x4d, 0x51, 0x49, 0x73, 0x64, 0x70], by decide⟩

def connectFlags (options : MQTTPacket_connectData MQTTString) : MQTTConnectFlags :=
  let flags : MQTTConnectFlags :=
    { cleansession := options.cleansession, will := if options.willFlag ≠ 0 then 1 else 0 }
  let flags := if flags.will ≠ 0 then
    { flags with willQoS := options.will.qos, willRetain := options.will.retained } else flags
  let flags := if options.username.given then { flags with username := 1 } else flags
  if options.password.given then { flags with password := 1 } else flags

/-- The part of `MQTTSerialize_connect` for the will. -/
def writeWill (options : MQTTPacket_connectData MQTTString) (ptr : Output size) :
    Checked Buffer (Output size) :=
  if options.willFlag ≠ 0 then do
    let ptr ← writeMQTTString options.will.topicName ptr
    writeMQTTString options.will.message ptr
  else .ok ptr

/-- A name or a password, if its flag is set. -/
def writeCredential (flag : Nat) (mqttstring : MQTTString) (ptr : Output size) :
    Checked Buffer (Output size) :=
  if flag ≠ 0 then writeMQTTString mqttstring ptr else .ok ptr

def MQTTSerialize_connect (buf : Block size) (options : MQTTPacket_connectData MQTTString) :
    Checked Buffer (Int × Block size) :=
  let len := MQTTSerialize_connectLength options
  if MQTTPacket_len len > size then .ok (MQTTPACKET_BUFFER_TOO_SHORT, buf)
  else do
    let header : MQTTHeader := { type := msgTypes.CONNECT.code }
    let ptr ← writeChar header.byte ⟨buf, 0⟩
    let ptr ← MQTTPacket_encode len ptr
    let four := options.MQTTVersion = 4
    let ptr ← writeCString (if four then nameMQTT else nameMQIsdp) ptr
    let ptr ← writeChar (if four then 4 else 3) ptr
    let flags := connectFlags options
    let ptr ← writeChar flags.all ptr
    let ptr ← writeInt options.keepAliveInterval.toNat ptr
    let ptr ← writeMQTTString options.clientID ptr
    let ptr ← writeWill options ptr
    let ptr ← writeCredential flags.username options.username ptr
    let ptr ← writeCredential flags.password options.password ptr
    .ok (ptr.ptr, ptr.block)

structure MQTTConnackData where
  rc : UInt8 := 0
  sessionPresent : Nat := 0
  deriving DecidableEq

/-- Where the packet is too short, the number of bytes of the remaining length is
returned, which may be 1 as well. -/
def MQTTDeserialize_connack (connack : MQTTConnackData) (buf : Block size) :
    Checked Buffer (Int × MQTTConnackData) := do
  let (byte, curdata) ← readChar buf 0
  if (MQTTHeader.ofByte byte).type ≠ msgTypes.CONNACK.code then .ok (0, connack)
  else
    let mylen ← MQTTPacket_decodeBuf buf curdata
    let curdata := curdata + mylen.len
    let enddata := curdata + mylen.value
    if (enddata : Int) - curdata < 2 then .ok (mylen.len, connack)
    else
      let (flags, curdata) ← readChar buf curdata
      let (connack_rc, _) ← readChar buf curdata
      .ok (1, ⟨connack_rc, flags.toNat % 2⟩)

def MQTTSerialize_zero (buf : Block size) (packettype : msgTypes) :
    Checked Buffer (Int × Block size) :=
  if size < 2 then .ok (MQTTPACKET_BUFFER_TOO_SHORT, buf)
  else do
    let header : MQTTHeader := { type := packettype.code }
    let ptr ← writeChar header.byte ⟨buf, 0⟩
    let ptr ← MQTTPacket_encode 0 ptr
    .ok (ptr.ptr, ptr.block)

def MQTTSerialize_disconnect (buf : Block size) : Checked Buffer (Int × Block size) :=
  MQTTSerialize_zero buf .DISCONNECT

def MQTTSerialize_pingreq (buf : Block size) : Checked Buffer (Int × Block size) :=
  MQTTSerialize_zero buf .PINGREQ

/-! ## The server -/

/-- `memcmp` with the shorter of the two lengths. -/
def matchesName (buf : Block size) (protocol : MQTTLenString) (name : Text) : Checked Buffer Bool := do
  let bytes ← readBytes (fun k => buf.read .buf (protocol.data + k)) (min (strlen name) protocol.len)
  .ok (decide (bytes = name.val.take protocol.len))

def MQTTPacket_checkVersion (buf : Block size) (protocol : MQTTLenString) (version : Nat) :
    Checked Buffer Bool :=
  if version = 3 then matchesName buf protocol nameMQIsdp
  else if version = 4 then matchesName buf protocol nameMQTT
  else .ok false

/-- The part of `MQTTDeserialize_connect` for the will. -/
def readWill (flags : MQTTConnectFlags) (will : MQTTPacket_willOptions MQTTLenString)
    (buf : Block size) (curdata enddata : Nat) :
    Checked Buffer (Bool × MQTTPacket_willOptions MQTTLenString × Nat) :=
  if flags.will ≠ 0 then do
    let will := { will with qos := flags.willQoS, retained := flags.willRetain }
    let topicName ← readMQTTLenString will.topicName buf curdata enddata
    let will := { will with topicName := topicName.string }
    if topicName.rc then
      let message ← readMQTTLenString will.message buf topicName.ptr enddata
      .ok (message.rc, { will with message := message.string }, message.ptr)
    else .ok (false, will, topicName.ptr)
  else .ok (true, will, curdata)

/-- A name or a password, which has at least one byte. -/
def readCredential (mqttstring : MQTTLenString) (buf : Block size) (curdata enddata : Nat) :
    Checked Buffer LenString :=
  if (enddata : Int) - curdata < 3 then .ok ⟨false, mqttstring, curdata⟩
  else readMQTTLenString mqttstring buf curdata enddata

def MQTTDeserialize_connect (data : MQTTPacket_connectData MQTTLenString) (buf : Block size)
    (len : Nat) : Checked Buffer (Int × MQTTPacket_connectData MQTTLenString) := do
  let enddata := len
  let (byte, curdata) ← readChar buf 0
  if (MQTTHeader.ofByte byte).type ≠ msgTypes.CONNECT.code then .ok (0, data)
  else
    let mylen ← MQTTPacket_decodeBuf buf curdata
    let Protocol ← readMQTTLenString {} buf (curdata + mylen.len) enddata
    if !Protocol.rc || (enddata : Int) - Protocol.ptr < 0 then .ok (0, data)
    else
      let (version, curdata) ← readChar buf Protocol.ptr
      let known ← MQTTPacket_checkVersion buf Protocol.string version.toNat
      if known then
        let (byte, curdata) ← readChar buf curdata
        let flags := MQTTConnectFlags.ofByte byte
        let (keepAliveInterval, curdata) ← readInt buf curdata
        let clientID ← readMQTTLenString data.clientID buf curdata enddata
        let data := { data with
          cleansession := flags.cleansession, keepAliveInterval := UInt16.ofNat keepAliveInterval
          clientID := clientID.string }
        if clientID.rc then
          let (there, will, curdata) ← readWill flags data.will buf clientID.ptr enddata
          let data := { data with willFlag := flags.will, will := will }
          if there then
            if flags.username ≠ 0 then
              let username ← readCredential data.username buf curdata enddata
              let data := { data with username := username.string }
              if username.rc then
                if flags.password ≠ 0 then
                  let password ← readCredential data.password buf username.ptr enddata
                  .ok (if password.rc then 1 else 0, { data with password := password.string })
                else .ok (1, data)
              else .ok (0, data)
            else .ok (if flags.password ≠ 0 then 0 else 1, data)
          else .ok (0, data)
        else .ok (0, data)
      else .ok (0, data)

def MQTTSerialize_connack (buf : Block size) (connack_rc : UInt8) (sessionPresent : Nat) :
    Checked Buffer (Int × Block size) :=
  if size < 2 then .ok (MQTTPACKET_BUFFER_TOO_SHORT, buf)
  else do
    let header : MQTTHeader := { type := msgTypes.CONNACK.code }
    let ptr ← writeChar header.byte ⟨buf, 0⟩
    let ptr ← MQTTPacket_encode 2 ptr
    let ptr ← writeChar (UInt8.ofNat (sessionPresent % 2)) ptr
    let ptr ← writeChar connack_rc ptr
    .ok (ptr.ptr, ptr.block)

/-! ## The bytes of a connect packet -/

def versionBytes (MQTTVersion : Nat) : List UInt8 :=
  stringBytes (if MQTTVersion = 4 then nameMQTT else nameMQIsdp).val ++
    [if MQTTVersion = 4 then 4 else 3]

def willBytes (options : MQTTPacket_connectData MQTTString) : List UInt8 :=
  if options.willFlag ≠ 0 then
    stringBytes options.will.topicName.content ++ stringBytes options.will.message.content
  else []

def credentialBytes (mqttstring : MQTTString) : List UInt8 :=
  if mqttstring.given then stringBytes mqttstring.content else []

def connectBody (options : MQTTPacket_connectData MQTTString) : List UInt8 :=
  versionBytes options.MQTTVersion ++ ([(connectFlags options).all] ++
    (intBytes options.keepAliveInterval.toNat ++ (stringBytes options.clientID.content ++
      (willBytes options ++ (credentialBytes options.username ++ credentialBytes options.password)))))

def MQTTPacket_connectData.strings (options : MQTTPacket_connectData MQTTString) : List MQTTString :=
  [options.clientID, options.username, options.password] ++
    if options.willFlag ≠ 0 then [options.will.topicName, options.will.message] else []

structure WellFormed (options : MQTTPacket_connectData MQTTString) : Prop where
  version : options.MQTTVersion = 3 ∨ options.MQTTVersion = 4
  cleansession : options.cleansession < 2
  qos : options.will.qos < 4
  retained : options.will.retained < 2
  single : ∀ string ∈ options.strings, string.Single
  short : ∀ string ∈ options.strings, string.content.length < 65536

section Connect

variable {options : MQTTPacket_connectData MQTTString}

theorem connectFlags_eq (options : MQTTPacket_connectData MQTTString) : connectFlags options =
    ⟨options.cleansession, if options.willFlag ≠ 0 then 1 else 0,
      if options.willFlag ≠ 0 then options.will.qos else 0,
      if options.willFlag ≠ 0 then options.will.retained else 0,
      if options.password.given then 1 else 0, if options.username.given then 1 else 0⟩ := by
  unfold connectFlags
  by_cases will : options.willFlag ≠ 0
  · cases options.username.given <;> cases options.password.given <;> simp [will]
  · cases options.username.given <;> cases options.password.given <;> simp [will]

theorem ofByte_connectFlags (wellFormed : WellFormed options) :
    MQTTConnectFlags.ofByte (connectFlags options).all = connectFlags options := by
  rw [MQTTConnectFlags.ofByte_all, connectFlags_eq]
  simp only [MQTTConnectFlags.mk.injEq]
  have cleansession := wellFormed.cleansession
  have qos := wellFormed.qos
  have retained := wellFormed.retained
  refine ⟨by omega, ?_, ?_, ?_, ?_, ?_⟩ <;> split_ifs <;> omega

theorem length_connectBody (wellFormed : WellFormed options) :
    (connectBody options).length = MQTTSerialize_connectLength options := by
  obtain ⟨version, -, -, -, single, -⟩ := wellFormed
  have clientID : MQTTstrlen options.clientID = _ := single _ (by simp [MQTTPacket_connectData.strings])
  have username : MQTTstrlen options.username = _ := single _ (by simp [MQTTPacket_connectData.strings])
  have password : MQTTstrlen options.password = _ := single _ (by simp [MQTTPacket_connectData.strings])
  have name : (versionBytes options.MQTTVersion).length + 3 =
      if options.MQTTVersion = 3 then 12 else if options.MQTTVersion = 4 then 10 else 0 := by
    rcases version with three | four
    · rw [three]
      decide
    · rw [four]
      decide
  have will : (willBytes options).length = if options.willFlag ≠ 0 then
      MQTTstrlen options.will.topicName + 2 + MQTTstrlen options.will.message + 2 else 0 := by
    rw [willBytes]
    split
    · rename_i given
      have topicName : MQTTstrlen options.will.topicName = _ :=
        single _ (by simp [MQTTPacket_connectData.strings, given])
      have message : MQTTstrlen options.will.message = _ :=
        single _ (by simp [MQTTPacket_connectData.strings, given])
      rw [topicName, message, List.length_append, length_stringBytes, length_stringBytes]
      omega
    · rfl
  have credential : ∀ {mqttstring : MQTTString}, MQTTstrlen mqttstring = mqttstring.content.length →
      (credentialBytes mqttstring).length =
        if mqttstring.given then MQTTstrlen mqttstring + 2 else 0 := by
    intro mqttstring single
    rw [credentialBytes]
    split
    · rw [length_stringBytes, single, Nat.add_comm]
    · rfl
  simp only [connectBody, List.length_append, length_stringBytes, length_intBytes, List.length_singleton,
    will, credential username, credential password, MQTTSerialize_connectLength, ← name, clientID]
  split_ifs <;> omega

theorem writeWill_eq (output : Output size) :
    writeWill options output = output.emit .buf (willBytes options) := by
  rw [writeWill, willBytes]
  split
  · rw [Output.emit_append, writeMQTTString_eq]
    exact bind_congr fun next => writeMQTTString_eq _
  · rfl

theorem writeCredential_eq (mqttstring : MQTTString) (output : Output size) :
    writeCredential (if mqttstring.given then 1 else 0) mqttstring output =
      output.emit .buf (credentialBytes mqttstring) := by
  rw [credentialBytes]
  cases mqttstring.given with
  | true => exact writeMQTTString_eq _
  | false => rfl

def connectHeader : MQTTHeader := { type := msgTypes.CONNECT.code }

theorem MQTTSerialize_connect_serialized (buf : Block size) (wellFormed : WellFormed options) :
    MQTTSerialize_connect buf options =
      serialized buf (MQTTPacket_len (connectBody options).length) connectHeader
        (connectBody options) := by
  have length := length_connectBody wellFormed
  apply serialized_of_emit
  · intro short
    rw [MQTTSerialize_connect, if_pos (by rwa [← length])]
  · intro enough
    rw [MQTTSerialize_connect, if_neg (by rwa [← length]), ← length]
    have username : ∀ output : Output size, writeCredential (connectFlags options).username
        options.username output = output.emit .buf (credentialBytes options.username) := by
      rw [connectFlags_eq]
      exact writeCredential_eq options.username
    have password : ∀ output : Output size, writeCredential (connectFlags options).password
        options.password output = output.emit .buf (credentialBytes options.password) := by
      rw [connectFlags_eq]
      exact writeCredential_eq options.password
    simp only [writeChar_eq, MQTTPacket_encode_eq, writeCString_eq, writeInt_eq, writeWill_eq,
      username, password, writeMQTTString_eq, packetBytes, connectBody, versionBytes,
      Output.emit_cons, Output.emit_append, bind_assoc]
    rfl

theorem MQTTSerialize_connect_eq (buf : Block size) (wellFormed : WellFormed options)
    (bounded : MQTTSerialize_connectLength options < 268435456)
    (fits : MQTTPacket_len (MQTTSerialize_connectLength options) ≤ size) :
    MQTTSerialize_connect buf options =
      .ok ((packetBytes connectHeader (connectBody options)).length,
        sent buf connectHeader (connectBody options)) := by
  have length := length_connectBody wellFormed
  rw [← length] at bounded fits
  rw [MQTTSerialize_connect_serialized buf wellFormed, serialized_eq_ok buf bounded fits]

/-! ## What is read of it -/

variable {block : Block size} {enddata ptr : Nat} {rest : List UInt8}

/-- The options of the client, as far as the packet has them. -/
structure Delivered (options : MQTTPacket_connectData MQTTString) (block : Block size)
    (data : MQTTPacket_connectData MQTTLenString) : Prop where
  cleansession : data.cleansession = options.cleansession
  keepAliveInterval : data.keepAliveInterval = options.keepAliveInterval
  clientID : data.clientID.Holds block options.clientID.content
  willFlag : data.willFlag = if options.willFlag ≠ 0 then 1 else 0
  will : options.willFlag ≠ 0 → data.will.qos = options.will.qos ∧
    data.will.retained = options.will.retained ∧
    data.will.topicName.Holds block options.will.topicName.content ∧
    data.will.message.Holds block options.will.message.content
  username : options.username.given = true → data.username.Holds block options.username.content
  password : options.password.given = true → data.password.Holds block options.password.content

/-- A name is there if a password is, the password is not empty, and neither is a
name without a password. -/
def Readable (options : MQTTPacket_connectData MQTTString) : Prop :=
  if options.username.given then
    0 < (if options.password.given then options.password else options.username).content.length
  else options.password.given = false

instance (options : MQTTPacket_connectData MQTTString) : Decidable (Readable options) :=
  inferInstanceAs (Decidable (if options.username.given then
    0 < (if options.password.given then options.password else options.username).content.length
  else options.password.given = false))

theorem matchesName_eq {protocol : MQTTLenString} {name : Text}
    (holds : protocol.Holds block name.val) : matchesName block protocol name = .ok true := by
  obtain ⟨length, reads⟩ := holds
  have readable : ∀ k < protocol.len, block.read Buffer.buf (protocol.data + k) =
      .ok (name.val.getD k 0) := by
    intro k inside
    rw [length] at inside
    rw [Block.read_of_lt (reads.lt_size inside), reads.byteAt_eq inside, ← List.getElem_eq_getD 0]
  have shorter : min (strlen name) protocol.len = protocol.len := by
    rw [strlen, ← length, Nat.min_self]
  have same : (List.range protocol.len).map (name.val.getD · 0) = name.val.take protocol.len := by
    apply List.ext_getElem
    · simp [length]
    · intro k left right
      have inside : k < name.val.length := by
        rw [List.length_take] at right
        omega
      rw [List.getElem_map, List.getElem_range, List.getElem_take, List.getElem_eq_getD 0]
  rw [matchesName, shorter, readBytes_eq_ok readable, ok_bind, same, decide_eq_true rfl]

theorem MQTTPacket_checkVersion_eq (version : options.MQTTVersion = 3 ∨ options.MQTTVersion = 4)
    {protocol : MQTTLenString}
    (holds : protocol.Holds block (if options.MQTTVersion = 4 then nameMQTT else nameMQIsdp).val) :
    MQTTPacket_checkVersion block protocol
      (if options.MQTTVersion = 4 then 4 else 3 : UInt8).toNat = .ok true := by
  rcases version with three | four
  · rw [if_neg (by omega)] at holds ⊢
    exact matchesName_eq holds
  · rw [if_pos four] at holds ⊢
    exact matchesName_eq holds

theorem readWill_eq (wellFormed : WellFormed options)
    (before : MQTTPacket_willOptions MQTTLenString)
    (ahead : Ahead block enddata ptr (willBytes options ++ rest)) :
    ∃ will next, readWill (connectFlags options) before block ptr enddata = .ok (true, will, next) ∧
      Ahead block enddata next rest ∧
      (options.willFlag ≠ 0 → will.qos = options.will.qos ∧ will.retained = options.will.retained ∧
        will.topicName.Holds block options.will.topicName.content ∧
        will.message.Holds block options.will.message.content) := by
  unfold readWill
  rw [willBytes] at ahead
  simp only [connectFlags_eq]
  by_cases given : options.willFlag ≠ 0
  · have topicNameShort := wellFormed.short options.will.topicName
      (by simp [MQTTPacket_connectData.strings, given])
    have messageShort := wellFormed.short options.will.message
      (by simp [MQTTPacket_connectData.strings, given])
    rw [if_pos given, List.append_assoc] at ahead
    obtain ⟨topicName, topicNameHolds, ahead⟩ := ahead.string topicNameShort before.topicName
    obtain ⟨message, messageHolds, ahead⟩ := ahead.string messageShort before.message
    rw [if_pos given, if_pos Nat.one_ne_zero, topicName, ok_bind]
    simp only [if_true, message, ok_bind, if_pos given]
    exact ⟨_, _, rfl, ahead, fun _ => ⟨rfl, rfl, topicNameHolds, messageHolds⟩⟩
  · rw [if_neg given, List.nil_append] at ahead
    rw [if_neg given, if_neg (not_not.mpr rfl)]
    exact ⟨_, _, rfl, ahead, fun there => absurd there given⟩

theorem readCredential_eq {data : List UInt8} (short : data.length < 65536)
    (before : MQTTLenString) (ahead : Ahead block enddata ptr (stringBytes data ++ rest)) :
    readCredential before block ptr enddata =
      .ok (if 0 < data.length + rest.length then ⟨true, ⟨ptr + 2, data.length⟩, ptr + 2 + data.length⟩
        else ⟨false, before, ptr⟩) := by
  have total := ahead.ends
  rw [List.length_append, length_stringBytes] at total
  rw [readCredential]
  by_cases nonempty : 0 < data.length + rest.length
  · rw [if_pos nonempty, if_neg (by omega), (ahead.string short before).1]
  · rw [if_neg nonempty, if_pos (by omega)]

/-- What `MQTTDeserialize_connect` does after the will. -/
def readCredentials (flags : MQTTConnectFlags) (data : MQTTPacket_connectData MQTTLenString)
    (buf : Block size) (curdata enddata : Nat) :
    Checked Buffer (Int × MQTTPacket_connectData MQTTLenString) := do
  if flags.username ≠ 0 then
    let username ← readCredential data.username buf curdata enddata
    let data := { data with username := username.string }
    if username.rc then
      if flags.password ≠ 0 then
        let password ← readCredential data.password buf username.ptr enddata
        .ok (if password.rc then 1 else 0, { data with password := password.string })
      else .ok (1, data)
    else .ok (0, data)
  else .ok (if flags.password ≠ 0 then 0 else 1, data)

/-- A password behind the name gives the name its third byte, whatever the name is. -/
theorem readCredentials_eq (wellFormed : WellFormed options)
    (data : MQTTPacket_connectData MQTTLenString)
    (ahead : Ahead block enddata ptr
      (credentialBytes options.username ++ credentialBytes options.password)) :
    ∃ username password, readCredentials (connectFlags options) data block ptr enddata =
        .ok (if Readable options then 1 else 0,
          { data with username := username, password := password }) ∧
      (Readable options →
        (options.username.given = true → username.Holds block options.username.content) ∧
          (options.password.given = true → password.Holds block options.password.content)) := by
  have usernameShort := wellFormed.short options.username (by simp [MQTTPacket_connectData.strings])
  have passwordShort := wellFormed.short options.password (by simp [MQTTPacket_connectData.strings])
  rw [readCredentials, connectFlags_eq]
  cases usernameGiven : options.username.given with
  | false =>
      cases passwordGiven : options.password.given with
      | false =>
          have readable : Readable options := by simp [Readable, usernameGiven, passwordGiven]
          rw [if_pos readable]
          exact ⟨data.username, data.password, rfl, fun _ =>
            ⟨fun there => absurd there Bool.false_ne_true, fun there => absurd there Bool.false_ne_true⟩⟩
      | true =>
          have unreadable : ¬Readable options := by simp [Readable, usernameGiven, passwordGiven]
          rw [if_neg unreadable]
          exact ⟨data.username, data.password, rfl, fun there => absurd there unreadable⟩
  | true =>
      rw [credentialBytes, if_pos usernameGiven] at ahead
      have username := readCredential_eq usernameShort data.username ahead
      obtain ⟨-, usernameHolds, ahead⟩ := ahead.string usernameShort data.username
      simp only [if_true, ne_eq, Nat.one_ne_zero, not_false_eq_true, username, ok_bind]
      cases passwordGiven : options.password.given with
      | false =>
          have empty : credentialBytes options.password = [] := by
            rw [credentialBytes, passwordGiven]
            rfl
          rw [empty, List.length_nil, Nat.add_zero]
          by_cases nonempty : 0 < options.username.content.length
          · have readable : Readable options := by simp [Readable, usernameGiven, passwordGiven, nonempty]
            rw [if_pos readable, if_pos nonempty]
            exact ⟨_, data.password, rfl, fun _ =>
              ⟨fun _ => usernameHolds, fun there => absurd there Bool.false_ne_true⟩⟩
          · have unreadable : ¬Readable options := by
              simpa [Readable, usernameGiven, passwordGiven] using nonempty
            rw [if_neg unreadable, if_neg nonempty]
            exact ⟨data.username, data.password, rfl, fun there => absurd there unreadable⟩
      | true =>
          have passwordBytes : credentialBytes options.password =
              stringBytes options.password.content ++ [] := by
            rw [credentialBytes, passwordGiven, List.append_nil]
            rfl
          rw [passwordBytes] at ahead ⊢
          have password := readCredential_eq passwordShort data.password ahead
          have behind : 0 < options.username.content.length +
              (stringBytes options.password.content ++ []).length := by
            rw [List.length_append, length_stringBytes]
            omega
          rw [if_pos behind]
          simp only [if_true, Nat.one_ne_zero, not_false_eq_true, password, ok_bind, List.length_nil,
            Nat.add_zero]
          by_cases nonempty : 0 < options.password.content.length
          · have readable : Readable options := by simp [Readable, usernameGiven, passwordGiven, nonempty]
            rw [if_pos readable, if_pos nonempty]
            exact ⟨_, _, rfl, fun _ =>
              ⟨fun _ => usernameHolds, fun _ => (ahead.string passwordShort {}).2.1⟩⟩
          · have unreadable : ¬Readable options := by
              simpa [Readable, usernameGiven, passwordGiven] using nonempty
            rw [if_neg unreadable, if_neg nonempty]
            exact ⟨_, data.password, rfl, fun there => absurd there unreadable⟩

theorem MQTTDeserialize_connect_eq (wellFormed : WellFormed options)
    (before : MQTTPacket_connectData MQTTLenString)
    (bounded : (connectBody options).length < 268435456)
    (reads : Reads block 0 (packetBytes connectHeader (connectBody options))) :
    ∃ data, MQTTDeserialize_connect before block
        (packetBytes connectHeader (connectBody options)).length =
          .ok (if Readable options then 1 else 0, data) ∧
      (Readable options → Delivered options block data) ∧ data.MQTTVersion = before.MQTTVersion := by
  obtain ⟨first, length, body⟩ := opened_of_reads bounded reads
  have isConnect : (MQTTHeader.ofByte connectHeader.byte).type = msgTypes.CONNECT.code := by decide
  rw [MQTTDeserialize_connect, first, ok_bind, length_packetBytes]
  simp only [isConnect, length, ok_bind, ne_eq, not_true_eq_false, if_false]
  generalize (lengthBytes (connectBody options).length).length = digits at body ⊢
  generalize 1 + digits + (connectBody options).length = enddata at body ⊢
  have clientIDShort := wellFormed.short options.clientID (by simp [MQTTPacket_connectData.strings])
  have nameShort : (if options.MQTTVersion = 4 then nameMQTT else nameMQIsdp).val.length < 65536 := by
    split <;> decide
  rw [connectBody, versionBytes, List.append_assoc, List.singleton_append, List.singleton_append] at body
  obtain ⟨protocol, protocolHolds, body⟩ := body.string nameShort {}
  have inside : ¬((enddata : Int) - (1 + digits + 2 +
      (if options.MQTTVersion = 4 then nameMQTT else nameMQIsdp).val.length : Nat) < 0) := by
    have ends := body.ends
    omega
  obtain ⟨version, body⟩ := body.char
  obtain ⟨flags, body⟩ := body.char
  obtain ⟨keepAliveInterval, body⟩ := body.int options.keepAliveInterval.toNat_lt
  obtain ⟨clientID, clientIDHolds, body⟩ := body.string clientIDShort before.clientID
  obtain ⟨will, next, willRead, body, willHolds⟩ := readWill_eq wellFormed before.will body
  have known := MQTTPacket_checkVersion_eq wellFormed.version protocolHolds
  have willFlag : (connectFlags options).will = if options.willFlag ≠ 0 then 1 else 0 := by
    rw [connectFlags_eq]
  have cleansession : (connectFlags options).cleansession = options.cleansession := by
    rw [connectFlags_eq]
  have sameInterval : UInt16.ofNat options.keepAliveInterval.toNat = options.keepAliveInterval :=
    UInt16.ofNat_toNat
  obtain ⟨username, password, credentials, credentialsHold⟩ :=
    readCredentials_eq wellFormed { before with
      cleansession := (connectFlags options).cleansession
      keepAliveInterval := UInt16.ofNat options.keepAliveInterval.toNat
      clientID := ⟨_, _⟩, willFlag := (connectFlags options).will, will := will } body
  rw [protocol, ok_bind]
  simp only [Bool.not_true, Bool.false_or, inside, decide_false, version, ok_bind, known, flags,
    keepAliveInterval, clientID, ofByte_connectFlags wellFormed, willRead, if_true,
    Bool.false_eq_true, if_false]
  exact ⟨_, credentials, fun readable => ⟨cleansession, sameInterval, clientIDHolds, willFlag, willHolds,
    (credentialsHold readable).1, (credentialsHold readable).2⟩, rfl⟩

end Connect

/-! ## The answer -/

section Connack

variable {block : Block size} {header : MQTTHeader} {body : List UInt8}

def connackBody (connack_rc : UInt8) (sessionPresent : Nat) : List UInt8 :=
  [UInt8.ofNat (sessionPresent % 2), connack_rc]

/-- Two bytes are asked for, and four bytes are written. -/
theorem MQTTSerialize_connack_eq (buf : Block size) (connack_rc : UInt8) (sessionPresent : Nat) :
    MQTTSerialize_connack buf connack_rc sessionPresent =
      if size < 2 then .ok (MQTTPACKET_BUFFER_TOO_SHORT, buf)
      else if 4 ≤ size then .ok (4, sent buf { type := msgTypes.CONNACK.code }
        (connackBody connack_rc sessionPresent))
      else .error ⟨.buf, size, .write⟩ := by
  have length : (packetBytes { type := msgTypes.CONNACK.code }
      (connackBody connack_rc sessionPresent)).length = 4 := by
    rw [length_packetBytes, connackBody, List.length_cons, List.length_singleton,
      length_lengthBytes_of_lt (by decide)]
  have written : MQTTSerialize_connack buf connack_rc sessionPresent =
      serialized buf 2 { type := msgTypes.CONNACK.code } (connackBody connack_rc sessionPresent) := by
    apply serialized_of_emit
    · intro short
      rw [MQTTSerialize_connack, if_pos short]
    · intro enough
      rw [MQTTSerialize_connack, if_neg enough]
      simp only [writeChar_eq, MQTTPacket_encode_eq, packetBytes, connackBody, Output.emit_cons,
        Output.emit_append, bind_assoc]
      rfl
  rw [written, serialized, length]
  rfl

theorem MQTTSerialize_zero_serialized (buf : Block size) (packettype : msgTypes) :
    MQTTSerialize_zero buf packettype = serialized buf 2 { type := packettype.code } [] := by
  apply serialized_of_emit
  · intro short
    rw [MQTTSerialize_zero, if_pos short]
  · intro enough
    rw [MQTTSerialize_zero, if_neg enough]
    simp only [writeChar_eq, MQTTPacket_encode_eq, packetBytes, List.length_nil, List.append_nil,
      Output.emit_cons, bind_assoc]
    rfl

/-- An answer without a return code leaves the one that the caller had before, and is
taken for an answer. -/
theorem MQTTDeserialize_connack_eq (before : MQTTConnackData) (bounded : body.length < 268435456)
    (reads : Reads block 0 (packetBytes header body)) :
    MQTTDeserialize_connack before block =
      .ok (if header.type % 16 = msgTypes.CONNACK.code then
        (1, match body with
          | flags :: connack_rc :: _ => ⟨connack_rc, flags.toNat % 2⟩
          | _ => before)
        else (0, before)) := by
  obtain ⟨first, length, ahead⟩ := opened_of_reads bounded reads
  rw [MQTTDeserialize_connack, first, ok_bind]
  simp only [MQTTHeader.ofByte_byte, length, ok_bind]
  by_cases isConnack : header.type % 16 = msgTypes.CONNACK.code
  · rw [if_neg (not_not.mpr isConnack), if_pos isConnack]
    have short : body.length < 2 →
        (((1 + (lengthBytes body.length).length + body.length : Nat) : Int) -
          (1 + (lengthBytes body.length).length : Nat) < 2) ∧ (lengthBytes body.length).length = 1 :=
      fun few => ⟨by omega, length_lengthBytes_of_lt (by omega)⟩
    match body with
    | [] =>
        obtain ⟨early, one⟩ := short Nat.two_pos
        rw [if_pos early, one]
        rfl
    | [_] =>
        obtain ⟨early, one⟩ := short Nat.one_lt_two
        rw [if_pos early, one]
        rfl
    | flags :: connack_rc :: rest =>
        obtain ⟨readFlags, ahead⟩ := ahead.char
        rw [if_neg (by simp only [List.length_cons]; omega), readFlags, ok_bind]
        simp only [ahead.char.1, ok_bind]
  · rw [if_pos isConnack, if_neg isConnack]

end Connack

/-! ## The round trip -/

end WifiIot.Paho
