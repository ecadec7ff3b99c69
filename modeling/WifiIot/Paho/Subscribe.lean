import WifiIot.Paho.Connect
import WifiIot.Paho.Publish

/-!
# Subscribing and unsubscribing

Packets with a list of topic filters, and the answers to them.  The reading
functions get the number of places in the arrays that they fill; those of the
server do not look at it, and that of the client looks one place too late.

Source: `paho_mqtt/MQTTPacket/src/MQTTSubscribeClient.c`, `MQTTSubscribeServer.c`,
`MQTTUnsubscribeClient.c`, `MQTTUnsubscribeServer.c`.
-/

namespace WifiIot.Paho

open Memory Wire

variable {size : Nat}

/-! ## Writing -/

def MQTTSerialize_subscribeLength (topicFilters : List MQTTString) : Nat :=
  topicFilters.foldl (fun len topicFilter => len + (2 + MQTTstrlen topicFilter + 1)) 2

def writeSubscription (ptr : Output size) (item : MQTTString × UInt8) : Checked Buffer (Output size) := do
  let ptr ← writeMQTTString item.1 ptr
  writeChar item.2 ptr

/-- The arrays of the filters and of the requested qualities of service, item by item. -/
def MQTTSerialize_subscribe (buf : Block size) (dup : Nat) (packetid : UInt16)
    (topicFilters : List (MQTTString × UInt8)) : Checked Buffer (Int × Block size) :=
  let rem_len := MQTTSerialize_subscribeLength (topicFilters.map Prod.fst)
  if MQTTPacket_len rem_len > size then .ok (MQTTPACKET_BUFFER_TOO_SHORT, buf)
  else do
    let header : MQTTHeader := { type := msgTypes.SUBSCRIBE.code, dup := dup, qos := 1 }
    let ptr ← writeChar header.byte ⟨buf, 0⟩
    let ptr ← MQTTPacket_encode rem_len ptr
    let ptr ← writeInt packetid.toNat ptr
    let ptr ← topicFilters.foldlM writeSubscription ptr
    .ok (ptr.ptr, ptr.block)

def MQTTSerialize_unsubscribeLength (topicFilters : List MQTTString) : Nat :=
  topicFilters.foldl (fun len topicFilter => len + (2 + MQTTstrlen topicFilter)) 2

def MQTTSerialize_unsubscribe (buf : Block size) (dup : Nat) (packetid : UInt16)
    (topicFilters : List MQTTString) : Checked Buffer (Int × Block size) :=
  let rem_len := MQTTSerialize_unsubscribeLength topicFilters
  if MQTTPacket_len rem_len > size then .ok (MQTTPACKET_BUFFER_TOO_SHORT, buf)
  else do
    let header : MQTTHeader := { type := msgTypes.UNSUBSCRIBE.code, dup := dup, qos := 1 }
    let ptr ← writeChar header.byte ⟨buf, 0⟩
    let ptr ← MQTTPacket_encode rem_len ptr
    let ptr ← writeInt packetid.toNat ptr
    let ptr ← topicFilters.foldlM (fun ptr topicFilter => writeMQTTString topicFilter ptr) ptr
    .ok (ptr.ptr, ptr.block)

def MQTTSerialize_suback (buf : Block size) (packetid : UInt16) (grantedQoSs : List UInt8) :
    Checked Buffer (Int × Block size) :=
  if size < 2 + grantedQoSs.length then .ok (MQTTPACKET_BUFFER_TOO_SHORT, buf)
  else do
    let header : MQTTHeader := { type := msgTypes.SUBACK.code }
    let ptr ← writeChar header.byte ⟨buf, 0⟩
    let ptr ← MQTTPacket_encode (2 + grantedQoSs.length) ptr
    let ptr ← writeInt packetid.toNat ptr
    let ptr ← grantedQoSs.foldlM (fun ptr grantedQoS => writeChar grantedQoS ptr) ptr
    .ok (ptr.ptr, ptr.block)

def MQTTSerialize_unsuback (buf : Block size) (packetid : UInt16) :
    Checked Buffer (Int × Block size) :=
  if size < 2 then .ok (MQTTPACKET_BUFFER_TOO_SHORT, buf)
  else do
    let header : MQTTHeader := { type := msgTypes.UNSUBACK.code }
    let ptr ← writeChar header.byte ⟨buf, 0⟩
    let ptr ← MQTTPacket_encode 2 ptr
    let ptr ← writeInt packetid.toNat ptr
    .ok (ptr.ptr, ptr.block)

/-! ## Reading -/

/-- `while (curdata < enddata)`, until an item cannot be read.  Every item has some
bytes, so that there are no more rounds than bytes. -/
def readItems {Item : Type} (readItem : List Item → Nat → Checked Buffer (Option (List Item) × Nat))
    (enddata : Nat) : Nat → List Item → Nat → Checked Buffer (Bool × List Item)
  | 0, items, _ => .ok (true, items)
  | rounds + 1, items, curdata =>
      if curdata < enddata then do
        let (more, curdata) ← readItem items curdata
        match more with
        | some items => readItems readItem enddata rounds items curdata
        | none => .ok (false, items)
      else .ok (true, items)

structure Subscribed (Item : Type) where
  dup : Nat := 0
  packetid : UInt16 := 0
  items : List Item := []

/-- `MQTTDeserialize_subscribe` and `MQTTDeserialize_unsubscribe` but for the items. -/
def readRequest {Item : Type} (packettype : msgTypes) (failed : Int)
    (readItem : Nat → List Item → Nat → Checked Buffer (Option (List Item) × Nat))
    (subscribed : Subscribed Item) (buf : Block size) : Checked Buffer (Int × Subscribed Item) := do
  let (byte, curdata) ← readChar buf 0
  let header := MQTTHeader.ofByte byte
  if header.type ≠ packettype.code then .ok (failed, subscribed)
  else
    let mylen ← MQTTPacket_decodeBuf buf curdata
    let curdata := curdata + mylen.len
    let enddata := curdata + mylen.value
    let (packetid, curdata) ← readInt buf curdata
    let (complete, items) ← readItems (readItem enddata) enddata mylen.value [] curdata
    .ok (if complete then 1 else mylen.len,
      { dup := header.dup, packetid := UInt16.ofNat packetid, items := items })

def readSubscription (buf : Block size) (capacity enddata : Nat)
    (items : List (MQTTLenString × UInt8)) (curdata : Nat) :
    Checked Buffer (Option (List (MQTTLenString × UInt8)) × Nat) := do
  let topicFilter ← readMQTTLenString {} buf curdata enddata
  let _ ← store .topicFilters capacity (items.map Prod.fst) topicFilter.string
  if !topicFilter.rc then .ok (none, topicFilter.ptr)
  else if topicFilter.ptr ≥ enddata then .ok (none, topicFilter.ptr)
  else
    let (requestedQoS, curdata) ← readChar buf topicFilter.ptr
    let _ ← store .requestedQoSs capacity (items.map Prod.snd) requestedQoS
    .ok (some (items ++ [(topicFilter.string, requestedQoS)]), curdata)

/-- The number of places, which the function gets as well, is not looked at. -/
def MQTTDeserialize_subscribe (capacity : Nat) (subscribed : Subscribed (MQTTLenString × UInt8))
    (buf : Block size) : Checked Buffer (Int × Subscribed (MQTTLenString × UInt8)) :=
  readRequest .SUBSCRIBE (-1) (readSubscription buf capacity) subscribed buf

def readFilter (buf : Block size) (capacity enddata : Nat) (items : List MQTTLenString)
    (curdata : Nat) : Checked Buffer (Option (List MQTTLenString) × Nat) := do
  let topicFilter ← readMQTTLenString {} buf curdata enddata
  let items ← store .topicFilters capacity items topicFilter.string
  if topicFilter.rc then .ok (some items, topicFilter.ptr) else .ok (none, topicFilter.ptr)

def MQTTDeserialize_unsubscribe (capacity : Nat) (subscribed : Subscribed MQTTLenString)
    (buf : Block size) : Checked Buffer (Int × Subscribed MQTTLenString) :=
  readRequest .UNSUBSCRIBE 0 (readFilter buf capacity) subscribed buf

structure Granted where
  packetid : UInt16 := 0
  grantedQoSs : List UInt8 := []
  deriving DecidableEq

/-- One more than the places that the caller names passes the test. -/
def readGranted (buf : Block size) (capacity maxcount : Nat) (grantedQoSs : List UInt8)
    (curdata : Nat) : Checked Buffer (Option (List UInt8) × Nat) :=
  if grantedQoSs.length > maxcount then .ok (none, curdata)
  else do
    let (grantedQoS, curdata) ← readChar buf curdata
    let grantedQoSs ← store .grantedQoSs capacity grantedQoSs grantedQoS
    .ok (some grantedQoSs, curdata)

def MQTTDeserialize_suback (capacity maxcount : Nat) (granted : Granted) (buf : Block size) :
    Checked Buffer (Int × Granted) := do
  let (byte, curdata) ← readChar buf 0
  if (MQTTHeader.ofByte byte).type ≠ msgTypes.SUBACK.code then .ok (0, granted)
  else
    let mylen ← MQTTPacket_decodeBuf buf curdata
    let curdata := curdata + mylen.len
    let enddata := curdata + mylen.value
    if (enddata : Int) - curdata < 2 then .ok (mylen.len, granted)
    else
      let (packetid, curdata) ← readInt buf curdata
      let (complete, grantedQoSs) ←
        readItems (readGranted buf capacity maxcount) enddata mylen.value [] curdata
      .ok (if complete then 1 else -1, ⟨UInt16.ofNat packetid, grantedQoSs⟩)

def MQTTDeserialize_unsuback (packetid : UInt16) (buf : Block size) : Checked Buffer (Int × UInt16) := do
  let (rc, acknowledged) ← MQTTDeserialize_ack { packetid := packetid } buf
  .ok (if acknowledged.packettype = msgTypes.UNSUBACK.code then 1 else rc, acknowledged.packetid)

/-! ## Lists of items -/

section Items

variable {Item Value : Type} {block : Block size} {capacity enddata ptr rounds : Nat}
  {readItem : List Item → Nat → Checked Buffer (Option (List Item) × Nat)}
  {bytesOf : Value → List UInt8} {Same : Item → Value → Prop} {values : List Value}
  {items : List Item}

/-- One round, when there is a place for the item. -/
def ReadsItem (block : Block size) (capacity enddata : Nat)
    (readItem : List Item → Nat → Checked Buffer (Option (List Item) × Nat))
    (bytesOf : Value → List UInt8) (Same : Item → Value → Prop) (value : Value) : Prop :=
  ∀ items ptr rest, items.length < capacity → Ahead block enddata ptr (bytesOf value ++ rest) →
    ∃ item, readItem items ptr = .ok (some (items ++ [item]), ptr + (bytesOf value).length) ∧
      Same item value

/-- The items are read in their order; the induction is on those that are left. -/
theorem readItems_eq
    (reads : ∀ value ∈ values, ReadsItem block capacity enddata readItem bytesOf Same value)
    (nonempty : ∀ value ∈ values, 0 < (bytesOf value).length)
    (ahead : Ahead block enddata ptr (values.flatMap bytesOf))
    (room : items.length + values.length ≤ capacity)
    (enough : (values.flatMap bytesOf).length ≤ rounds) :
    ∃ more, readItems readItem enddata rounds items ptr = .ok (true, items ++ more) ∧
      List.Forall₂ Same more values := by
  induction values generalizing items ptr rounds with
  | nil =>
      have ends : ¬ptr < enddata := by
        have total := ahead.ends
        rw [List.flatMap_nil, List.length_nil] at total
        omega
      refine ⟨[], ?_, .nil⟩
      cases rounds with
      | zero => rw [readItems, List.append_nil]
      | succ rounds => rw [readItems, if_neg ends, List.append_nil]
  | cons value values inductionHypothesis =>
      have positive := nonempty value List.mem_cons_self
      have total := ahead.ends
      rw [List.flatMap_cons] at ahead enough total
      rw [List.length_append] at enough total
      rw [List.length_cons] at room
      obtain ⟨item, read, same⟩ :=
        reads value List.mem_cons_self items ptr _ (by omega) ahead
      obtain ⟨fewer, rfl⟩ : ∃ fewer, rounds = fewer + 1 := ⟨rounds - 1, by omega⟩
      have places : (items ++ [item]).length + values.length ≤ capacity := by
        rw [List.length_append, List.length_singleton]
        omega
      have left : (values.flatMap bytesOf).length ≤ fewer := by omega
      obtain ⟨more, later, others⟩ := inductionHypothesis
        (fun other membership => reads other (List.mem_cons_of_mem _ membership))
        (fun other membership => nonempty other (List.mem_cons_of_mem _ membership))
        ahead.append.2 places left
      refine ⟨item :: more, ?_, .cons same others⟩
      rw [readItems, if_pos (by omega), read, ok_bind]
      simpa only [List.append_assoc, List.singleton_append] using later

theorem readItems_overrun {fault : Fault Buffer}
    (reads : ∀ value ∈ values, ReadsItem block capacity enddata readItem bytesOf Same value)
    (overruns : ∀ value ∈ values, ∀ items ptr rest, items.length = capacity →
      Ahead block enddata ptr (bytesOf value ++ rest) → readItem items ptr = .error fault)
    (nonempty : ∀ value ∈ values, 0 < (bytesOf value).length)
    (ahead : Ahead block enddata ptr (values.flatMap bytesOf)) (inside : items.length ≤ capacity)
    (full : capacity < items.length + values.length)
    (enough : (values.flatMap bytesOf).length ≤ rounds) :
    readItems readItem enddata rounds items ptr = .error fault := by
  induction values generalizing items ptr rounds with
  | nil =>
      rw [List.length_nil] at full
      omega
  | cons value values inductionHypothesis =>
      have positive := nonempty value List.mem_cons_self
      have total := ahead.ends
      rw [List.flatMap_cons] at ahead enough total
      rw [List.length_append] at enough total
      rw [List.length_cons] at full
      obtain ⟨fewer, rfl⟩ : ∃ fewer, rounds = fewer + 1 := ⟨rounds - 1, by omega⟩
      rw [readItems, if_pos (by omega)]
      by_cases last : items.length = capacity
      · rw [overruns value List.mem_cons_self items ptr _ last ahead, error_bind]
      · obtain ⟨item, read, -⟩ :=
          reads value List.mem_cons_self items ptr _ (by omega) ahead
        rw [read, ok_bind]
        have places : (items ++ [item]).length ≤ capacity ∧
            capacity < (items ++ [item]).length + values.length := by
          rw [List.length_append, List.length_singleton]
          omega
        have left : (values.flatMap bytesOf).length ≤ fewer := by omega
        exact inductionHypothesis
          (fun other membership => reads other (List.mem_cons_of_mem _ membership))
          (fun other membership => overruns other (List.mem_cons_of_mem _ membership))
          (fun other membership => nonempty other (List.mem_cons_of_mem _ membership))
          ahead.append.2 places.1 places.2 left

/-! ## Requests -/

variable {packettype : msgTypes} {dup : Nat} {packetid : UInt16}

def requestHeader (packettype : msgTypes) (dup : Nat) : MQTTHeader :=
  { type := packettype.code, dup := dup, qos := 1 }

def requestBody (packetid : UInt16) (bytesOf : Value → List UInt8) (values : List Value) : List UInt8 :=
  intBytes packetid.toNat ++ values.flatMap bytesOf

theorem ofByte_requestHeader (flag : dup < 2) :
    MQTTHeader.ofByte (requestHeader packettype dup).byte = ⟨packettype.code, dup, 1, 0⟩ := by
  have small : packettype.code < 16 := by cases packettype <;> decide
  rw [MQTTHeader.ofByte_byte]
  simp only [requestHeader, MQTTHeader.mk.injEq]
  exact ⟨Nat.mod_eq_of_lt small, Nat.mod_eq_of_lt flag, trivial, trivial⟩

theorem readRequest_of_reads (failed : Int)
    (request : Nat → List Item → Nat → Checked Buffer (Option (List Item) × Nat)) (flag : dup < 2)
    (subscribed : Subscribed Item)
    (bounded : (requestBody packetid bytesOf values).length < 268435456)
    (reads : Reads block 0 (packetBytes (requestHeader packettype dup)
      (requestBody packetid bytesOf values))) :
    ∃ enddata ptr, Ahead block enddata ptr (values.flatMap bytesOf) ∧
      readRequest packettype failed request subscribed block =
        (readItems (request enddata) enddata (requestBody packetid bytesOf values).length [] ptr >>=
          fun read => .ok
            (if read.1 then (1 : Int)
              else (lengthBytes (requestBody packetid bytesOf values).length).length,
            (⟨dup, packetid, read.2⟩ : Subscribed Item))) := by
  obtain ⟨first, length, body⟩ := opened_of_reads bounded reads
  have identifier := body.int packetid.toNat_lt
  refine ⟨_, _, identifier.2, ?_⟩
  rw [readRequest, first, ok_bind]
  simp only [ofByte_requestHeader flag, length, ok_bind, identifier.1, UInt16.ofNat_toNat, ne_eq,
    not_true_eq_false, if_false]

theorem length_items_eq {String : Type} {string : Value → String} (length : String → Nat)
    (same : ∀ value ∈ values, (bytesOf value).length = length (string value)) (len : Nat) :
    len + (values.flatMap bytesOf).length =
      (values.map string).foldl (fun len string => len + length string) len := by
  induction values generalizing len with
  | nil => rfl
  | cons value values inductionHypothesis =>
      rw [List.map_cons, List.foldl_cons, ← inductionHypothesis
        (fun other membership => same other (List.mem_cons_of_mem _ membership)),
        List.flatMap_cons, List.length_append, same value List.mem_cons_self, Nat.add_assoc]

theorem length_flatMap_le (bytesOf : Value → List UInt8) (values : List Value) (packetid : UInt16) :
    (values.flatMap bytesOf).length ≤ (requestBody packetid bytesOf values).length := by
  rw [requestBody, List.length_append]
  exact Nat.le_add_left ..

/-- A request is read item by item if there are places for all of them; otherwise the first
item too many is a fault. -/
theorem readRequest_items {fault : Fault Buffer} (failed : Int)
    (request : Nat → List Item → Nat → Checked Buffer (Option (List Item) × Nat)) (flag : dup < 2)
    (subscribed : Subscribed Item)
    (bounded : (requestBody packetid bytesOf values).length < 268435456)
    (reads : Reads block 0 (packetBytes (requestHeader packettype dup)
      (requestBody packetid bytesOf values)))
    (readsItem : ∀ enddata, ∀ value ∈ values,
      ReadsItem block capacity enddata (request enddata) bytesOf Same value)
    (overruns : ∀ enddata, ∀ value ∈ values, ∀ items ptr rest, items.length = capacity →
      Ahead block enddata ptr (bytesOf value ++ rest) → request enddata items ptr = .error fault)
    (nonempty : ∀ value ∈ values, 0 < (bytesOf value).length) :
    (values.length ≤ capacity → ∃ requested : Subscribed Item,
        readRequest packettype failed request subscribed block = .ok (1, requested) ∧
        requested.dup = dup ∧ requested.packetid = packetid ∧
        List.Forall₂ Same requested.items values) ∧
      (capacity < values.length →
        readRequest packettype failed request subscribed block = .error fault) := by
  obtain ⟨enddata, ptr, ahead, read⟩ := readRequest_of_reads failed request flag subscribed bounded reads
  have enough := length_flatMap_le bytesOf values packetid
  constructor
  · intro places
    have noneYet : ([] : List Item).length + values.length ≤ capacity := by
      rwa [List.length_nil, Nat.zero_add]
    obtain ⟨items, readAll, same⟩ := readItems_eq (readsItem enddata) nonempty ahead noneYet enough
    rw [readAll, ok_bind] at read
    exact ⟨⟨dup, packetid, items⟩, read, rfl, rfl, same⟩
  · intro missing
    rw [readItems_overrun (readsItem enddata) (overruns enddata) nonempty ahead (Nat.zero_le _)
      (by rwa [List.length_nil, Nat.zero_add]) enough, error_bind] at read
    exact read

end Items

/-! ## Subscriptions -/

section Subscribe

variable {block : Block size} {capacity enddata dup : Nat} {packetid : UInt16}
  {topicFilters : List (MQTTString × UInt8)}

def subscriptionBytes (item : MQTTString × UInt8) : List UInt8 := stringBytes item.1.content ++ [item.2]

def SameSubscription (block : Block size) (item : MQTTLenString × UInt8)
    (value : MQTTString × UInt8) : Prop :=
  item.1.Holds block value.1.content ∧ item.2 = value.2

theorem length_subscriptionBytes (item : MQTTString × UInt8) :
    (subscriptionBytes item).length = 2 + item.1.content.length + 1 := by
  rw [subscriptionBytes, List.length_append, length_stringBytes, List.length_singleton]

theorem readSubscription_eq {value : MQTTString × UInt8} (short : value.1.content.length < 65536) :
    ReadsItem block capacity enddata (readSubscription block capacity enddata) subscriptionBytes
      (SameSubscription block) value := by
  intro items ptr rest room ahead
  rw [subscriptionBytes, List.append_assoc, List.singleton_append] at ahead
  obtain ⟨topicFilter, holds, behind⟩ := ahead.string short {}
  obtain ⟨requestedQoS, later⟩ := behind.char
  have inside : ¬(ptr + 2 + value.1.content.length ≥ enddata) := by
    have ends := later.ends
    omega
  refine ⟨(⟨ptr + 2, value.1.content.length⟩, value.2), ?_, holds, rfl⟩
  rw [readSubscription, topicFilter, ok_bind, store_eq_ok _ (by rwa [List.length_map]), ok_bind]
  simp only [Bool.not_true, Bool.false_eq_true, if_false, inside, requestedQoS, ok_bind]
  rw [store_eq_ok _ (by rwa [List.length_map]), ok_bind, length_subscriptionBytes, ← Nat.add_assoc,
    ← Nat.add_assoc]

theorem readSubscription_overrun {value : MQTTString × UInt8} {items : List (MQTTLenString × UInt8)}
    {ptr : Nat} {rest : List UInt8} (short : value.1.content.length < 65536)
    (full : items.length = capacity)
    (ahead : Ahead block enddata ptr (subscriptionBytes value ++ rest)) :
    readSubscription block capacity enddata items ptr = .error ⟨.topicFilters, capacity, .write⟩ := by
  rw [subscriptionBytes, List.append_assoc] at ahead
  rw [readSubscription, (ahead.string short {}).1, ok_bind, store, List.length_map,
    if_neg (by omega), full]
  rfl

theorem length_subscribeBody (single : ∀ item ∈ topicFilters, item.1.Single) (packetid : UInt16) :
    (requestBody packetid subscriptionBytes topicFilters).length =
      MQTTSerialize_subscribeLength (topicFilters.map Prod.fst) := by
  rw [requestBody, List.length_append, length_intBytes, MQTTSerialize_subscribeLength]
  have same : ∀ item ∈ topicFilters,
      (subscriptionBytes item).length = 2 + MQTTstrlen (Prod.fst item) + 1 := by
    intro item membership
    rw [length_subscriptionBytes, show MQTTstrlen item.1 = _ from single item membership]
  exact length_items_eq (fun topicFilter => 2 + MQTTstrlen topicFilter + 1) same 2

theorem writeSubscription_eq (item : MQTTString × UInt8) (output : Output size) :
    writeSubscription output item = output.emit .buf (subscriptionBytes item) := by
  simp only [writeSubscription, writeMQTTString_eq, writeChar_eq, subscriptionBytes,
    Output.emit_append]

theorem MQTTSerialize_subscribe_serialized (buf : Block size) (dup : Nat) (packetid : UInt16)
    (single : ∀ item ∈ topicFilters, item.1.Single) :
    MQTTSerialize_subscribe buf dup packetid topicFilters =
      serialized buf (MQTTPacket_len (requestBody packetid subscriptionBytes topicFilters).length)
        (requestHeader .SUBSCRIBE dup) (requestBody packetid subscriptionBytes topicFilters) := by
  have length := length_subscribeBody single packetid
  apply serialized_of_emit
  · intro short
    rw [MQTTSerialize_subscribe, if_pos (by rwa [← length])]
  · intro enough
    rw [MQTTSerialize_subscribe, if_neg (by rwa [← length]), ← length]
    simp only [Output.foldlM_eq_emit writeSubscription_eq, writeChar_eq, MQTTPacket_encode_eq,
      writeInt_eq, packetBytes, requestBody, Output.emit_cons, Output.emit_append, bind_assoc]
    rfl

theorem MQTTSerialize_subscribe_eq (buf : Block size) (dup : Nat) (packetid : UInt16)
    (single : ∀ item ∈ topicFilters, item.1.Single)
    (bounded : MQTTSerialize_subscribeLength (topicFilters.map Prod.fst) < 268435456)
    (fits : MQTTPacket_len (MQTTSerialize_subscribeLength (topicFilters.map Prod.fst)) ≤ size) :
    MQTTSerialize_subscribe buf dup packetid topicFilters =
      .ok ((packetBytes (requestHeader .SUBSCRIBE dup)
          (requestBody packetid subscriptionBytes topicFilters)).length,
        sent buf (requestHeader .SUBSCRIBE dup)
          (requestBody packetid subscriptionBytes topicFilters)) := by
  have length := length_subscribeBody single packetid
  rw [← length] at bounded fits
  rw [MQTTSerialize_subscribe_serialized buf dup packetid single, serialized_eq_ok buf bounded fits]

/-- A subscription that is written is read, filter by filter, if the reader has
places for them; otherwise the first filter too many goes behind the array. -/
theorem MQTTDeserialize_subscribe_MQTTSerialize_subscribe {size : Nat} (buf : Block size)
    {dup : Nat} (packetid : UInt16)
    {topicFilters : List (MQTTString × UInt8)} (capacity : Nat)
    (before : Subscribed (MQTTLenString × UInt8)) (flag : dup < 2)
    (single : ∀ item ∈ topicFilters, item.1.Single)
    (short : ∀ item ∈ topicFilters, item.1.content.length < 65536)
    (bounded : MQTTSerialize_subscribeLength (topicFilters.map Prod.fst) < 268435456)
    (fits : MQTTPacket_len (MQTTSerialize_subscribeLength (topicFilters.map Prod.fst)) ≤ size) :
    ∃ (packet : List UInt8) (written : Block size),
      MQTTSerialize_subscribe buf dup packetid topicFilters = .ok (packet.length, written) ∧
      Reads written 0 packet ∧
      (∀ index, packet.length ≤ index → written.byteAt index = buf.byteAt index) ∧
      ∀ (room : Nat) (received : Block room), Reads received 0 packet →
        (topicFilters.length ≤ capacity → ∃ subscribed : Subscribed (MQTTLenString × UInt8),
          MQTTDeserialize_subscribe capacity before received = .ok (1, subscribed) ∧
          subscribed.dup = dup ∧ subscribed.packetid = packetid ∧
          List.Forall₂ (SameSubscription received) subscribed.items topicFilters) ∧
        (capacity < topicFilters.length → MQTTDeserialize_subscribe capacity before received =
          .error ⟨.topicFilters, capacity, .write⟩) := by
  have length := length_subscribeBody single packetid
  have boundedBody := bounded
  have fitsBody := fits
  rw [← length] at boundedBody fitsBody
  refine ⟨_, _, MQTTSerialize_subscribe_eq buf dup packetid single bounded fits,
    reads_sent buf (length_packetBytes_le boundedBody fitsBody), fun index => byteAt_sent buf,
    fun room received reads => ?_⟩
  refine readRequest_items (-1) (readSubscription received capacity) flag before boundedBody reads
    (fun _ item membership => readSubscription_eq (short item membership))
    (fun _ item membership items ptr rest full => readSubscription_overrun (short item membership) full) ?_
  intro item _
  rw [length_subscriptionBytes]
  omega

/-- Two filters and a place for one of them. -/
theorem MQTTDeserialize_subscribe_MQTTSerialize_subscribe_two_filters :
    ∃ (packet : List UInt8) (written : Block 20),
      MQTTSerialize_subscribe (fun _ => 0) 0 7
        [({ lenstring := some [0x61] }, 1), ({ lenstring := some [0x62, 0x23] }, 2)] =
          .ok (packet.length, written) ∧
      MQTTDeserialize_subscribe 1 {} written = .error ⟨.topicFilters, 1, .write⟩ := by
  obtain ⟨packet, written, serialized, reads, -, read⟩ :=
    @MQTTDeserialize_subscribe_MQTTSerialize_subscribe 20 (fun _ => 0) 0 7
      [({ lenstring := some [0x61] }, 1), ({ lenstring := some [0x62, 0x23] }, 2)] 1 {}
      (by decide) (by decide) (by decide) (by decide) (by decide)
  exact ⟨packet, written, serialized, (read 20 written reads).2 (by decide)⟩

end Subscribe

/-! ## Unsubscribing -/

section Unsubscribe

variable {block : Block size} {capacity enddata dup : Nat} {packetid : UInt16}
  {topicFilters : List MQTTString}

def filterBytes (topicFilter : MQTTString) : List UInt8 := stringBytes topicFilter.content

def SameFilter (block : Block size) (string : MQTTLenString) (topicFilter : MQTTString) : Prop :=
  string.Holds block topicFilter.content

theorem length_filterBytes (topicFilter : MQTTString) :
    (filterBytes topicFilter).length = 2 + topicFilter.content.length := length_stringBytes _

theorem readFilter_eq {topicFilter : MQTTString} (short : topicFilter.content.length < 65536) :
    ReadsItem block capacity enddata (readFilter block capacity enddata) filterBytes
      (SameFilter block) topicFilter := by
  intro items ptr rest room ahead
  obtain ⟨read, holds, -⟩ := ahead.string short {}
  refine ⟨⟨ptr + 2, topicFilter.content.length⟩, ?_, holds⟩
  rw [readFilter, read, ok_bind, store_eq_ok _ room, ok_bind, length_filterBytes, ← Nat.add_assoc]
  rfl

theorem readFilter_overrun {topicFilter : MQTTString} {items : List MQTTLenString} {ptr : Nat}
    {rest : List UInt8} (short : topicFilter.content.length < 65536) (full : items.length = capacity)
    (ahead : Ahead block enddata ptr (filterBytes topicFilter ++ rest)) :
    readFilter block capacity enddata items ptr = .error ⟨.topicFilters, capacity, .write⟩ := by
  rw [readFilter, (ahead.string short {}).1, ok_bind, store, if_neg (by omega), full]
  rfl

theorem length_unsubscribeBody (single : ∀ topicFilter ∈ topicFilters, topicFilter.Single)
    (packetid : UInt16) : (requestBody packetid filterBytes topicFilters).length =
      MQTTSerialize_unsubscribeLength topicFilters := by
  rw [requestBody, List.length_append, length_intBytes, MQTTSerialize_unsubscribeLength]
  have same : ∀ topicFilter ∈ topicFilters,
      (filterBytes topicFilter).length = 2 + MQTTstrlen (id topicFilter) := by
    intro topicFilter membership
    rw [length_filterBytes, id, show MQTTstrlen topicFilter = _ from single topicFilter membership]
  have sum := length_items_eq (fun topicFilter => 2 + MQTTstrlen topicFilter) same 2
  rwa [List.map_id] at sum

theorem MQTTSerialize_unsubscribe_serialized (buf : Block size) (dup : Nat) (packetid : UInt16)
    (single : ∀ topicFilter ∈ topicFilters, topicFilter.Single) :
    MQTTSerialize_unsubscribe buf dup packetid topicFilters =
      serialized buf (MQTTPacket_len (requestBody packetid filterBytes topicFilters).length)
        (requestHeader .UNSUBSCRIBE dup) (requestBody packetid filterBytes topicFilters) := by
  have length := length_unsubscribeBody single packetid
  have filters : ∀ output : Output size,
      topicFilters.foldlM (fun ptr topicFilter => writeMQTTString topicFilter ptr) output =
        output.emit Buffer.buf (topicFilters.flatMap filterBytes) :=
    fun output => Output.foldlM_eq_emit (fun topicFilter next => writeMQTTString_eq topicFilter) _
  apply serialized_of_emit
  · intro short
    rw [MQTTSerialize_unsubscribe, if_pos (by rwa [← length])]
  · intro enough
    rw [MQTTSerialize_unsubscribe, if_neg (by rwa [← length]), ← length]
    simp only [filters, writeChar_eq, MQTTPacket_encode_eq, writeInt_eq, packetBytes, requestBody,
      Output.emit_cons, Output.emit_append, bind_assoc]
    rfl

theorem MQTTSerialize_unsubscribe_eq (buf : Block size) (dup : Nat) (packetid : UInt16)
    (single : ∀ topicFilter ∈ topicFilters, topicFilter.Single)
    (bounded : MQTTSerialize_unsubscribeLength topicFilters < 268435456)
    (fits : MQTTPacket_len (MQTTSerialize_unsubscribeLength topicFilters) ≤ size) :
    MQTTSerialize_unsubscribe buf dup packetid topicFilters =
      .ok ((packetBytes (requestHeader .UNSUBSCRIBE dup)
          (requestBody packetid filterBytes topicFilters)).length,
        sent buf (requestHeader .UNSUBSCRIBE dup) (requestBody packetid filterBytes topicFilters)) := by
  have length := length_unsubscribeBody single packetid
  rw [← length] at bounded fits
  rw [MQTTSerialize_unsubscribe_serialized buf dup packetid single, serialized_eq_ok buf bounded fits]

theorem MQTTDeserialize_unsubscribe_MQTTSerialize_unsubscribe {size : Nat} (buf : Block size)
    {dup : Nat} (packetid : UInt16) {topicFilters : List MQTTString}
    (capacity : Nat) (before : Subscribed MQTTLenString) (flag : dup < 2)
    (single : ∀ topicFilter ∈ topicFilters, topicFilter.Single)
    (short : ∀ topicFilter ∈ topicFilters, topicFilter.content.length < 65536)
    (bounded : MQTTSerialize_unsubscribeLength topicFilters < 268435456)
    (fits : MQTTPacket_len (MQTTSerialize_unsubscribeLength topicFilters) ≤ size) :
    ∃ (packet : List UInt8) (written : Block size),
      MQTTSerialize_unsubscribe buf dup packetid topicFilters = .ok (packet.length, written) ∧
      Reads written 0 packet ∧
      (∀ index, packet.length ≤ index → written.byteAt index = buf.byteAt index) ∧
      ∀ (room : Nat) (received : Block room), Reads received 0 packet →
        (topicFilters.length ≤ capacity → ∃ subscribed : Subscribed MQTTLenString,
          MQTTDeserialize_unsubscribe capacity before received = .ok (1, subscribed) ∧
          subscribed.dup = dup ∧ subscribed.packetid = packetid ∧
          List.Forall₂ (SameFilter received) subscribed.items topicFilters) ∧
        (capacity < topicFilters.length → MQTTDeserialize_unsubscribe capacity before received =
          .error ⟨.topicFilters, capacity, .write⟩) := by
  have length := length_unsubscribeBody single packetid
  have boundedBody := bounded
  have fitsBody := fits
  rw [← length] at boundedBody fitsBody
  refine ⟨_, _, MQTTSerialize_unsubscribe_eq buf dup packetid single bounded fits,
    reads_sent buf (length_packetBytes_le boundedBody fitsBody), fun index => byteAt_sent buf,
    fun room received reads => ?_⟩
  refine readRequest_items 0 (readFilter received capacity) flag before boundedBody reads
    (fun _ topicFilter membership => readFilter_eq (short topicFilter membership))
    (fun _ topicFilter membership items ptr rest full =>
      readFilter_overrun (short topicFilter membership) full) ?_
  intro topicFilter _
  rw [length_filterBytes]
  omega

end Unsubscribe

/-! ## The answers -/

section Answers

variable {block : Block size} {maxcount enddata : Nat} {packetid : UInt16}
  {grantedQoSs : List UInt8}

def answerHeader (packettype : msgTypes) : MQTTHeader := { type := packettype.code }

def subackBody (packetid : UInt16) (grantedQoSs : List UInt8) : List UInt8 :=
  requestBody packetid (fun grantedQoS => [grantedQoS]) grantedQoSs

theorem length_subackBody : (subackBody packetid grantedQoSs).length = 2 + grantedQoSs.length := by
  rw [subackBody, requestBody, List.length_append, length_intBytes, List.length_flatMap]
  simp

theorem readGranted_eq (value : UInt8) :
    ReadsItem block maxcount enddata (readGranted block maxcount maxcount)
      (fun grantedQoS => [grantedQoS]) (fun item value => item = value) value := by
  intro items ptr rest room ahead
  refine ⟨value, ?_, rfl⟩
  rw [readGranted, if_neg (by omega), ahead.char.1, ok_bind]
  simp only [store_eq_ok _ room, ok_bind]
  rfl

theorem readGranted_overrun {value : UInt8} {items : List UInt8} {ptr : Nat} {rest : List UInt8}
    (full : items.length = maxcount) (ahead : Ahead block enddata ptr ([value] ++ rest)) :
    readGranted block maxcount maxcount items ptr = .error ⟨.grantedQoSs, maxcount, .write⟩ := by
  have missing : store Buffer.grantedQoSs maxcount items value =
      .error ⟨.grantedQoSs, maxcount, .write⟩ := by
    rw [store, if_neg (by omega), full]
  rw [readGranted, if_neg (by omega), ahead.char.1, ok_bind]
  simp only [missing, error_bind]

/-- Given an array of `maxcount` places, as the comment asks for, the function reads
all the codes of an answer or goes behind the array; it never refuses an answer. -/
theorem MQTTDeserialize_suback_eq (before : Granted)
    (bounded : (subackBody packetid grantedQoSs).length < 268435456)
    (reads : Reads block 0 (packetBytes (answerHeader .SUBACK) (subackBody packetid grantedQoSs))) :
    MQTTDeserialize_suback maxcount maxcount before block =
      if grantedQoSs.length ≤ maxcount then .ok (1, ⟨packetid, grantedQoSs⟩)
      else .error ⟨.grantedQoSs, maxcount, .write⟩ := by
  obtain ⟨first, length, body⟩ := opened_of_reads bounded reads
  have isSuback : (MQTTHeader.ofByte (answerHeader .SUBACK).byte).type = msgTypes.SUBACK.code := by
    decide
  rw [MQTTDeserialize_suback, first, ok_bind]
  simp only [isSuback, length, ok_bind, ne_eq, not_true_eq_false, if_false]
  have enough : (grantedQoSs.flatMap fun grantedQoS => [grantedQoS]).length ≤
      (subackBody packetid grantedQoSs).length := length_flatMap_le _ grantedQoSs packetid
  generalize (lengthBytes (subackBody packetid grantedQoSs).length).length = digits at body ⊢
  generalize 1 + digits + (subackBody packetid grantedQoSs).length = enddata at body ⊢
  obtain ⟨identifier, behind⟩ := body.int packetid.toNat_lt
  have twoLeft : ¬((enddata : Int) - (1 + digits : Nat) < 2) := by
    have ends := behind.ends
    omega
  have rounds : ∀ value ∈ grantedQoSs, ReadsItem block maxcount enddata
      (readGranted block maxcount maxcount) (fun grantedQoS => [grantedQoS])
      (fun item value => item = value) value := fun value _ => readGranted_eq value
  have codes : ([] : List UInt8).length + grantedQoSs.length = grantedQoSs.length := by simp
  simp only [twoLeft, if_false, identifier, ok_bind, UInt16.ofNat_toNat]
  by_cases places : grantedQoSs.length ≤ maxcount
  · obtain ⟨items, readAll, same⟩ := readItems_eq rounds (fun value _ => Nat.one_pos) behind
      (by rwa [codes]) enough
    rw [List.forall₂_eq_eq_eq] at same
    rw [if_pos places, readAll, ok_bind, same]
    rfl
  · rw [if_neg places, readItems_overrun rounds
      (fun value _ items ptr rest full => readGranted_overrun full) (fun value _ => Nat.one_pos) behind
      (Nat.zero_le _) (by rw [codes]; omega) enough, error_bind]

/-- Two bytes less than the packet has, and the codes, are asked for. -/
theorem MQTTSerialize_suback_eq (buf : Block size) (packetid : UInt16) (grantedQoSs : List UInt8) :
    MQTTSerialize_suback buf packetid grantedQoSs =
      if size < 2 + grantedQoSs.length then .ok (MQTTPACKET_BUFFER_TOO_SHORT, buf)
      else if (packetBytes (answerHeader .SUBACK) (subackBody packetid grantedQoSs)).length ≤ size then
        .ok ((packetBytes (answerHeader .SUBACK) (subackBody packetid grantedQoSs)).length,
          sent buf (answerHeader .SUBACK) (subackBody packetid grantedQoSs))
      else .error ⟨.buf, size, .write⟩ := by
  have codes : ∀ output : Output size, grantedQoSs.foldlM (fun ptr code => writeChar code ptr) output =
      output.emit Buffer.buf (grantedQoSs.flatMap fun grantedQoS => [grantedQoS]) :=
    fun output => Output.foldlM_eq_emit (fun code next => writeChar_eq code) _
  have chain : MQTTSerialize_suback buf packetid grantedQoSs =
      if size < 2 + grantedQoSs.length then .ok (MQTTPACKET_BUFFER_TOO_SHORT, buf)
      else (⟨buf, 0⟩ : Output size).emit Buffer.buf (packetBytes (answerHeader .SUBACK)
        (subackBody packetid grantedQoSs)) >>= fun output =>
          .ok ((output.ptr : Int), output.block) := by
    rw [MQTTSerialize_suback, packetBytes, length_subackBody]
    simp only [codes]
    simp only [writeChar_eq, MQTTPacket_encode_eq, writeInt_eq, subackBody, requestBody,
      Output.emit_cons, Output.emit_append, bind_assoc]
    rfl
  rw [chain, emit_packet_eq]

theorem MQTTSerialize_unsuback_eq (buf : Block size) (packetid : UInt16) :
    MQTTSerialize_unsuback buf packetid =
      if size < 2 then .ok (MQTTPACKET_BUFFER_TOO_SHORT, buf)
      else if 4 ≤ size then .ok (4, sent buf (answerHeader .UNSUBACK) (intBytes packetid.toNat))
      else .error ⟨.buf, size, .write⟩ := by
  have length : (packetBytes (answerHeader .UNSUBACK) (intBytes packetid.toNat)).length = 4 := by
    rw [length_packetBytes, length_intBytes, length_lengthBytes_of_lt (by decide)]
  have chain : MQTTSerialize_unsuback buf packetid =
      if size < 2 then .ok (MQTTPACKET_BUFFER_TOO_SHORT, buf)
      else (⟨buf, 0⟩ : Output size).emit Buffer.buf (packetBytes (answerHeader .UNSUBACK)
        (intBytes packetid.toNat)) >>= fun output => .ok ((output.ptr : Int), output.block) := by
    rw [MQTTSerialize_unsuback]
    simp only [writeChar_eq, MQTTPacket_encode_eq, writeInt_eq, packetBytes, length_intBytes,
      Output.emit_cons, Output.emit_append, bind_assoc]
    rfl
  rw [chain, emit_packet_eq, length]
  rfl

/-- Which of the fixed tests are too weak: the three answers of a server are written
behind the buffer exactly where it is as long as the test asks for and shorter than the
packet; an acknowledgement never is. -/
theorem writes_behind_buffer_iff (buf : Block size) (packetid : UInt16) (connack_rc : UInt8)
    (sessionPresent : Nat) (grantedQoSs : List UInt8) :
    ((∃ fault, MQTTSerialize_connack buf connack_rc sessionPresent = .error fault) ↔
      2 ≤ size ∧ size < 4) ∧
    ((∃ fault, MQTTSerialize_unsuback buf packetid = .error fault) ↔ 2 ≤ size ∧ size < 4) ∧
    ((∃ fault, MQTTSerialize_suback buf packetid grantedQoSs = .error fault) ↔
      2 + grantedQoSs.length ≤ size ∧
        size < 3 + (lengthBytes (2 + grantedQoSs.length)).length + grantedQoSs.length) ∧
    ∀ (packettype : msgTypes) (dup : Nat) (fault : Fault Buffer),
      MQTTSerialize_ack buf packettype dup packetid ≠ .error fault := by
  have faulty : ∀ {Result : Type} {early late : Prop} [Decidable early] [Decidable late]
      (refused written : Result) (fault : Fault Buffer),
      (∃ other, (if early then .ok refused else if late then .ok written else .error fault :
        Checked Buffer Result) = .error other) ↔ ¬early ∧ ¬late := by
    intro Result early late _ _ refused written fault
    by_cases first : early
    · simp [first]
    · by_cases second : late <;> simp [first, second]
  refine ⟨?_, ?_, ?_, ?_⟩
  · rw [MQTTSerialize_connack_eq, faulty]
    omega
  · rw [MQTTSerialize_unsuback_eq, faulty]
    omega
  · rw [MQTTSerialize_suback_eq, faulty, length_packetBytes, length_subackBody]
    omega
  · intro packettype dup fault failed
    rw [MQTTSerialize_ack_eq] at failed
    split at failed <;> cases failed

end Answers

end WifiIot.Paho
