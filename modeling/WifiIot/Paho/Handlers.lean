import WifiIot.Paho.Topic
import WifiIot.Resource.Keyed

/-!
# Message handlers

The table of a client has the addresses of topic filters, and reads them again in every
search.  As long as the filters in it stay what they were, the table stands for a map
from topic filters to handlers, with room for `MAX_MESSAGE_HANDLERS` filters, through any
run of its operations; a message goes to the handlers of the filters that match its topic.

Source: `paho_mqtt/MQTTClient-C/src/MQTTClient.h`, `MQTTClient.c`,
`MQTTSetMessageHandler`, `MQTTCleanSession` and `deliverMessage`.
-/

namespace WifiIot.Paho

open Memory Keyed

/-- `enum returnCode` -/
def BUFFER_OVERFLOW : Int := -2
def FAILURE : Int := -1
def SUCCESS : Int := 0

def MAX_MESSAGE_HANDLERS : Nat := 5

/-- `const char*` of an application. -/
abbrev Address := Nat

structure MessageHandlers (Handler : Type) where
  topicFilter : Option Address := none
  fp : Option Handler := none

variable {Handler : Type}

/-- What a slot's filter reads now, when the strings of the memory are these. -/
def MessageHandlers.filter (strings : Address → Text) (slot : MessageHandlers Handler) : Option Text :=
  slot.topicFilter.map strings

/-- What `MQTTClientInit` leaves: the pointers to the functions are not set. -/
def noHandlers (fp : Nat → Option Handler) : List (MessageHandlers Handler) :=
  (List.range MAX_MESSAGE_HANDLERS).map fun i => ⟨none, fp i⟩

def MQTTSetMessageHandler (strings : Address → Text) (messageHandlers : List (MessageHandlers Handler))
    (topicFilter : Address) (messageHandler : Option Handler) : Int × List (MessageHandlers Handler) :=
  -- an existing slot with the same filter
  match messageHandlers.findIdx? fun slot => slot.filter strings = some (strings topicFilter) with
  | some i =>
      match messageHandler with
      | none => (SUCCESS, messageHandlers.set i ⟨none, none⟩)
      | some fp => (SUCCESS, messageHandlers.set i ⟨some topicFilter, some fp⟩)
  | none =>
      match messageHandler with
      | none => (FAILURE, messageHandlers)
      | some fp =>
          -- an empty slot
          match messageHandlers.findIdx? fun slot => slot.topicFilter = none with
          | some i => (SUCCESS, messageHandlers.set i ⟨some topicFilter, some fp⟩)
          | none => (FAILURE, messageHandlers)

def MQTTCleanSession (messageHandlers : List (MessageHandlers Handler)) :
    List (MessageHandlers Handler) :=
  messageHandlers.map fun slot => { slot with topicFilter := none }

/-- The handlers that are called, in the order of the table, for a topic name out of a
packet. -/
def matchingHandlers (strings : Address → Text) {size : Nat} (block : Block size)
    (topicName : MQTTLenString) : List (MessageHandlers Handler) → Checked Buffer (List Handler)
  | [] => .ok []
  | slot :: slots => do
      let called ← (match slot.filter strings with
        | some topicFilter => do
            let equal ← MQTTPacket_equals block topicName topicFilter
            let matched ← (if equal then .ok true else isTopicMatched topicFilter block topicName)
            .ok (if matched then slot.fp.toList else [])
        | none => .ok [])
      let others ← matchingHandlers strings block topicName slots
      .ok (called ++ others)

def deliverMessage (strings : Address → Text) {size : Nat} (block : Block size)
    (topicName : MQTTLenString) (messageHandlers : List (MessageHandlers Handler))
    (defaultMessageHandler : Option Handler) : Checked Buffer (Int × List Handler) := do
  let called ← matchingHandlers strings block topicName messageHandlers
  if called = [] then
    match defaultMessageHandler with
    | some fp => .ok (SUCCESS, [fp])
    | none => .ok (FAILURE, [])
  else .ok (SUCCESS, called)

/-! ## The table as a map -/

inductive Operation (Handler : Type) where
  | setMessageHandler (topicFilter : Address) (messageHandler : Option Handler)
  | cleanSession

/-- An operation, and the strings of the memory when it is called. -/
structure TableCall (Handler : Type) where
  strings : Address → Text
  operation : Operation Handler

def TableCall.perform (call : TableCall Handler) (slots : List (MessageHandlers Handler)) :
    Int × List (MessageHandlers Handler) :=
  match call.operation with
  | .setMessageHandler topicFilter messageHandler =>
      MQTTSetMessageHandler call.strings slots topicFilter messageHandler
  | .cleanSession => (SUCCESS, MQTTCleanSession slots)

def Unchanged (slots : List (MessageHandlers Handler)) (before after : Address → Text) : Prop :=
  ∀ slot ∈ slots, ∀ address, slot.topicFilter = some address → after address = before address

/-- A filter stays what it is while its address is in the table, from one call to the next
and until `now`. -/
def Lasting (now : Address → Text) :
    (Address → Text) → List (MessageHandlers Handler) → List (TableCall Handler) → Prop
  | strings, slots, [] => Unchanged slots strings now
  | strings, slots, call :: calls =>
      Unchanged slots strings call.strings ∧ Lasting now call.strings (call.perform slots).2 calls

abbrev Subscriptions (Handler : Type) := Text → Option Handler

open Classical in
noncomputable def TableCall.change (call : TableCall Handler) (map : Subscriptions Handler) :
    Int × Subscriptions Handler :=
  match call.operation with
  | .setMessageHandler topicFilter (some fp) =>
      if map (call.strings topicFilter) ≠ none ∨
          {filter | map filter ≠ none}.ncard < MAX_MESSAGE_HANDLERS then
        (SUCCESS, Function.update map (call.strings topicFilter) (some fp))
      else (FAILURE, map)
  | .setMessageHandler topicFilter none =>
      if map (call.strings topicFilter) ≠ none then
        (SUCCESS, Function.update map (call.strings topicFilter) none)
      else (FAILURE, map)
  | .cleanSession => (SUCCESS, fun _ => none)

/-- The results of calls in a row, and the state behind them. -/
def runAll {State : Type} (step : TableCall Handler → State → Int × State) :
    List (TableCall Handler) → State → List Int × State
  | [], state => ([], state)
  | call :: calls, state =>
      let (rc, state) := step call state
      let (rest, state) := runAll step calls state
      (rc :: rest, state)

structure Holds (strings : Address → Text) (slots : List (MessageHandlers Handler))
    (map : Subscriptions Handler) : Prop where
  represents : Represents (MessageHandlers.filter strings) MessageHandlers.fp slots map
  length : slots.length = MAX_MESSAGE_HANDLERS

section Refinement

variable {strings : Address → Text} {slots : List (MessageHandlers Handler)} {map : Subscriptions Handler}

theorem holds_noHandlers (strings : Address → Text) (fp : Nat → Option Handler) :
    Holds strings (noHandlers fp) fun _ => none where
  represents := Represents.vacant fun slot membership => by
    obtain ⟨i, -, rfl⟩ := List.mem_map.mp membership
    rfl
  length := by rw [noHandlers, List.length_map, List.length_range]

theorem Holds.clean (holds : Holds strings slots map) :
    Holds strings (MQTTCleanSession slots) fun _ => none where
  represents := Represents.vacant fun slot membership => by
    obtain ⟨old, -, rfl⟩ := List.mem_map.mp membership
    rfl
  length := by rw [MQTTCleanSession, List.length_map, holds.length]

theorem Holds.later (holds : Holds strings slots map) {after : Address → Text}
    (unchanged : Unchanged slots strings after) : Holds after slots map where
  represents := holds.represents.congr fun slot membership => by
    rw [MessageHandlers.filter, MessageHandlers.filter]
    exact Option.map_congr fun address taken => unchanged slot membership address taken
  length := holds.length

theorem Holds.findIdx?_isSome (holds : Holds strings slots map) (topicFilter : Text) :
    (slots.findIdx? fun slot => slot.filter strings = some topicFilter).isSome ↔
      map topicFilter ≠ none := by
  rw [← holds.represents.mem_keys_iff, mem_keys, List.findIdx?_isSome, List.any_eq_true]
  simp only [decide_eq_true_eq]

theorem filter_eq_none {slot : MessageHandlers Handler} :
    slot.filter strings = none ↔ slot.topicFilter = none := Option.map_eq_none_iff

theorem Holds.findIdx?_vacant_isSome (holds : Holds strings slots map) :
    (slots.findIdx? fun slot => slot.topicFilter = none).isSome ↔
      {filter | map filter ≠ none}.ncard < MAX_MESSAGE_HANDLERS := by
  rw [← holds.length, ← holds.represents.exists_vacant_iff, List.findIdx?_isSome, List.any_eq_true]
  simp only [decide_eq_true_eq, filter_eq_none]

theorem Holds.setMessageHandler (holds : Holds strings slots map) (topicFilter : Address)
    (messageHandler : Option Handler) :
    (MQTTSetMessageHandler strings slots topicFilter messageHandler).1 =
        ((TableCall.mk strings (.setMessageHandler topicFilter messageHandler)).change map).1 ∧
      Holds strings (MQTTSetMessageHandler strings slots topicFilter messageHandler).2
        ((TableCall.mk strings (.setMessageHandler topicFilter messageHandler)).change map).2 := by
  have known := holds.findIdx?_isSome (strings topicFilter)
  have room := holds.findIdx?_vacant_isSome
  simp only [MQTTSetMessageHandler]
  cases existing : slots.findIdx? fun slot => slot.filter strings = some (strings topicFilter) with
  | some i =>
      rw [existing] at known
      have present := known.mp rfl
      obtain ⟨front, slot, rest, rfl, place, same⟩ := exists_of_findIdx? existing
      have owns : slot.filter strings = some (strings topicFilter) := of_decide_eq_true same
      cases messageHandler with
      | none =>
          simp only [TableCall.change, if_pos present, set_found place, true_and]
          exact ⟨holds.represents.remove owns rfl, by simpa using holds.length⟩
      | some fp =>
          simp only [TableCall.change, if_pos (Or.inl present), set_found place, true_and]
          exact ⟨holds.represents.put (.inl owns) rfl rfl, by simpa using holds.length⟩
  | none =>
      rw [existing] at known
      have absent : map (strings topicFilter) = none := by
        by_contra present
        exact Bool.false_ne_true (known.mpr present)
      cases messageHandler with
      | none =>
          simp only [TableCall.change, absent, ne_eq, not_true_eq_false, if_false, true_and]
          exact holds
      | some fp =>
          simp only [TableCall.change, absent, ne_eq, not_true_eq_false, false_or]
          cases vacant : slots.findIdx? fun slot => slot.topicFilter = none with
          | some i =>
              rw [vacant] at room
              obtain ⟨front, slot, rest, rfl, place, free⟩ := exists_of_findIdx? vacant
              have unused : slot.filter strings = none := filter_eq_none.mpr (of_decide_eq_true free)
              simp only [if_pos (room.mp rfl), set_found place, true_and]
              exact ⟨holds.represents.put (.inr ⟨unused, absent⟩) rfl rfl, by simpa using holds.length⟩
          | none =>
              rw [vacant] at room
              simp only [if_neg fun fewer => Bool.false_ne_true (room.mpr fewer), true_and]
              exact holds

theorem Holds.perform {call : TableCall Handler} (holds : Holds call.strings slots map) :
    (call.perform slots).1 = (call.change map).1 ∧
      Holds call.strings (call.perform slots).2 (call.change map).2 := by
  obtain ⟨strings, operation⟩ := call
  cases operation with
  | setMessageHandler topicFilter messageHandler =>
      exact holds.setMessageHandler topicFilter messageHandler
  | cleanSession => exact ⟨rfl, holds.clean⟩

theorem Holds.runAll (holds : Holds strings slots map) {now : Address → Text}
    {calls : List (TableCall Handler)} (lasting : Lasting now strings slots calls) :
    (runAll TableCall.perform calls slots).1 = (runAll TableCall.change calls map).1 ∧
      Holds now (runAll TableCall.perform calls slots).2 (runAll TableCall.change calls map).2 := by
  induction calls generalizing strings slots map with
  | nil => exact ⟨rfl, holds.later lasting⟩
  | cons call calls inductionHypothesis =>
      obtain ⟨unchanged, lasts⟩ := lasting
      obtain ⟨sameResult, next⟩ := (holds.later unchanged).perform
      obtain ⟨sameResults, last⟩ := inductionHypothesis next lasts
      exact ⟨congrArg₂ List.cons sameResult sameResults, last⟩

end Refinement

/-! ## Messages -/

/-- A message with this topic goes to the handler of the filter. -/
def Concerns (name : List UInt8) (topicFilter : Text) : Prop :=
  name = topicFilter.val ∨ topicMatches topicFilter.val name = true

instance (name : List UInt8) (topicFilter : Text) : Decidable (Concerns name topicFilter) :=
  inferInstanceAs (Decidable (_ ∨ _))

section Delivery

variable {size : Nat} {block : Block size} {topicName : MQTTLenString} {name : List UInt8}
  {strings : Address → Text} {slots : List (MessageHandlers Handler)} {map : Subscriptions Handler}

section Names

variable (strings : Address → Text) (name : List UInt8)

def concerned (slots : List (MessageHandlers Handler)) : List Text :=
  (keys (MessageHandlers.filter strings) slots).filter fun topicFilter => Concerns name topicFilter

/-- The handler of a slot, if its filter concerns the message. -/
def receiver (slot : MessageHandlers Handler) : List Handler :=
  match slot.filter strings with
  | some topicFilter => if Concerns name topicFilter then slot.fp.toList else []
  | none => []

def receivers (slots : List (MessageHandlers Handler)) : List Handler :=
  slots.flatMap (receiver strings name)

/-- A message goes to the handlers of the filters that concern it, or to the default one. -/
def delivery (slots : List (MessageHandlers Handler)) (default : Option Handler) : List Handler :=
  if (receivers strings name slots).length = 0 then default.toList else receivers strings name slots

end Names

theorem matchingHandlers_eq (strings : Address → Text) (holds : topicName.Holds block name)
    (slots : List (MessageHandlers Handler)) :
    matchingHandlers strings block topicName slots = .ok (receivers strings name slots) := by
  induction slots with
  | nil => rfl
  | cons slot slots inductionHypothesis =>
      have split : receivers strings name (slot :: slots) = receiver strings name slot ++ receivers strings name slots :=
        List.flatMap_cons
      rw [matchingHandlers, inductionHypothesis, split, receiver]
      cases slot.filter strings with
      | none => rfl
      | some topicFilter =>
          have found : (if name = topicFilter.val then (.ok true : Checked Buffer Bool)
              else .ok (topicMatches topicFilter.val name)) = .ok (decide (Concerns name topicFilter)) := by
            by_cases equal : name = topicFilter.val
            · simp [Concerns, equal]
            · simp [Concerns, equal]
          simp only [MQTTPacket_equals_eq holds, isTopicMatched_eq topicFilter holds, ok_bind,
            decide_eq_true_iff]
          simp only [found, ok_bind, decide_eq_true_iff]

theorem receivers_eq (bound : ∀ slot ∈ slots, ∀ topicFilter, slot.filter strings = some topicFilter →
      slot.fp = map topicFilter) : receivers strings name slots = (concerned strings name slots).filterMap map := by
  induction slots with
  | nil => rfl
  | cons slot slots inductionHypothesis =>
      obtain ⟨first, others⟩ := List.forall_mem_cons.mp bound
      have split : receivers strings name (slot :: slots) = receiver strings name slot ++ receivers strings name slots :=
        List.flatMap_cons
      rw [split, inductionHypothesis others, receiver]
      cases taken : slot.filter strings with
      | none => simp [concerned, keys, taken]
      | some topicFilter =>
          simp only [first topicFilter taken]
          by_cases concerns : Concerns name topicFilter
          · have kept : concerned strings name (slot :: slots) =
                topicFilter :: concerned strings name slots := by
              simp [concerned, keys, taken, concerns]
            rw [kept, List.filterMap_cons, if_pos concerns]
            cases map topicFilter <;> rfl
          · rw [if_neg concerns, List.nil_append]
            simp [concerned, keys, taken, concerns]

theorem deliverMessage_of_holds (strings : Address → Text) (holds : topicName.Holds block name)
    (slots : List (MessageHandlers Handler)) (default : Option Handler) :
    ∃ rc, deliverMessage strings block topicName slots default =
      .ok (rc, delivery strings name slots default) := by
  simp only [deliverMessage, matchingHandlers_eq strings holds, ok_bind, delivery, List.length_eq_zero_iff]
  by_cases nobody : receivers strings name slots = []
  · rw [if_pos nobody, if_pos nobody]
    cases default <;> exact ⟨_, rfl⟩
  · rw [if_neg nobody, if_neg nobody]
    exact ⟨_, rfl⟩

/-- A message is handed over once for each filter that concerns it, or to the default
handler when there is none. -/
theorem deliverMessage_eq (holds : topicName.Holds block name) (represents : Represents
      (MessageHandlers.filter strings) MessageHandlers.fp slots map) (default : Option Handler) :
    ∃ filters : List Text, filters.Nodup ∧
      (∀ topicFilter, topicFilter ∈ filters ↔ map topicFilter ≠ none ∧ Concerns name topicFilter) ∧
      deliverMessage strings block topicName slots default =
        .ok (if filters = [] then
            (if default.isSome then SUCCESS else FAILURE, default.toList)
          else (SUCCESS, filters.filterMap map)) ∧
      (filters.filterMap map).length = filters.length := by
  have delivered := matchingHandlers_eq strings holds slots
  have bound : ∀ slot ∈ slots, ∀ topicFilter, slot.filter strings = some topicFilter →
      slot.fp = map topicFilter := fun slot membership topicFilter taken =>
    represents.value_eq membership taken
  rw [receivers_eq bound] at delivered
  have mem (topicFilter : Text) : topicFilter ∈ concerned strings name slots ↔
      map topicFilter ≠ none ∧ Concerns name topicFilter := by
    rw [concerned, List.mem_filter, represents.mem_keys_iff, decide_eq_true_iff]
  have all : ((concerned strings name slots).filterMap map).length = (concerned strings name slots).length :=
    List.filterMap_length_eq_length.mpr fun topicFilter membership =>
      Option.isSome_iff_ne_none.mpr ((mem topicFilter).mp membership).1
  refine ⟨concerned strings name slots, represents.distinct.filter _, mem, ?_, all⟩
  simp only [deliverMessage, delivered, ok_bind]
  by_cases nobody : concerned strings name slots = []
  · rw [nobody, List.filterMap_nil, if_pos rfl, if_pos rfl]
    cases default <;> rfl
  · have called : (concerned strings name slots).filterMap map ≠ [] := by
      intro empty
      rw [empty] at all
      exact nobody (List.length_eq_zero_iff.mp all.symm)
    rw [if_neg called, if_neg nobody]

end Delivery

/-- After any run of calls in which a filter stays what it is while it is in the table, the
table has the filters that were set last, never more than five of them and none of them
twice, every call has returned what the map would have, and a message goes to the handler
of each filter that concerns it. -/
theorem runAll_deliverMessage {calls : List (TableCall Handler)} {fp : Nat → Option Handler}
    {start now : Address → Text} (lasting : Lasting now start (noHandlers fp) calls)
    {size : Nat} {block : Block size} {topicName : MQTTLenString} {name : List UInt8}
    (holds : topicName.Holds block name) (default : Option Handler) :
    ∃ (slots : List (MessageHandlers Handler)) (map : Subscriptions Handler) (filters : List Text),
      runAll TableCall.perform calls (noHandlers fp) =
        ((runAll TableCall.change calls fun _ => none).1, slots) ∧
      (runAll TableCall.change calls fun _ => none).2 = map ∧
      {topicFilter | map topicFilter ≠ none}.ncard ≤ MAX_MESSAGE_HANDLERS ∧
      filters.Nodup ∧
      (∀ topicFilter, topicFilter ∈ filters ↔ map topicFilter ≠ none ∧ Concerns name topicFilter) ∧
      (filters.filterMap map).length = filters.length ∧
      deliverMessage now block topicName slots default =
        .ok (if filters = [] then
            (if default.isSome then SUCCESS else FAILURE, default.toList)
          else (SUCCESS, filters.filterMap map)) := by
  obtain ⟨same, last⟩ := (holds_noHandlers start fp).runAll lasting
  have few : {topicFilter | (runAll TableCall.change calls fun _ => none).2 topicFilter ≠
      none}.ncard ≤ MAX_MESSAGE_HANDLERS := by
    rw [← last.represents.length_keys, ← last.length]
    exact List.length_filterMap_le _ _
  obtain ⟨filters, distinct, mem, delivered, all⟩ := deliverMessage_eq holds last.represents default
  exact ⟨_, _, filters, Prod.ext same rfl, rfl, few, distinct, mem, all, delivered⟩

/-- Two filters for a topic; one of them is removed again, and its string is overwritten. -/
theorem runAll_deliverMessage_one_left :
    let before : Address → Text := fun address =>
      if address = 0 then ⟨[35], by decide⟩ else ⟨[97], by decide⟩
    let now : Address → Text := fun address =>
      if address = 0 then ⟨[98], by decide⟩ else ⟨[97], by decide⟩
    let calls : List (TableCall Nat) := [⟨before, .setMessageHandler 0 (some 1)⟩,
      ⟨before, .setMessageHandler 1 (some 2)⟩, ⟨before, .setMessageHandler 0 none⟩]
    ∃ (slots : List (MessageHandlers Nat)) (filters : List Text),
      (runAll TableCall.perform calls (noHandlers fun _ => none)).2 = slots ∧
      (∀ topicFilter, topicFilter ∈ filters ↔
        (runAll TableCall.change calls fun _ => none).2 topicFilter ≠ none ∧ Concerns [97] topicFilter) ∧
      deliverMessage now (fun _ => 97 : Block 1) ⟨0, 1⟩ slots (some 0) =
        .ok (if filters = [] then (SUCCESS, [0]) else (SUCCESS, filters.filterMap
          (runAll TableCall.change calls fun _ => none).2)) := by
  intro before now calls
  have removed : ∀ slot ∈ (runAll TableCall.perform calls (noHandlers fun _ => none)).2,
      slot.topicFilter ≠ some 0 := by decide
  have unchanged : Unchanged (runAll TableCall.perform calls (noHandlers fun _ => none)).2 before now := by
    intro slot membership address taken
    have other : address ≠ 0 := fun here => removed slot membership (here ▸ taken)
    simp only [before, now, if_neg other]
  have lasting : Lasting now before (noHandlers fun _ => none) calls :=
    ⟨fun _ _ _ _ => rfl, fun _ _ _ _ => rfl, fun _ _ _ _ => rfl, unchanged⟩
  obtain ⟨slots, map, filters, ran, rfl, -, -, mem, -, delivered⟩ := runAll_deliverMessage lasting
    (show (⟨0, 1⟩ : MQTTLenString).Holds (fun _ => 97 : Block 1) [97] from ⟨rfl, by decide⟩) (some 0)
  exact ⟨slots, filters, congrArg Prod.snd ran, mem, delivered⟩

end WifiIot.Paho
