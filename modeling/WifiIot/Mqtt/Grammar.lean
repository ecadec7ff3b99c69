import WifiIot.Memory.Token
import WifiIot.Mqtt.Lamp

/-!
# The command grammar of the MQTT lamp

The documented command is `color,state` with a color from 1 to 3 and the state
1 for off or 2 for on.  The callback refuses zeros and `SetTrafficLight` other
colors, but no check refuses another state, which lights the lamp.

Source: `mqtt_light/mqtt_task.c`, `OnMessageArrived`, and
`mqtt_light/traffic_light.c`, `SetTrafficLight`.
-/

namespace WifiIot.Mqtt.Lamp

open Memory

abbrev Pins : Type := Nat → GpioValue

def Action.apply (pins : Pins) : Action → Pins
  | .SetTrafficLight _ _ => pins
  | .IoTGpioSetOutputVal id val => Function.update pins id val

def lampOf (color : Int) : Option Nat :=
  if color = 1 then some RED_GPIO
  else if color = 2 then some GREEN_GPIO
  else if color = 3 then some YELLOW_GPIO
  else none

def levelOf (state : Int) : Option GpioValue :=
  if state = 1 then some .IOT_GPIO_VALUE0
  else if state = 2 then some .IOT_GPIO_VALUE1
  else none

/-- The documented effect of a command. -/
def documented (color state : Int) (pins : Pins) : Pins :=
  match lampOf color, levelOf state with
  | some lamp, some level => Function.update pins lamp level
  | _, _ => pins

section Payload

variable (overflow : Int → Int)

/-- The number in the token with this index, and 0 if there is none. -/
def field (payload : Text) (index : Nat) : Int :=
  ((tokens isComma payload.val)[index]?).elim 0 (numeral overflow)

/-- The callback returns and has switched the lamps as documented. -/
def Obeys (readbuf : ReadBuf) (start : Nat) (payload : Text) (pins : Pins) : Prop :=
  ∃ next actions, OnMessageArrived overflow readbuf start = .ok (next, actions) ∧
    actions.foldl Action.apply pins =
      documented (field overflow payload 0) (field overflow payload 1) pins

/-- The command asks a lamp that is off for a state that is not documented. -/
def Undocumented (payload : Text) (pins : Pins) : Prop :=
  ∃ lamp, lampOf (field overflow payload 0) = some lamp ∧
    field overflow payload 1 ≠ 0 ∧ field overflow payload 1 ≠ 1 ∧ field overflow payload 1 ≠ 2 ∧
    pins lamp = .IOT_GPIO_VALUE0

variable {overflow} {readbuf : ReadBuf} {start : Nat}

theorem number_of_returned {parsed : Parsed READBUF_SIZE} {word : Option (List UInt8)}
    (returned : Returned parsed word) :
    number overflow parsed.text parsed.token = .ok (word.elim 0 (numeral overflow)) := by
  cases word with
  | none =>
      have noToken : parsed.token = none := returned
      rw [noToken]
      rfl
  | some word =>
      obtain ⟨-, token, found, reads⟩ := returned
      rw [found]
      exact reads.atoi Buffer.readbuf overflow

/-- What the callback does is a matter of the first two tokens. -/
theorem OnMessageArrived_eq (overflow : Int → Int) {payload : Text}
    (held : Reads readbuf start (payload.val ++ [0])) :
    ∃ next, OnMessageArrived overflow readbuf start =
      .ok (next, command (field overflow payload 0) (field overflow payload 1)) := by
  have remains : Remains isComma readbuf (some start) (tokens isComma payload.val) :=
    ⟨payload.val, payload.property, held, rfl⟩
  obtain ⟨first, parsedFirst, returnedFirst, remains⟩ := remains.strtok Buffer.readbuf isComma_zero
  obtain ⟨second, parsedSecond, returnedSecond, -⟩ := remains.strtok Buffer.readbuf isComma_zero
  refine ⟨second.text, ?_⟩
  simp only [OnMessageArrived, parsedFirst, parsedSecond, ok_bind, number_of_returned returnedFirst,
    number_of_returned returnedSecond, field, List.head?_eq_getElem?, List.getElem?_tail]
  rfl

theorem foldl_SetTrafficLight (color state : Int) (pins : Pins) :
    (SetTrafficLight color state).foldl Action.apply pins =
      (lampOf color).elim pins fun lamp => Function.update pins lamp (gpioValue state) := by
  unfold SetTrafficLight lampOf
  split_ifs <;> rfl

theorem foldl_command (color state : Int) (pins : Pins) :
    (command color state).foldl Action.apply pins =
      if state = 0 then pins
      else (lampOf color).elim pins fun lamp => Function.update pins lamp (gpioValue state) := by
  unfold command
  by_cases refused : state = 0
  · simp [refused]
  by_cases missing : color = 0
  · simp [missing, refused, lampOf]
  · rw [if_neg (by simp [refused, missing]), if_neg refused, List.foldl_cons]
    exact foldl_SetTrafficLight color state pins

theorem gpioValue_of_undocumented {state : Int} (other : state ≠ 1) :
    gpioValue state = .IOT_GPIO_VALUE1 := if_neg other

/-- The effect of a command is the documented one unless it lights a lamp. -/
theorem foldl_command_eq_documented_iff (color state : Int) (pins : Pins) :
    (command color state).foldl Action.apply pins = documented color state pins ↔
      ¬∃ lamp, lampOf color = some lamp ∧ state ≠ 0 ∧ state ≠ 1 ∧ state ≠ 2 ∧
        pins lamp = .IOT_GPIO_VALUE0 := by
  rw [foldl_command]
  cases named : lampOf color with
  | none => simp [documented, named]
  | some lamp =>
      by_cases refused : state = 0
      · simp [documented, named, refused, levelOf]
      by_cases off : state = 1
      · simp [documented, named, off, levelOf, gpioValue]
      by_cases on : state = 2
      · simp [documented, named, on, levelOf, gpioValue]
      have undocumented : documented color state pins = pins := by
        simp [documented, named, levelOf, off, on]
      rw [undocumented, if_neg refused, Option.elim_some, gpioValue_of_undocumented off,
        Function.update_eq_self_iff]
      cases level : pins lamp with
      | IOT_GPIO_VALUE0 => simp [refused, off, on, level]
      | IOT_GPIO_VALUE1 => simp [level]

/-- The lamps are switched as documented exactly if no undocumented state is
asked of a lamp that is off. -/
theorem obeys_iff {payload : Text} (held : Reads readbuf start (payload.val ++ [0])) (pins : Pins) :
    Obeys overflow readbuf start payload pins ↔ ¬Undocumented overflow payload pins := by
  obtain ⟨next, returned⟩ := OnMessageArrived_eq overflow held
  refine Iff.trans ?_ (foldl_command_eq_documented_iff _ _ pins)
  constructor
  · rintro ⟨_, actions, same, effect⟩
    obtain ⟨-, rfl⟩ : _ ∧ command _ _ = actions := by simpa using returned.symm.trans same
    exact effect
  · intro effect
    exact ⟨next, _, returned, effect⟩

end Payload

def received (message : List UInt8) : ReadBuf := fun i => message.getD i.val 0

def dark : Pins := fun _ => .IOT_GPIO_VALUE0

/-- The message `2,1`. -/
def greenOff : Text := ⟨[0x32, 0x2c, 0x31], by decide⟩

/-- The message `1,3`. -/
def redThree : Text := ⟨[0x31, 0x2c, 0x33], by decide⟩

theorem obeys_iff_greenOff : Obeys id (received greenOff.val) 0 greenOff dark := by
  refine (obeys_iff (by decide) dark).mpr ?_
  rintro ⟨-, -, -, documented, -⟩
  exact documented (by decide)

/-- The state 3 is not documented and lights the red lamp. -/
theorem undocumented_state_lights :
    (OnMessageArrived id (received redThree.val) 0).map Prod.snd =
        .ok [.SetTrafficLight 1 3, .IoTGpioSetOutputVal RED_GPIO .IOT_GPIO_VALUE1] ∧
      ¬Obeys id (received redThree.val) 0 redThree dark := by
  have lights : (OnMessageArrived id (received redThree.val) 0).map Prod.snd =
      .ok [.SetTrafficLight 1 3, .IoTGpioSetOutputVal RED_GPIO .IOT_GPIO_VALUE1] := by
    decide +kernel
  refine ⟨lights, ?_⟩
  rintro ⟨next, actions, returned, effect⟩
  rw [returned] at lights
  obtain rfl : actions = _ := Except.ok.inj lights
  have level := congrFun effect RED_GPIO
  revert level
  decide

end WifiIot.Mqtt.Lamp
