import Mathlib.Data.List.GetD
import WifiIot.Memory.CString

/-!
# The credentials in a message

`ParseWifiInfo` copies the name and the password of a message to buffers of its
caller.  `strncpy_s` returns a positive number when a text does not fit and
empties the buffer; the code asks for a negative one, so it accepts the message
with an empty name or password.

Source: `astronauts_game/common/netcfg/src/network_config.c`.
-/

namespace WifiIot.Credentials

open Memory

universe u

def CMD_KEY : String := "cmd"
def PAR_KEY : String := "param"
def VAL_KEY : String := "wifiName"
def PWD_KEY : String := "wifiPassword"
def CMD_CONFIG : Int := 0x20

/-- The functions of `json/jsonutil.h`. -/
structure JsonUtil (Json : Type u) where
  parse_json : Text → Option Json
  get_json_int : Json → String → Int
  get_json_obj : Json → String → Option Json
  get_json_string : Json → String → Option Text

/-- The bounded copy `strncpy_s(dest, sizeof(dest), src, strlen(src))`. -/
structure Securec where
  strncpy_s : {size : Nat} → Block size → Text → Int × Block size
  copied : ∀ {size : Nat} (dest : Block size) (src : Text), strlen src < size →
    (strncpy_s dest src).1 = 0 ∧ (strncpy_s dest src).2.content = src
  reset : ∀ {size : Nat} (dest : Block size) (src : Text), size ≤ strlen src →
    0 < (strncpy_s dest src).1 ∧ (strncpy_s dest src).2.content = emptyText

def ERANGE_AND_RESET : Int := 162

/-- What `ParseWifiInfo` returns and leaves in the buffers; `leaked` is a handle
that it does not free. -/
structure WifiInfo (Json : Type u) (sl pl : Nat) where
  retval : Int
  ssid : Block sl
  pwd : Block pl
  leaked : Option Json

section Parsing

variable {Json : Type u} {sl pl : Nat}

def ParseWifiInfo (json : JsonUtil Json) (securec : Securec) (psr : Text) (ssid : Block sl)
    (pwd : Block pl) : WifiInfo Json sl pl :=
  match json.parse_json psr with
  | none => ⟨-1, ssid, pwd, none⟩
  | some handle =>
      if json.get_json_int handle CMD_KEY ≠ CMD_CONFIG then ⟨-1, ssid, pwd, some handle⟩
      else
        match json.get_json_obj handle PAR_KEY with
        | none => ⟨-1, ssid, pwd, none⟩
        | some sub =>
            match json.get_json_string sub VAL_KEY with
            | none => ⟨-1, ssid, pwd, none⟩
            | some ps =>
                let name := securec.strncpy_s ssid ps
                if name.1 < 0 then ⟨-1, name.2, pwd, none⟩
                else
                  match json.get_json_string sub PWD_KEY with
                  | none => ⟨0, name.2, pwd, none⟩
                  | some pw =>
                      let password := securec.strncpy_s pwd pw
                      if password.1 < 0 then ⟨-1, name.2, password.2, none⟩
                      else ⟨0, name.2, password.2, none⟩

structure Message where
  wifiName : Text
  wifiPassword : Option Text

def message (json : JsonUtil Json) (psr : Text) : Option Message :=
  (json.parse_json psr).bind fun handle =>
    if json.get_json_int handle CMD_KEY = CMD_CONFIG then
      (json.get_json_obj handle PAR_KEY).bind fun sub =>
        (json.get_json_string sub VAL_KEY).map fun wifiName =>
          ⟨wifiName, json.get_json_string sub PWD_KEY⟩
    else none

/-- The message is taken over exactly, or it is refused and nothing changes. -/
structure TakenOver (json : JsonUtil Json) (psr : Text) (ssid : Block sl) (pwd : Block pl)
    (info : WifiInfo Json sl pl) : Prop where
  accepted : info.retval = 0 → ∃ received, message json psr = some received ∧
    info.ssid.content = received.wifiName ∧
    ∀ password, received.wifiPassword = some password → info.pwd.content = password
  refused : info.retval = -1 → info.ssid = ssid ∧ info.pwd = pwd

/-- A text that does not fit, other than the empty one. -/
def Exceeds (size : Nat) (text : Text) : Prop := size ≤ strlen text ∧ text ≠ emptyText

end Parsing

/-! ## The copy -/

def kept (size : Nat) (text : Text) : Text := if strlen text < size then text else emptyText

theorem kept_eq_self_iff {size : Nat} {text : Text} :
    kept size text = text ↔ ¬Exceeds size text := by
  unfold kept Exceeds
  split
  · rename_i fits
    exact ⟨fun _ exceeds => absurd fits (Nat.not_lt.mpr exceeds.1), fun _ => rfl⟩
  · rename_i full
    constructor
    · intro same exceeds
      exact exceeds.2 same.symm
    · intro fits
      by_contra different
      exact fits ⟨Nat.not_lt.mp full, fun same => different same.symm⟩

namespace Securec

variable (securec : Securec) {size : Nat} (dest : Block size) (src : Text)

/-- The error that the code asks for does not exist. -/
theorem strncpy_s_nonneg : ¬(securec.strncpy_s dest src).1 < 0 := by
  rcases Nat.lt_or_ge (strlen src) size with fits | full
  · rw [(securec.copied dest src fits).1]
    decide
  · have positive := (securec.reset dest src full).1
    omega

theorem content_strncpy_s : (securec.strncpy_s dest src).2.content = kept size src := by
  unfold kept
  split
  · rename_i fits
    exact (securec.copied dest src fits).2
  · rename_i full
    exact (securec.reset dest src (Nat.not_lt.mp full)).2

end Securec

/-- The copy as the C library has it: a text that does not fit leaves a NUL in
the first byte. -/
def strncpy_s {size : Nat} (dest : Block size) (src : Text) : Int × Block size :=
  if strlen src < size then (0, dest.patch 0 (strlen src + 1) fun k => src.val.getD k 0)
  else (ERANGE_AND_RESET, dest.patch 0 1 fun _ => 0)

theorem strncpy_s_copied {size : Nat} (dest : Block size) (src : Text) (fits : strlen src < size) :
    (strncpy_s dest src).1 = 0 ∧ (strncpy_s dest src).2.content = src := by
  rw [strncpy_s, if_pos fits]
  refine ⟨rfl, content_eq fits ?_ ?_⟩
  · intro k inside
    have within : k < strlen src := inside
    rw [Block.byteAt_patch (by omega), if_pos (by omega), Nat.sub_zero,
      List.getD_eq_getElem _ _ inside]
  · rw [Block.byteAt_patch fits, if_pos (by omega), Nat.sub_zero, strlen,
      List.getD_eq_default _ _ le_rfl]

theorem strncpy_s_reset {size : Nat} (dest : Block size) (src : Text) (full : size ≤ strlen src) :
    0 < (strncpy_s dest src).1 ∧ (strncpy_s dest src).2.content = emptyText := by
  rw [strncpy_s, if_neg (Nat.not_lt.mpr full)]
  refine ⟨show 0 < ERANGE_AND_RESET by decide, ?_⟩
  cases size with
  | zero => rfl
  | succ size =>
      have first : (dest.patch 0 1 fun _ => 0).byteAt 0 = 0 := by
        rw [Block.byteAt_patch (Nat.succ_pos size), if_pos (by omega)]
      refine content_eq (Nat.succ_pos size) ?_ first
      exact fun k inside => absurd inside (Nat.not_lt_zero k)

def boundedCopy : Securec := ⟨strncpy_s, strncpy_s_copied, strncpy_s_reset⟩

/-! ## The exits -/

section Exits

variable {Json : Type u} {json : JsonUtil Json} {securec : Securec} {psr : Text} {sl pl : Nat}
  {ssid : Block sl} {pwd : Block pl}

def passwordBuffer (securec : Securec) (pwd : Block pl) : Option Text → Block pl
  | none => pwd
  | some pw => (securec.strncpy_s pwd pw).2

def otherCommand (json : JsonUtil Json) (psr : Text) : Option Json :=
  (json.parse_json psr).filter fun handle => json.get_json_int handle CMD_KEY ≠ CMD_CONFIG

/-- A message is accepted, whether its texts fit or not. -/
theorem ParseWifiInfo_of_message {received : Message} (read : message json psr = some received) :
    ParseWifiInfo json securec psr ssid pwd =
      ⟨0, (securec.strncpy_s ssid received.wifiName).2,
        passwordBuffer securec pwd received.wifiPassword, otherCommand json psr⟩ := by
  obtain ⟨handle, parsed, read⟩ := Option.bind_eq_some_iff.mp read
  split at read
  · rename_i config
    obtain ⟨sub, param, read⟩ := Option.bind_eq_some_iff.mp read
    obtain ⟨ps, name, rfl⟩ := Option.map_eq_some_iff.mp read
    have freed : otherCommand json psr = none := by simp [otherCommand, parsed, config]
    simp only [ParseWifiInfo, parsed, config, ne_eq, not_true_eq_false, if_false, param, name,
      if_neg (securec.strncpy_s_nonneg _ _), freed]
    cases json.get_json_string sub PWD_KEY with
    | none => rfl
    | some pw => rfl
  · cases read

theorem ParseWifiInfo_of_none (unread : message json psr = none) :
    ParseWifiInfo json securec psr ssid pwd = ⟨-1, ssid, pwd, otherCommand json psr⟩ := by
  unfold message at unread
  unfold ParseWifiInfo otherCommand
  cases parsed : json.parse_json psr with
  | none => rfl
  | some handle =>
      by_cases config : json.get_json_int handle CMD_KEY = CMD_CONFIG
      · rw [parsed, Option.bind_some, if_pos config] at unread
        simp only [config, ne_eq, not_true_eq_false, if_false, decide_false, Option.filter_some]
        cases param : json.get_json_obj handle PAR_KEY with
        | none => rfl
        | some sub =>
            rw [param, Option.bind_some, Option.map_eq_none_iff] at unread
            simp only [unread]
            rfl
      · simp [config, Option.filter_some]

theorem content_passwordBuffer (securec : Securec) (pwd : Block pl) (pw : Text) :
    (passwordBuffer securec pwd (some pw)).content = kept pl pw :=
  securec.content_strncpy_s pwd pw

theorem takenOver_of_message {received : Message} (read : message json psr = some received) :
    TakenOver json psr ssid pwd (ParseWifiInfo json securec psr ssid pwd) ↔
      kept sl received.wifiName = received.wifiName ∧
        ∀ password, received.wifiPassword = some password → kept pl password = password := by
  rw [ParseWifiInfo_of_message read]
  constructor
  · intro taken
    obtain ⟨same, there, named, secret⟩ := taken.accepted rfl
    cases read.symm.trans there
    refine ⟨(securec.content_strncpy_s ..).symm.trans named, ?_⟩
    intro password given
    rw [← content_passwordBuffer securec pwd, ← given]
    exact secret password given
  · rintro ⟨named, secret⟩
    refine ⟨fun _ => ⟨received, read, ?_, ?_⟩, ?_⟩
    · exact (securec.content_strncpy_s ..).trans named
    · intro password given
      simp only [given, content_passwordBuffer]
      exact secret password given
    · rintro ⟨⟩

/-- A text is taken over exactly or not at all, unless it is a message with a
name or a password that does not fit. -/
theorem taken_over_iff (json : JsonUtil Json) (securec : Securec) (psr : Text) (ssid : Block sl)
    (pwd : Block pl) :
    TakenOver json psr ssid pwd (ParseWifiInfo json securec psr ssid pwd) ↔
      ¬∃ received, message json psr = some received ∧
        (Exceeds sl received.wifiName ∨
          ∃ password, received.wifiPassword = some password ∧ Exceeds pl password) := by
  cases read : message json psr with
  | none =>
      rw [ParseWifiInfo_of_none read]
      constructor
      · rintro - ⟨received, there, -⟩
        cases there
      · intro _
        exact ⟨fun accepted => (by cases accepted), fun _ => ⟨rfl, rfl⟩⟩
  | some received =>
      rw [takenOver_of_message read, kept_eq_self_iff]
      constructor
      · rintro ⟨named, secret⟩ ⟨same, there, exceeds⟩
        cases there
        rcases exceeds with long | ⟨password, given, long⟩
        · exact named long
        · exact kept_eq_self_iff.mp (secret password given) long
      · intro fits
        refine ⟨fun long => fits ⟨received, rfl, .inl long⟩, ?_⟩
        intro password given
        exact kept_eq_self_iff.mpr fun long => fits ⟨received, rfl, .inr ⟨password, given, long⟩⟩

end Exits

/-! ## A long name -/

def JsonUtil.of (psr : Text) (received : Message) : JsonUtil Bool where
  parse_json text := if text = psr then some false else none
  get_json_int _ _ := CMD_CONFIG
  get_json_obj _ key := if key = PAR_KEY then some true else none
  get_json_string _ key :=
    if key = VAL_KEY then some received.wifiName
    else if key = PWD_KEY then received.wifiPassword else none

theorem message_of (psr : Text) (received : Message) :
    message (JsonUtil.of psr received) psr = some received := by
  have different : PWD_KEY ≠ VAL_KEY := by decide
  simp [message, JsonUtil.of, different]

theorem message_of_ne {psr other : Text} {received : Message} (different : other ≠ psr) :
    message (JsonUtil.of psr received) other = none := by
  simp [message, JsonUtil.of, different]

/-- The bytes of `{"cmd":32,"param":{"wifiName":"…"}}`. -/
def configText (name : Text) : Text :=
  ⟨[123, 34, 99, 109, 100, 34, 58, 51, 50, 44, 34, 112, 97, 114, 97, 109, 34, 58, 123, 34, 119, 105,
      102, 105, 78, 97, 109, 101, 34, 58, 34] ++ name.val ++ [34, 125, 125], by
    simp [name.property]⟩

def longName : Text := ⟨List.replicate 33 97, by decide⟩

/-- The long name is accepted, and the name taken over is empty. -/
theorem not_taken_over_long_name :
    let json := JsonUtil.of (configText longName) ⟨longName, none⟩
    let empty : Block 33 := fun _ => 0
    ¬TakenOver json (configText longName) empty empty
      (ParseWifiInfo json boundedCopy (configText longName) empty empty) := by
  intro json empty taken
  have keeps := (takenOver_of_message (message_of (configText longName) ⟨longName, none⟩)).mp taken
  exact absurd keeps.1 (by decide)

end WifiIot.Credentials
