import WifiIot.Machine.Trace
import WifiIot.NetConfig.Basic

/-!
# Starting and stopping the station

`WifiStaStart` enables Wi-Fi and registers `WifiConnectionChangedHandler` for
its events, unless Wi-Fi is active already; `WifiStaStop` takes both back.  Any
call of the Wi-Fi driver may fail, and the driver reports events of the
connection as long as the handler is registered.

Source: `astronauts_game/common/netcfg/src/wifi_sta.c`.
-/

namespace WifiIot.Station

open NetConfig (WifiSta TEST_CONNECT_RETRY_COUNT WIFI_STATE_AVALIABLE WIFI_STATE_NOT_AVALIABLE)
open Trace

/-- The driver and the globals of the station: whether Wi-Fi is active, and how
often the handler is registered. -/
structure Wifi where
  active : Bool
  registered : Nat
  globals : WifiSta
  deriving DecidableEq

/-- The calls of the application with the outcomes of the driver's calls in
them, and the events that the driver reports. -/
inductive Call where
  | WifiStaStart (enabled registered : Bool)
  | WifiStaStop (disabled : Bool)
  | WifiConnectionChangedHandler (state : Int)
  deriving DecidableEq

/-- The driver's calls with their outcomes, the returns of the two functions, and
the events, of which `called` says whether `g_wifiChange` was called. -/
inductive Action where
  | EnableWifi (succeeded : Bool)
  | RegisterWifiEvent (succeeded : Bool)
  | DisableWifi (succeeded : Bool)
  | UnRegisterWifiEvent
  | WifiStaStart (retval : Int)
  | WifiStaStop
  | WifiConnectionChangedHandler (state : Int) (called : Bool)
  deriving DecidableEq

/-- The handler, with whether it calls `g_wifiChange(state)`. -/
def WifiConnectionChangedHandler (globals : WifiSta) (state : Int) : WifiSta × Bool :=
  if state = WIFI_STATE_AVALIABLE then
    ({ globals with connectRetryCount := 0 }, globals.wifiChange)
  else if state = WIFI_STATE_NOT_AVALIABLE ∧
      globals.connectRetryCount < TEST_CONNECT_RETRY_COUNT then
    ({ globals with connectRetryCount := globals.connectRetryCount + 1 }, false)
  else (globals, globals.wifiChange)

/-- The argument is `NetCfgConnectStatus` in the only call. -/
def WifiStaStart (wifi : Wifi) (enabled registered : Bool) : Wifi × List Action :=
  let wifi := { wifi with globals := { wifi.globals with wifiChange := true } }
  if wifi.active = true then (wifi, [.WifiStaStart 1])
  else if enabled = false then (wifi, [.EnableWifi false, .WifiStaStart (-1)])
  else
    let wifi := { wifi with active := true }
    if registered = false then
      (wifi, [.EnableWifi true, .RegisterWifiEvent false, .WifiStaStart (-1)])
    else
      let wifi := { wifi with registered := wifi.registered + 1 }
      -- The last look at `IsWifiActive` is true to what `EnableWifi` did.
      (wifi, [.EnableWifi true, .RegisterWifiEvent true,
        .WifiStaStart (if wifi.active = false then -1 else 0)])

/-- The outcome of `DisableWifi` is not looked at. -/
def WifiStaStop (wifi : Wifi) (disabled : Bool) : Wifi × List Action :=
  if wifi.active = false then (wifi, [.WifiStaStop])
  else
    ({ wifi with active := !disabled, registered := wifi.registered - 1 },
      [.DisableWifi disabled, .UnRegisterWifiEvent, .WifiStaStop])

def step (wifi : Wifi) : Call → Option (Wifi × List Action)
  | .WifiStaStart enabled registered => some (WifiStaStart wifi enabled registered)
  | .WifiStaStop disabled => some (WifiStaStop wifi disabled)
  | .WifiConnectionChangedHandler state =>
      if wifi.registered = 0 then none
      else
        let (globals, called) := WifiConnectionChangedHandler wifi.globals state
        some ({ wifi with globals := globals }, [.WifiConnectionChangedHandler state called])

def station : Machine Wifi Call Action := ⟨step⟩

def off : Wifi where
  active := false
  registered := 0
  globals := { wifiChange := false, connectRetryCount := 0 }

inductive Transition (wifi : Wifi) : Call → Wifi → List Action → Prop where
  | alreadyActive {enabled registered} : wifi.active = true →
      Transition wifi (.WifiStaStart enabled registered)
        { wifi with globals := { wifi.globals with wifiChange := true } } [.WifiStaStart 1]
  | notEnabled {registered} : wifi.active = false →
      Transition wifi (.WifiStaStart false registered)
        { wifi with globals := { wifi.globals with wifiChange := true } }
        [.EnableWifi false, .WifiStaStart (-1)]
  | notRegistered : wifi.active = false →
      Transition wifi (.WifiStaStart true false)
        { wifi with active := true, globals := { wifi.globals with wifiChange := true } }
        [.EnableWifi true, .RegisterWifiEvent false, .WifiStaStart (-1)]
  | started : wifi.active = false →
      Transition wifi (.WifiStaStart true true)
        { active := true
          registered := wifi.registered + 1
          globals := { wifi.globals with wifiChange := true } }
        [.EnableWifi true, .RegisterWifiEvent true, .WifiStaStart 0]
  | notActive {disabled} : wifi.active = false →
      Transition wifi (.WifiStaStop disabled) wifi [.WifiStaStop]
  | stopped {disabled} : wifi.active = true →
      Transition wifi (.WifiStaStop disabled)
        { wifi with active := !disabled, registered := wifi.registered - 1 }
        [.DisableWifi disabled, .UnRegisterWifiEvent, .WifiStaStop]
  | event {state} : wifi.registered ≠ 0 →
      Transition wifi (.WifiConnectionChangedHandler state)
        { wifi with globals := (WifiConnectionChangedHandler wifi.globals state).1 }
        [.WifiConnectionChangedHandler state (WifiConnectionChangedHandler wifi.globals state).2]

theorem step_transition {wifi next : Wifi} {call : Call} {actions : List Action}
    (stepped : station.step wifi call = some (next, actions)) :
    Transition wifi call next actions := by
  change step wifi call = _ at stepped
  cases call with
  | WifiStaStart enabled registered =>
      simp only [step, WifiStaStart] at stepped
      split at stepped
      · rename_i active
        cases stepped
        exact .alreadyActive active
      · rename_i inactive
        have inactive : wifi.active = false := eq_false_of_ne_true inactive
        split at stepped
        · rename_i failed
          cases stepped
          subst failed
          exact .notEnabled inactive
        · rename_i enabled_
          obtain rfl := eq_true_of_ne_false enabled_
          split at stepped
          · rename_i failed
            cases stepped
            subst failed
            exact .notRegistered inactive
          · rename_i registered_
            obtain rfl := eq_true_of_ne_false registered_
            cases stepped
            exact .started inactive
  | WifiStaStop disabled =>
      simp only [step, WifiStaStop] at stepped
      split at stepped
      · rename_i inactive
        cases stepped
        exact .notActive inactive
      · rename_i active
        cases stepped
        exact .stopped (eq_true_of_ne_false active)
  | WifiConnectionChangedHandler state =>
      simp only [step] at stepped
      split at stepped
      · cases stepped
      · rename_i registered
        cases stepped
        exact .event registered

/-! ## A started station has its handler -/

/-- Right after `WifiStaStart` has returned, the handler is registered once, or,
after a failure, Wi-Fi is off and nothing is registered. -/
def ReturnsClean (wifi : Wifi) (log : List Action) : Prop :=
  ∀ retval, log.getLast? = some (.WifiStaStart retval) →
    (0 ≤ retval → wifi.registered = 1) ∧
      (retval < 0 → wifi.active = false ∧ wifi.registered = 0)

/-- A `DisableWifi` failed, and none has succeeded since. -/
def LeftOn (log : List Action) : Prop :=
  Standing (· = .DisableWifi false) (· = .DisableWifi true) log

/-- The station is not started after a `DisableWifi` that failed, and where it
is started with Wi-Fi off, a successful `EnableWifi` is followed by a
successful `RegisterWifiEvent`. -/
def StartsClean (wifi : Wifi) (log : List Action) : Call → Prop
  | .WifiStaStart enabled registered =>
      ¬LeftOn log ∧ (wifi.active = false → enabled = true → registered = true)
  | _ => True

structure Sound (wifi : Wifi) (log : List Action) : Prop where
  once : wifi.registered ≤ 1
  clear : wifi.active = false → wifi.registered = 0
  leftOn : LeftOn log → wifi.active = true ∧ wifi.registered = 0
  bare : wifi.active = true → wifi.registered = 0 →
    LeftOn log ∨ ∃ retval, log.getLast? = some (.WifiStaStart retval)

theorem sound_off : Sound off [] where
  once := Nat.zero_le 1
  clear _ := rfl
  leftOn standing := absurd standing not_standing_nil
  bare active := by cases active

section Steps

variable {wifi next : Wifi} {log actions : List Action} {call : Call}

/-- Only `WifiStaStop` calls `DisableWifi`, and only with Wi-Fi active. -/
theorem Transition.leftOn_iff (transition : Transition wifi call next actions)
    (log : List Action) :
    LeftOn (log ++ actions) ↔
      match call with
      | .WifiStaStop disabled =>
          if wifi.active = true then disabled = false else LeftOn log
      | _ => LeftOn log := by
  cases transition with
  | stopped active =>
      rename_i disabled
      have split : log ++ [.DisableWifi disabled, .UnRegisterWifiEvent, .WifiStaStop] =
          (log ++ [.DisableWifi disabled]) ++ [.UnRegisterWifiEvent, .WifiStaStop] := by simp
      rw [LeftOn, split, standing_append_iff_of_forall (by simp), standing_snoc_iff]
      cases disabled with
      | false => simp [active]
      | true => simp [active]
  | notActive inactive =>
      simp only [inactive, Bool.false_eq_true, if_false]
      exact standing_append_iff_of_forall (by simp) log
  | alreadyActive active => exact standing_append_iff_of_forall (by simp) log
  | notEnabled inactive => exact standing_append_iff_of_forall (by simp) log
  | notRegistered inactive => exact standing_append_iff_of_forall (by simp) log
  | started inactive => exact standing_append_iff_of_forall (by simp) log
  | event registered => exact standing_append_iff_of_forall (by simp) log

theorem Sound.settled (sound : Sound wifi log) (inactive : wifi.active = false) : ¬LeftOn log :=
  fun standing => Bool.false_ne_true (inactive.symm.trans (sound.leftOn standing).1)

theorem Sound.step (sound : Sound wifi log) (transition : Transition wifi call next actions) :
    Sound next (log ++ actions) := by
  have left := transition.leftOn_iff log
  cases transition with
  | alreadyActive active =>
      refine ⟨sound.once, sound.clear, fun standing => sound.leftOn (left.mp standing), ?_⟩
      intro _ _
      exact .inr ⟨1, by simp⟩
  | notEnabled inactive =>
      refine ⟨sound.once, sound.clear, fun standing => sound.leftOn (left.mp standing), ?_⟩
      intro active
      exact absurd (inactive.symm.trans active) Bool.false_ne_true
  | notRegistered inactive =>
      refine ⟨sound.once, fun off => Bool.noConfusion off, ?_, fun _ _ => .inr ⟨-1, by simp⟩⟩
      intro standing
      exact absurd (left.mp standing) (sound.settled inactive)
  | started inactive =>
      have unregistered := sound.clear inactive
      refine ⟨by simp [unregistered], fun off => Bool.noConfusion off, ?_, fun _ zero => by simp at zero⟩
      intro standing
      exact absurd (left.mp standing) (sound.settled inactive)
  | notActive inactive =>
      refine ⟨sound.once, sound.clear, ?_, ?_⟩
      · intro standing
        simp only [inactive, Bool.false_eq_true, if_false] at left
        exact sound.leftOn (left.mp standing)
      · intro active
        exact absurd (inactive.symm.trans active) Bool.false_ne_true
  | @stopped disabled active =>
      simp only [active, if_true] at left
      have unregistered : wifi.registered - 1 = 0 := Nat.sub_eq_zero_of_le sound.once
      refine ⟨unregistered.trans_le (Nat.zero_le 1), fun _ => unregistered, ?_, ?_⟩
      · intro standing
        exact ⟨by rw [left.mp standing]; rfl, unregistered⟩
      · intro on _
        refine .inl (left.mpr ?_)
        cases disabled with
        | false => rfl
        | true => cases on
  | event registered =>
      refine ⟨sound.once, sound.clear, fun standing => sound.leftOn (left.mp standing), ?_⟩
      intro _ none
      exact absurd none registered

theorem returnsClean_iff_of_last {retval : Int} (last : actions.getLast? = some (.WifiStaStart retval)) :
    ReturnsClean wifi (log ++ actions) ↔
      (0 ≤ retval → wifi.registered = 1) ∧
        (retval < 0 → wifi.active = false ∧ wifi.registered = 0) := by
  simp [ReturnsClean, List.getLast?_append, last]

theorem Sound.returnsClean_iff (sound : Sound wifi log) (clean : ReturnsClean wifi log)
    (transition : Transition wifi call next actions) :
    ReturnsClean next (log ++ actions) ↔ StartsClean wifi log call := by
  cases transition with
  | @alreadyActive enabled registered active =>
      rw [returnsClean_iff_of_last rfl]
      -- With Wi-Fi active, the handler is missing only after a failed `DisableWifi`.
      have left : wifi.registered = 1 ↔ ¬LeftOn log := by
        constructor
        · intro one standing
          rw [(sound.leftOn standing).2] at one
          cases one
        · intro settled
          by_contra other
          have unregistered : wifi.registered = 0 := by
            have := sound.once
            omega
          rcases sound.bare active unregistered with standing | ⟨retval, last⟩
          · exact settled standing
          · obtain ⟨success, failure⟩ := clean retval last
            by_cases negative : retval < 0
            · rw [(failure negative).1] at active
              cases active
            · exact other (success (Int.not_lt.mp negative))
      simp [StartsClean, active, left]
  | notEnabled inactive =>
      rw [returnsClean_iff_of_last rfl]
      simp [StartsClean, inactive, sound.clear inactive, sound.settled inactive]
  | notRegistered inactive =>
      rw [returnsClean_iff_of_last rfl]
      simp [StartsClean, inactive]
  | started inactive =>
      rw [returnsClean_iff_of_last rfl]
      simp [StartsClean, inactive, sound.clear inactive, sound.settled inactive]
  | notActive inactive =>
      exact iff_of_true (fun retval last => by simp at last) trivial
  | stopped active =>
      exact iff_of_true (fun retval last => by simp at last) trivial
  | event registered =>
      exact iff_of_true (fun retval last => by simp at last) trivial

end Steps

/-- In every run, a station that was started has its handler, and one that was
not is off, exactly if every call starts clean. -/
theorem started_with_handler_iff {calls : List Call} {wifi : Wifi} {log : List Action}
    (run : station.Run off calls wifi log) :
    station.Throughout ReturnsClean off calls ↔ station.Meets StartsClean off calls := by
  apply run.throughout_iff_meets Sound
  · exact ⟨sound_off, fun retval last => by cases last⟩
  · intro wifi log call next actions sound stepped
    exact sound.step (step_transition stepped)
  · intro wifi log call next actions sound clean stepped
    exact sound.returnsClean_iff clean (step_transition stepped)

/-- Two sessions, a start in vain between them, and a start too many. -/
def twoSessions : List Call :=
  [.WifiStaStart true true, .WifiStaStop true, .WifiStaStart false true, .WifiStaStart true true,
    .WifiStaStart true true]

theorem started_with_handler_twice :
    ∃ wifi log, station.Run off twoSessions wifi log ∧
      (station.Throughout ReturnsClean off twoSessions ↔
        station.Meets StartsClean off twoSessions) := by
  obtain ⟨wifi, log, run, -⟩ := station.exists_run_of_exec (fun _ => ()) off twoSessions ()
    (by decide +kernel)
  exact ⟨wifi, log, run, started_with_handler_iff run⟩

/-- A failed registration, and a retry that takes the active Wi-Fi for a
started station. -/
theorem started_without_handler :
    ∃ wifi log, station.Run off [.WifiStaStart true false, .WifiStaStart true true] wifi log ∧
      log.getLast? = some (.WifiStaStart 1) ∧ wifi.registered = 0 ∧ ¬ReturnsClean wifi log := by
  obtain ⟨wifi, log, run, shown⟩ := station.exists_run_of_exec
    (fun result => (result.1.registered, result.2.getLast?)) off
    [.WifiStaStart true false, .WifiStaStart true true] (0, some (.WifiStaStart 1))
    (by decide +kernel)
  obtain ⟨unregistered, last⟩ := Prod.mk.inj shown
  refine ⟨wifi, log, run, last, unregistered, fun clean => ?_⟩
  have registered := (clean 1 last).1 (by decide)
  exact absurd (unregistered.symm.trans registered) (by decide)

end WifiIot.Station
