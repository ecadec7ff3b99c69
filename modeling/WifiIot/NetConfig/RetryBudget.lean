import WifiIot.NetConfig.Station

/-!
# The retries of a session

A loss of the connection is reported once five losses came before it.  The
counter is a static variable: a connection resets it, a new session does not,
so the losses that an earlier session left over count in the next one.

Source: `astronauts_game/common/netcfg/src/wifi_sta.c`.
-/

namespace WifiIot.Station

open NetConfig (WifiSta TEST_CONNECT_RETRY_COUNT WIFI_STATE_AVALIABLE WIFI_STATE_NOT_AVALIABLE)
open Trace

namespace Action

/-- A `NOT_AVALIABLE` event. -/
def IsLoss : Action → Prop
  | .WifiConnectionChangedHandler state _ => state = WIFI_STATE_NOT_AVALIABLE
  | _ => False

/-- An `AVALIABLE` event. -/
def IsConnection : Action → Prop
  | .WifiConnectionChangedHandler state _ => state = WIFI_STATE_AVALIABLE
  | _ => False

def IsFresh : Action → Prop
  | .WifiStaStart _ => True
  | action => action.IsConnection

instance : DecidablePred IsLoss := fun action => by
  unfold IsLoss
  split <;> infer_instance

instance : DecidablePred IsConnection := fun action => by
  unfold IsConnection
  split <;> infer_instance

instance : DecidablePred IsFresh := fun action => by
  unfold IsFresh
  split <;> infer_instance

end Action

/-- The losses since the station was last connected, over all sessions. -/
def losses (log : List Action) : Nat := since Action.IsConnection Action.IsLoss log

/-- The losses since the later of the last start and the last connection. -/
def sessionLosses (log : List Action) : Nat := since Action.IsFresh Action.IsLoss log

theorem sessionLosses_le (log : List Action) : sessionLosses log ≤ losses log := by
  apply since_le_since
  intro action connected
  cases action with
  | WifiConnectionChangedHandler state called => exact connected
  | WifiStaStart retval => trivial
  | EnableWifi => exact connected
  | RegisterWifiEvent => exact connected
  | DisableWifi => exact connected
  | UnRegisterWifiEvent => exact connected
  | WifiStaStop => exact connected

/-- A loss is reported exactly when the session has had five before it. -/
def Budgeted (log : List Action) : Prop :=
  Everywhere (fun before action => ∀ called,
    action = .WifiConnectionChangedHandler WIFI_STATE_NOT_AVALIABLE called →
      (called = true ↔ TEST_CONNECT_RETRY_COUNT ≤ sessionLosses before)) log

/-- Five losses since the last connection are five losses of the session. -/
def WithinSession (_ : Wifi) (log : List Action) : Call → Prop
  | .WifiConnectionChangedHandler state =>
      state = WIFI_STATE_NOT_AVALIABLE →
        losses log < TEST_CONNECT_RETRY_COUNT ∨ TEST_CONNECT_RETRY_COUNT ≤ sessionLosses log
  | _ => True

/-- The counter and the callback as the log has them. -/
structure Counted (wifi : Wifi) (log : List Action) : Prop where
  retries : wifi.globals.connectRetryCount = min (losses log) TEST_CONNECT_RETRY_COUNT
  callback : wifi.registered ≠ 0 → wifi.globals.wifiChange = true

section Steps

variable {wifi next : Wifi} {log actions : List Action} {call : Call}

theorem losses_event (state : Int) (called : Bool) :
    losses (log ++ [.WifiConnectionChangedHandler state called]) =
      if state = WIFI_STATE_AVALIABLE then 0
      else losses log + if state = WIFI_STATE_NOT_AVALIABLE then 1 else 0 :=
  since_snoc log _

theorem handler_wifiChange (globals : WifiSta) (state : Int) :
    (WifiConnectionChangedHandler globals state).1.wifiChange = globals.wifiChange := by
  unfold WifiConnectionChangedHandler
  split
  · rfl
  · split <;> rfl

theorem handler_retries {globals : WifiSta}
    (retries : globals.connectRetryCount = min (losses log) TEST_CONNECT_RETRY_COUNT)
    (state : Int) (called : Bool) :
    (WifiConnectionChangedHandler globals state).1.connectRetryCount =
      min (losses (log ++ [.WifiConnectionChangedHandler state called]))
        TEST_CONNECT_RETRY_COUNT := by
  rw [losses_event]
  unfold WifiConnectionChangedHandler
  by_cases connected : state = WIFI_STATE_AVALIABLE
  · simp [connected]
  · simp only [if_neg connected]
    by_cases lost : state = WIFI_STATE_NOT_AVALIABLE
    · simp only [lost, true_and, if_true]
      split
      · change globals.connectRetryCount + 1 = _
        omega
      · change globals.connectRetryCount = _
        omega
    · simp only [lost, false_and, if_false, Nat.add_zero]
      exact retries

theorem handler_reports {globals : WifiSta}
    (retries : globals.connectRetryCount = min (losses log) TEST_CONNECT_RETRY_COUNT)
    (callback : globals.wifiChange = true) :
    (WifiConnectionChangedHandler globals WIFI_STATE_NOT_AVALIABLE).2 = true ↔
      TEST_CONNECT_RETRY_COUNT ≤ losses log := by
  have other : WIFI_STATE_NOT_AVALIABLE ≠ WIFI_STATE_AVALIABLE := by decide
  unfold WifiConnectionChangedHandler
  rw [if_neg other]
  split
  · rename_i swallowed
    exact iff_of_false Bool.false_ne_true (by omega)
  · rename_i spent
    have full : ¬globals.connectRetryCount < TEST_CONNECT_RETRY_COUNT := fun left => spent ⟨rfl, left⟩
    exact iff_of_true callback (by omega)

theorem counted_off : Counted off [] where
  retries := rfl
  callback none := absurd rfl none

theorem Transition.silent (transition : Transition wifi call next actions)
    (application : ∀ state, call ≠ .WifiConnectionChangedHandler state) :
    ∀ action ∈ actions, ∀ state called, action ≠ .WifiConnectionChangedHandler state called := by
  cases transition with
  | event registered => exact absurd rfl (application _)
  | alreadyActive active => simp
  | notEnabled inactive => simp
  | notRegistered inactive => simp
  | started inactive => simp
  | notActive inactive => simp
  | stopped active => simp

theorem Transition.quiet (transition : Transition wifi call next actions)
    (application : ∀ state, call ≠ .WifiConnectionChangedHandler state) :
    ∀ action ∈ actions, ¬action.IsConnection ∧ ¬action.IsLoss := by
  intro action membership
  have other := transition.silent application action membership
  cases action with
  | WifiConnectionChangedHandler state called => exact absurd rfl (other state called)
  | _ => exact ⟨id, id⟩

theorem Counted.step (counted : Counted wifi log) (transition : Transition wifi call next actions) :
    Counted next (log ++ actions) := by
  have same (silent : ∀ state, call ≠ .WifiConnectionChangedHandler state) :
      losses (log ++ actions) = losses log :=
    since_append_of_forall (transition.quiet silent) log
  cases transition with
  | event registered =>
      refine ⟨handler_retries counted.retries _ _, fun registered => ?_⟩
      exact (handler_wifiChange wifi.globals _).trans (counted.callback registered)
  | alreadyActive active =>
      exact ⟨by rw [same (by simp)]; exact counted.retries, fun _ => rfl⟩
  | notEnabled inactive =>
      exact ⟨by rw [same (by simp)]; exact counted.retries, fun _ => rfl⟩
  | notRegistered inactive =>
      exact ⟨by rw [same (by simp)]; exact counted.retries, fun _ => rfl⟩
  | started inactive =>
      exact ⟨by rw [same (by simp)]; exact counted.retries, fun _ => rfl⟩
  | notActive inactive =>
      exact ⟨by rw [same (by simp)]; exact counted.retries, counted.callback⟩
  | stopped active =>
      refine ⟨by rw [same (by simp)]; exact counted.retries, fun registered => counted.callback ?_⟩
      intro removed
      exact registered (by rw [removed])

/-- A loss is reported as promised exactly if the losses it counts are those of
its session. -/
theorem Counted.budgeted_iff (counted : Counted wifi log)
    (transition : Transition wifi call next actions) :
    Budgeted (log ++ actions) ↔ Budgeted log ∧ WithinSession wifi log call := by
  by_cases reported : ∃ state, call = .WifiConnectionChangedHandler state
  · obtain ⟨state, rfl⟩ := reported
    cases transition with
    | event registered =>
        unfold Budgeted
        rw [everywhere_snoc_iff]
        apply and_congr_right
        intro _
        by_cases lost : state = WIFI_STATE_NOT_AVALIABLE
        · subst lost
          have reports := handler_reports counted.retries (counted.callback registered)
          have fewer := sessionLosses_le log
          simp only [WithinSession, Action.WifiConnectionChangedHandler.injEq, true_and,
            forall_eq', reports, forall_const]
          omega
        · refine iff_of_true (fun called same => ?_) fun loss => absurd loss lost
          exact absurd (Action.WifiConnectionChangedHandler.inj same).1 lost
  · have silent := transition.silent fun state same => reported ⟨state, same⟩
    have within : WithinSession wifi log call := by
      cases call with
      | WifiConnectionChangedHandler state => exact absurd ⟨state, rfl⟩ reported
      | WifiStaStart => trivial
      | WifiStaStop => trivial
    refine Iff.trans (everywhere_append_iff_of_forall ?_ log) (and_iff_left within).symm
    intro action membership before called same
    exact absurd same (silent action membership _ called)

end Steps

/-- In every run, the losses are reported session by session exactly if no
session takes over losses that make it report one early. -/
theorem retry_budget_iff {calls : List Call} {wifi : Wifi} {log : List Action}
    (run : station.Run off calls wifi log) :
    Budgeted log ↔ station.Meets WithinSession off calls := by
  apply run.property_iff_meets Counted
  · exact ⟨counted_off, everywhere_nil⟩
  · intro wifi log call next actions counted stepped
    exact counted.step (step_transition stepped)
  · intro wifi log call next actions counted stepped
    exact counted.budgeted_iff (step_transition stepped)

/-- A session with six losses, a connection, and a second session that loses it. -/
def connectedBetween : List Call :=
  .WifiStaStart true true :: List.replicate 6 (.WifiConnectionChangedHandler 0) ++
    [.WifiConnectionChangedHandler 1, .WifiStaStop true, .WifiStaStart true true,
      .WifiConnectionChangedHandler 0]

theorem retry_budget_connected_between :
    ∃ wifi log, station.Run off connectedBetween wifi log ∧
      (Budgeted log ↔ station.Meets WithinSession off connectedBetween) := by
  obtain ⟨wifi, log, run, -⟩ := station.exists_run_of_exec (fun _ => ()) off connectedBetween ()
    (by decide +kernel)
  exact ⟨wifi, log, run, retry_budget_iff run⟩

/-- Five losses of a first session, and the first loss of a second one. -/
theorem retry_budget_taken_over :
    ∃ wifi log, station.Run off
        (.WifiStaStart true true :: List.replicate 5 (.WifiConnectionChangedHandler 0) ++
          [.WifiStaStop true, .WifiStaStart true true, .WifiConnectionChangedHandler 0]) wifi log ∧
      log.getLast? = some (.WifiConnectionChangedHandler 0 true) ∧
      sessionLosses log.dropLast = 0 ∧ ¬Budgeted log := by
  obtain ⟨wifi, log, run, shown⟩ := station.exists_run_of_exec
    (fun result => (result.2.getLast?, sessionLosses result.2.dropLast)) off
    (.WifiStaStart true true :: List.replicate 5 (.WifiConnectionChangedHandler 0) ++
      [.WifiStaStop true, .WifiStaStart true true, .WifiConnectionChangedHandler 0])
    (some (.WifiConnectionChangedHandler 0 true), 0) (by decide +kernel)
  obtain ⟨last, unspent⟩ := Prod.mk.inj shown
  refine ⟨wifi, log, run, last, unspent, fun budgeted => ?_⟩
  have split : log = log.dropLast ++ [.WifiConnectionChangedHandler 0 true] :=
    (List.dropLast_append_getLast? _ last).symm
  have enough := (budgeted _ _ [] split true rfl).mp rfl
  rw [unspent] at enough
  exact absurd enough (by decide)

end WifiIot.Station
