import WifiIot.Machine.Trace
import WifiIot.NetConfig.Transition

/-!
# What the application is told

`SET_NET_EVENT` calls the application first and stores the status after that,
in the task as in the callbacks of the driver.  Here both run in single steps,
so that each party may move between the call and the store of the other.

Source: `SET_NET_EVENT`, `NetCfgConnectStatus`, `NetCfgConnect` and
`NetCfgGetSocketValue` in `network_config.c`.
-/

namespace WifiIot.NetConfig

/-! ## The driver step by step -/

def Callback.status : Callback → NET_STA_TYPE
  | .disconnected => NET_STA_DISTCONNECT
  | .connected => NET_STA_CONNECTTED

def Callback.event : Callback → NET_EVENT_TYPE
  | .disconnected => NET_EVENT_DISTCONNECT
  | .connected => NET_EVENT_CONNECTTED

/-- Where the driver stands in `NetCfgConnectStatus`. -/
inductive Driver where
  | idle
  /-- The call of the application in `SET_NET_EVENT`. -/
  | notify (callback : Callback)
  /-- The store of the status in `SET_NET_EVENT`. -/
  | store (callback : Callback)
  /-- `g_netManager.mode = NET_MODE_IDLE`. -/
  | setMode
  deriving DecidableEq

/-- The driver calls back, or goes on in the callback. -/
inductive Delivery where
  | call (callback : Callback)
  | proceed
  deriving DecidableEq

structure Parties where
  cfg : NetCfg
  driver : Driver
  deriving DecidableEq

/-- The steps of `NetCfgConnectStatus`. -/
def NetCfgConnectStatus (parties : Parties) (delivery : Delivery) :
    Option (Parties × List Action) :=
  let manager := parties.cfg.manager
  match parties.driver, delivery with
  | .idle, .call callback =>
      let s := callback.s
      let driver : Driver :=
        if s = 1 ∧ manager.status ≠ NET_STA_CONNECTTED then .notify .connected
        else if s = 0 then .notify .disconnected
        else .idle
      some ({ parties with driver := driver }, [.NetCfgConnectStatus s])
  | .notify callback, .proceed =>
      some ({ parties with driver := .store callback }, manager.notify callback.event)
  | .store callback, .proceed =>
      some
        ({ cfg := { parties.cfg with manager := { manager with status := callback.status } }
           driver := match callback with
             | .disconnected => .setMode
             | .connected => .idle }, [])
  | .setMode, .proceed =>
      some
        ({ cfg := { parties.cfg with manager := { manager with mode := NET_MODE_IDLE } }
           driver := .idle }, [])
  | _, _ => none

def taskParty : Machine Parties Answer Action where
  step parties answer :=
    (taskStep parties.cfg answer).map fun result =>
      ({ parties with cfg := result.1 }, result.2)

/-- The task and the driver, with a choice of the party at every step. -/
def notificationMachine : Machine Parties (Answer ⊕ Delivery) Action :=
  taskParty.interleave ⟨NetCfgConnectStatus⟩

def start (nEventCallback : Bool) : Parties where
  cfg := NetCfgStart nEventCallback
  driver := .idle

def deliver (manager : NetManagerInfo) (callback : Callback) : List Delivery :=
  .call callback ::
    match callback with
    | .disconnected => [.proceed, .proceed, .proceed]
    | .connected =>
        if manager.status = NET_STA_CONNECTTED then [] else [.proceed, .proceed]

/-- A callback that nothing interrupts does what `callbackStep` does at once. -/
theorem run_deliver (cfg : NetCfg) (callback : Callback) :
    notificationMachine.Run ⟨cfg, .idle⟩ ((deliver cfg.manager callback).map .inr)
      ⟨(callbackStep cfg callback.s).1, .idle⟩ (callbackStep cfg callback.s).2 := by
  cases callback with
  | disconnected =>
      apply (Machine.run_iff_exec ..).mpr
      simp [deliver, Machine.exec, notificationMachine, NetCfgConnectStatus, callbackStep,
        NetManagerInfo.NetCfgConnectStatus, Callback.s, Callback.event, Callback.status]
  | connected =>
      apply (Machine.run_iff_exec ..).mpr
      by_cases known : cfg.manager.status = NET_STA_CONNECTTED
      · simp [deliver, Machine.exec, notificationMachine, NetCfgConnectStatus, callbackStep,
          NetManagerInfo.NetCfgConnectStatus, Callback.s, known]
      · simp [deliver, Machine.exec, notificationMachine, NetCfgConnectStatus, callbackStep,
          NetManagerInfo.NetCfgConnectStatus, Callback.s, Callback.event, Callback.status, known]

/-! ## The events -/

def Action.event? : Action → Option NET_EVENT_TYPE
  | .gEventCall event => some event
  | _ => none

/-- What the application has been told, in order. -/
def events (log : List Action) : List NET_EVENT_TYPE := log.filterMap Action.event?

@[simp]
theorem events_append (log actions : List Action) :
    events (log ++ actions) = events log ++ events actions :=
  List.filterMap_append

theorem events_notify (manager : NetManagerInfo) (event : NET_EVENT_TYPE) :
    events (manager.notify event) = if manager.gEventCall then [event] else [] := by
  unfold NetManagerInfo.notify
  split <;> rfl

def Connectted (event : NET_EVENT_TYPE) : Prop := event = NET_EVENT_CONNECTTED

def ConnFailed (event : NET_EVENT_TYPE) : Prop := event = NET_EVENT_CONN_FAILED

/-- The events after which a connection is a new one. -/
def Renews : NET_EVENT_TYPE → Prop
  | .NET_EVENT_CONFIG | .NET_EVENT_CONNECTTING | .NET_EVENT_CONN_FAILED
  | .NET_EVENT_DISTCONNECT => True
  | .NET_EVENT_CONFIG_FAIL | .NET_EVENT_CONNECTTED => False

/-- The events after which an attempt may fail: it begins, or the link is lost. -/
def Reopens : NET_EVENT_TYPE → Prop
  | .NET_EVENT_CONNECTTING | .NET_EVENT_DISTCONNECT => True
  | _ => False

/-- The application is told once about each connection, and an attempt that it
was told to have succeeded does not fail. -/
structure OncePerConnection (told : List NET_EVENT_TYPE) : Prop where
  once : Trace.Separated Connectted Connectted Renews told
  final : Trace.Separated Connectted ConnFailed Reopens told

@[simp]
theorem oncePerConnection_nil : OncePerConnection [] := ⟨Trace.separated_nil, Trace.separated_nil⟩

/-- Which events keep the law. -/
theorem oncePerConnection_snoc_iff (told : List NET_EVENT_TYPE) (event : NET_EVENT_TYPE) :
    OncePerConnection (told ++ [event]) ↔
      OncePerConnection told ∧
        (event = NET_EVENT_CONNECTTED → ¬Trace.Standing Connectted Renews told) ∧
        (event = NET_EVENT_CONN_FAILED → ¬Trace.Standing Connectted Reopens told) := by
  constructor
  · rintro ⟨once, final⟩
    obtain ⟨earlierOnce, connectted⟩ := (Trace.separated_snoc_iff ..).mp once
    obtain ⟨earlierFinal, failed⟩ := (Trace.separated_snoc_iff ..).mp final
    exact ⟨⟨earlierOnce, earlierFinal⟩, connectted, failed⟩
  · rintro ⟨⟨once, final⟩, connectted, failed⟩
    exact ⟨(Trace.separated_snoc_iff ..).mpr ⟨once, connectted⟩,
      (Trace.separated_snoc_iff ..).mpr ⟨final, failed⟩⟩

/-! ## The steps that tell -/

/-- From the event of an attempt to the event of its outcome. -/
def Pc.Attempting : Pc → Prop
  | .store .connectting | .WifiStaStart | .WifiStaConnect | .poll _ | .notify .connFailed
  | .notify .connectted => True
  | _ => False

theorem not_attempting_of_resting {pc : Pc} (resting : pc.Resting) : ¬pc.Attempting := by
  cases pc <;> first | exact id | exact False.elim resting

theorem events_accepted (newfd : Int) : events (accepted newfd) = [] := by
  unfold accepted
  split <;> rfl

theorem events_reply (result : Int) :
    events (reply result ++ [.NetCfgGetSocketValue result]) = [] := by
  unfold reply
  split <;> rfl

/-- The status after a step of the task is the old one, or the one it stores. -/
def Stored (cfg next : NetCfg) : Prop :=
  (∃ site, cfg.pc = .store site ∧ next.manager.status = site.status) ∨
    (∀ site, cfg.pc ≠ .store site) ∧ next.manager.status = cfg.manager.status

/-- The steps of the task that tell the application nothing. -/
structure Untold (cfg next : NetCfg) (actions : List Action) : Prop where
  outside : ∀ site, cfg.pc ≠ .notify site
  silent : events actions = []
  attempt : next.pc.Attempting → cfg.pc.Attempting
  stored : Stored cfg next

theorem Transition.told {cfg next : NetCfg} {actions : List Action}
    (transition : Transition cfg next actions) :
    next.manager.gEventCall = cfg.manager.gEventCall ∧
      ((∃ site, cfg.pc = .notify site ∧ next.pc = .store site ∧
        next.manager.status = cfg.manager.status ∧ actions = cfg.manager.notify site.event) ∨
      Untold cfg next actions) := by
  cases transition with
  | rest resting later =>
      refine ⟨rfl, .inr ⟨?_, rfl, fun attempting => ?_, .inr ⟨?_, rfl⟩⟩⟩
      · exact fun site => resting.ne_of_not_resting id
      · exact absurd attempting (not_attempting_of_resting later)
      · exact fun site => resting.ne_of_not_resting id
  | start resting config =>
      exact ⟨rfl, .inr ⟨fun site => resting.ne_of_not_resting id, rfl, False.elim,
        .inr ⟨fun site => resting.ne_of_not_resting id, rfl⟩⟩⟩
  | @notify site at_ => exact ⟨rfl, .inl ⟨site, at_, rfl, rfl, rfl⟩⟩
  | @store site at_ =>
      refine ⟨rfl, .inr ⟨by simp [at_], rfl, ?_, .inl ⟨site, at_, rfl⟩⟩⟩
      rw [at_]
      cases site <;> exact id
  | accept at_ =>
      exact ⟨rfl, .inr ⟨by simp [at_], events_accepted _, False.elim, .inr ⟨by simp [at_], rfl⟩⟩⟩
  | reply at_ =>
      exact ⟨rfl, .inr ⟨by simp [at_], events_reply _, False.elim, .inr ⟨by simp [at_], rfl⟩⟩⟩
  | startSta at_ later =>
      exact ⟨rfl, .inr ⟨by simp [at_], rfl, fun _ => by rw [at_]; trivial, .inr ⟨by simp [at_], rfl⟩⟩⟩
  | _ => exact ⟨rfl, .inr ⟨by simp [*], rfl, by simp [Pc.Attempting, *], .inr ⟨by simp [*], rfl⟩⟩⟩

/-! ## What the driver has reported -/

/-- `joined`: the driver has reported a connection and not its loss since the task last began
a configuration or an attempt, or gave an attempt up.  `erased`: a store of the task has
replaced the status of that report.  `succeeded`: the last attempt of the task has succeeded,
and the driver has reported no loss since. -/
structure Reports where
  joined : Bool := false
  erased : Bool := false
  succeeded : Bool := false
  deriving DecidableEq

def Reports.call (past : Reports) : Site → Reports
  | .configFail => past
  | .connectted => { past with succeeded := true }
  | .config | .connectting | .connFailed => {}

/-- The task stores the status of a site in place of another. -/
def Reports.overwrite (past : Reports) (status : NET_STA_TYPE) (site : Site) : Reports :=
  if status = NET_STA_CONNECTTED ∧ site ≠ .connectted then { past with erased := past.joined }
  else past

def Reports.report (past : Reports) : Callback → Reports
  | .connected => { past with joined := true, erased := false }
  | .disconnected => {}

def Reports.note (past : Reports) (parties : Parties) : Answer ⊕ Delivery → Reports
  | .inl _ =>
      match parties.cfg.pc with
      | .notify site => past.call site
      | .store site => past.overwrite parties.cfg.manager.status site
      | _ => past
  | .inr _ =>
      match parties.driver with
      | .notify callback => past.report callback
      | _ => past

/-- What the reports say about the events, and what the driver still sees of its own. -/
structure Recorded (parties : Parties) (past : Reports) (told : List NET_EVENT_TYPE) : Prop where
  registered : parties.cfg.manager.gEventCall = true
  standing : Trace.Standing Connectted Renews told ↔ past.joined = true ∨ past.succeeded = true
  attempt : parties.cfg.pc.Attempting →
    past.succeeded = false ∧ (Trace.Standing Connectted Reopens told ↔ past.joined = true)
  lost : parties.driver = .store .disconnected → past.joined = false
  erased : past.erased = true → past.joined = true
  kept : past.joined = true → past.erased = false → parties.driver = .store .connected ∨
    parties.driver ≠ .notify .connected ∧ parties.cfg.manager.status = NET_STA_CONNECTTED

theorem NetCfgConnectStatus_told {parties next : Parties} {delivery : Delivery}
    {actions : List Action}
    (stepped : NetCfgConnectStatus parties delivery = some (next, actions)) :
    next.cfg.pc = parties.cfg.pc ∧
      next.cfg.manager.gEventCall = parties.cfg.manager.gEventCall ∧
      ((∃ callback, parties.driver = .notify callback ∧
        actions = parties.cfg.manager.notify callback.event) ∨
      (∀ callback, parties.driver ≠ .notify callback) ∧ events actions = []) := by
  unfold NetCfgConnectStatus at stepped
  split at stepped
  · rename_i callback idle
    cases stepped
    exact ⟨rfl, rfl, .inr ⟨by simp [idle], rfl⟩⟩
  · rename_i callback at_
    cases stepped
    exact ⟨rfl, rfl, .inl ⟨callback, at_, rfl⟩⟩
  · rename_i callback at_
    cases stepped
    exact ⟨rfl, rfl, .inr ⟨by simp [at_], rfl⟩⟩
  · rename_i at_
    cases stepped
    exact ⟨rfl, rfl, .inr ⟨by simp [at_], rfl⟩⟩
  · cases stepped

/-- The task tells the outcome of an attempt only where the driver has reported no connection
since the attempt began, or has taken its report back.  The driver reports a connection only
where the task has not told of a success since the last loss, and where no store of the task
has hidden the driver's own report from the driver. -/
def Timely (past : Parties × Reports) (_ : List Action) : Answer ⊕ Delivery → Prop
  | .inl _ => past.1.cfg.pc = .notify .connectted ∨ past.1.cfg.pc = .notify .connFailed →
      past.2.joined = false
  | .inr _ => past.1.driver = .notify .connected →
      past.2.erased = false ∧ past.2.succeeded = false

instance (past : Parties × Reports) (log : List Action) (input : Answer ⊕ Delivery) :
    Decidable (Timely past log input) := by
  unfold Timely
  split <;> infer_instance

theorem recorded_start : Recorded (start true) {} [] where
  registered := rfl
  standing := by simp
  attempt := False.elim
  lost _ := rfl
  erased erased := by cases erased
  kept joined := by cases joined

namespace Recorded

variable {parties : Parties} {past : Reports} {told : List NET_EVENT_TYPE}

theorem events_notify (recorded : Recorded parties past told) (event : NET_EVENT_TYPE) :
    events (parties.cfg.manager.notify event) = [event] := by
  rw [NetConfig.events_notify, recorded.registered]
  rfl

/-- A pending report of a connection comes from a test that the status has misled, if there is
an earlier one. -/
theorem erased_of_joined (recorded : Recorded parties past told)
    (reports : parties.driver = .notify .connected) (joined : past.joined = true) :
    past.erased = true := by
  by_contra unerased
  rcases recorded.kept joined (Bool.eq_false_iff.mpr unerased) with stores | ⟨other, -⟩
  · rw [reports] at stores
    cases stores
  · exact other reports

theorem standing_iff_of_reports (recorded : Recorded parties past told)
    (reports : parties.driver = .notify .connected) :
    Trace.Standing Connectted Renews told ↔ past.erased = true ∨ past.succeeded = true := by
  rw [recorded.standing]
  exact or_congr_left ⟨recorded.erased_of_joined reports, recorded.erased⟩

theorem tells (recorded : Recorded parties past told) {site : Site}
    (at_ : parties.cfg.pc = .notify site) {cfg : NetCfg}
    (registered : cfg.manager.gEventCall = parties.cfg.manager.gEventCall)
    (later : cfg.pc = .store site) (status : cfg.manager.status = parties.cfg.manager.status) :
    Recorded { parties with cfg := cfg } (past.call site) (told ++ [site.event]) := by
  have attempt := recorded.attempt
  rw [at_] at attempt
  constructor
  · exact registered.trans recorded.registered
  · rw [Trace.standing_snoc_iff, recorded.standing]
    cases site <;> simp [Reports.call, Site.event, Connectted, Renews]
  · rw [later, Trace.standing_snoc_iff]
    cases site <;> simp [Reports.call, Pc.Attempting, Site.event, Connectted, Reopens]
  · intro lost
    have unjoined := recorded.lost lost
    cases site <;> simp [Reports.call, unjoined]
  · intro erased
    have joined := recorded.erased
    cases site <;> simp_all [Reports.call]
  · rw [status]
    have kept := recorded.kept
    cases site <;> simp_all [Reports.call]

theorem stays (recorded : Recorded parties past told) {cfg : NetCfg} {actions : List Action}
    (registered : cfg.manager.gEventCall = parties.cfg.manager.gEventCall)
    (untold : Untold parties.cfg cfg actions) (answer : Answer) :
    Recorded { parties with cfg := cfg } (past.note parties (.inl answer)) told := by
  obtain ⟨site, at_, status⟩ | ⟨outside, status⟩ := untold.stored
  · have noted : past.note parties (.inl answer) =
        past.overwrite parties.cfg.manager.status site := by
      rw [Reports.note, at_]
    have attempt : cfg.pc.Attempting → past.succeeded = false ∧
        (Trace.Standing Connectted Reopens told ↔ past.joined = true) :=
      fun attempting => recorded.attempt (untold.attempt attempting)
    rw [noted, Reports.overwrite]
    split
    · refine ⟨registered.trans recorded.registered, recorded.standing, attempt, recorded.lost, id, ?_⟩
      intro joined unerased
      rw [joined] at unerased
      cases unerased
    · rename_i keeps
      refine ⟨registered.trans recorded.registered, recorded.standing, attempt, recorded.lost,
        recorded.erased, fun joined unerased => ?_⟩
      refine (recorded.kept joined unerased).imp_right fun ⟨other, stored⟩ => ⟨other, ?_⟩
      have same : site = .connectted := not_not.mp fun different => keeps ⟨stored, different⟩
      rw [status, same]
      rfl
  · have noted : past.note parties (.inl answer) = past := by
      rw [Reports.note]
      split
      · rename_i site at_
        exact absurd at_ (untold.outside site)
      · rename_i site at_
        exact absurd at_ (outside site)
      · rfl
    rw [noted]
    refine ⟨registered.trans recorded.registered, recorded.standing, ?_, recorded.lost,
      recorded.erased, ?_⟩
    · exact fun attempting => recorded.attempt (untold.attempt attempting)
    · rw [status]
      exact recorded.kept

theorem reports (recorded : Recorded parties past told) {callback : Callback}
    (at_ : parties.driver = .notify callback) :
    Recorded { parties with driver := .store callback } (past.report callback)
      (told ++ [callback.event]) := by
  have attempt := recorded.attempt
  constructor
  · exact recorded.registered
  · rw [Trace.standing_snoc_iff, recorded.standing]
    cases callback <;> simp [Reports.report, Callback.event, Connectted, Renews]
  · intro attempting
    obtain ⟨unsucceeded, standing⟩ := attempt attempting
    rw [Trace.standing_snoc_iff, standing]
    cases callback <;> simp [Reports.report, Callback.event, Connectted, Reopens, unsucceeded]
  · cases callback <;> simp [Reports.report]
  · cases callback <;> simp [Reports.report]
  · cases callback <;> simp [Reports.report]

theorem proceeds (recorded : Recorded parties past told) {driver : Driver} {status : NET_STA_TYPE}
    {mode : NET_MODE_TYPE} (lost : driver = .store .disconnected → past.joined = false)
    (kept : past.joined = true → past.erased = false → driver = .store .connected ∨
      driver ≠ .notify .connected ∧ status = NET_STA_CONNECTTED) :
    Recorded
      { cfg := { parties.cfg with manager :=
          { parties.cfg.manager with status := status, mode := mode } }
        driver := driver } past told where
  registered := recorded.registered
  standing := recorded.standing
  attempt := recorded.attempt
  lost := lost
  erased := recorded.erased
  kept := kept

theorem driver_step (recorded : Recorded parties past told) {next : Parties} {delivery : Delivery}
    {actions : List Action}
    (stepped : NetCfgConnectStatus parties delivery = some (next, actions)) :
    Recorded next (past.note parties (.inr delivery)) (told ++ events actions) := by
  unfold NetCfgConnectStatus at stepped
  split at stepped
  · rename_i callback idle
    cases stepped
    rw [Reports.note, idle]
    change Recorded _ past (told ++ [])
    rw [List.append_nil]
    refine recorded.proceeds ?_ fun joined unerased => .inr ?_
    · intro lost
      split_ifs at lost
    · rcases recorded.kept joined unerased with stores | ⟨-, stored⟩
      · rw [idle] at stores
        cases stores
      · refine ⟨?_, stored⟩
        rw [if_neg fun passed => passed.2 stored]
        split_ifs <;> simp
  · rename_i callback at_
    cases stepped
    rw [Reports.note, at_, recorded.events_notify]
    exact recorded.reports at_
  · rename_i callback at_
    cases stepped
    rw [Reports.note, at_]
    change Recorded _ past (told ++ [])
    rw [List.append_nil]
    refine recorded.proceeds ?_ fun joined _ => .inr ?_
    · cases callback <;> simp
    · cases callback with
      | disconnected =>
          rw [recorded.lost at_] at joined
          cases joined
      | connected => exact ⟨by simp, rfl⟩
  · rename_i at_
    cases stepped
    rw [Reports.note, at_]
    change Recorded _ past (told ++ [])
    rw [List.append_nil]
    refine recorded.proceeds (by simp) fun joined unerased => .inr ⟨by simp, ?_⟩
    rcases recorded.kept joined unerased with stores | ⟨-, stored⟩
    · rw [at_] at stores
      cases stores
    · exact stored
  · cases stepped

theorem task_step (recorded : Recorded parties past told) {cfg : NetCfg} {actions : List Action}
    (transition : Transition parties.cfg cfg actions) (answer : Answer) :
    Recorded { parties with cfg := cfg } (past.note parties (.inl answer)) (told ++ events actions) := by
  obtain ⟨registered, ⟨site, at_, later, status, rfl⟩ | untold⟩ := transition.told
  · rw [Reports.note, at_, recorded.events_notify]
    exact recorded.tells at_ registered later status
  · rw [untold.silent, List.append_nil]
    exact recorded.stays registered untold answer

theorem task_step_iff (recorded : Recorded parties past told) {cfg : NetCfg} {actions : List Action}
    (transition : Transition parties.cfg cfg actions) (log : List Action) (answer : Answer) :
    OncePerConnection (told ++ events actions) ↔
      OncePerConnection told ∧ Timely (parties, past) log (.inl answer) := by
  obtain ⟨-, ⟨site, at_, -, -, rfl⟩ | untold⟩ := transition.told
  · rw [recorded.events_notify, oncePerConnection_snoc_iff]
    apply and_congr_right
    intro lawful
    have attempt := recorded.attempt
    rw [at_] at attempt
    cases site with
    | connectted =>
        obtain ⟨unsucceeded, -⟩ := attempt trivial
        simp [Timely, at_, Site.event, recorded.standing, unsucceeded]
    | connFailed =>
        obtain ⟨-, standing⟩ := attempt trivial
        simp [Timely, at_, Site.event, standing]
    | _ => simp [Timely, at_, Site.event]
  · rw [untold.silent, List.append_nil]
    simp [Timely, untold.outside]

theorem driver_step_iff (recorded : Recorded parties past told) {next : Parties}
    {delivery : Delivery} {actions : List Action}
    (stepped : NetCfgConnectStatus parties delivery = some (next, actions)) (log : List Action) :
    OncePerConnection (told ++ events actions) ↔
      OncePerConnection told ∧ Timely (parties, past) log (.inr delivery) := by
  obtain ⟨-, -, ⟨callback, at_, rfl⟩ | ⟨outside, silent⟩⟩ := NetCfgConnectStatus_told stepped
  · rw [recorded.events_notify, oncePerConnection_snoc_iff]
    apply and_congr_right
    intro lawful
    cases callback with
    | connected =>
        simp [Timely, at_, Callback.event, recorded.standing_iff_of_reports at_]
    | disconnected => simp [Timely, at_, Callback.event]
  · rw [silent, List.append_nil]
    simp [Timely, outside]

end Recorded

/-! ## The runs that keep the law -/

theorem events_eq_nil {inputs : List (Answer ⊕ Delivery)} {parties : Parties} {log : List Action}
    (run : notificationMachine.Run (start false) inputs parties log) : events log = [] := by
  suffices quiet : parties.cfg.manager.gEventCall = false ∧ events log = [] from quiet.2
  refine run.invariant (fun parties log => parties.cfg.manager.gEventCall = false ∧ events log = [])
    ⟨rfl, rfl⟩ ?_
  rintro parties log input next emitted ⟨unregistered, quiet⟩ stepped
  rw [events_append, quiet, List.nil_append]
  cases input with
  | inl answer =>
      obtain ⟨⟨cfg, actions⟩, moved, result⟩ := Option.map_eq_some_iff.mp stepped
      cases result
      obtain ⟨same, ⟨site, -, -, -, rfl⟩ | untold⟩ := (taskStep_transition moved).told
      · exact ⟨same.trans unregistered, by rw [events_notify, unregistered]; rfl⟩
      · exact ⟨same.trans unregistered, untold.silent⟩
  | inr delivery =>
      obtain ⟨-, same, ⟨callback, -, rfl⟩ | ⟨-, silent⟩⟩ := NetCfgConnectStatus_told stepped
      · exact ⟨same.trans unregistered, by rw [events_notify, unregistered]; rfl⟩
      · exact ⟨same.trans unregistered, silent⟩

def rememberingMachine : Machine (Parties × Reports) (Answer ⊕ Delivery) Action :=
  notificationMachine.remember Reports.note

theorem remembered_iff {inputs : List (Answer ⊕ Delivery)} {past : Parties × Reports}
    {log : List Action} (run : rememberingMachine.Run (start true, {}) inputs past log) :
    OncePerConnection (events log) ↔ rememberingMachine.Meets Timely (start true, {}) inputs := by
  apply run.property_iff_meets fun past log => Recorded past.1 past.2 (events log)
  · exact ⟨recorded_start, oncePerConnection_nil⟩
  · rintro ⟨parties, past⟩ log input ⟨next, later⟩ emitted recorded stepped
    obtain ⟨moved, rfl⟩ := Machine.remember_step_eq stepped
    rw [events_append]
    cases input with
    | inl answer =>
        obtain ⟨⟨cfg, actions⟩, step, result⟩ := Option.map_eq_some_iff.mp moved
        cases result
        exact recorded.task_step (taskStep_transition step) answer
    | inr delivery => exact recorded.driver_step moved
  · rintro ⟨parties, past⟩ log input ⟨next, later⟩ emitted recorded stepped
    obtain ⟨moved, -⟩ := Machine.remember_step_eq stepped
    rw [events_append]
    cases input with
    | inl answer =>
        obtain ⟨⟨cfg, actions⟩, step, result⟩ := Option.map_eq_some_iff.mp moved
        cases result
        exact recorded.task_step_iff (taskStep_transition step) log answer
    | inr delivery => exact recorded.driver_step_iff moved log

/-- The driver reports the connection that the poll waits for. -/
def connection : List (Answer ⊕ Delivery) :=
  firstAttempt.map .inl ++ [.inr (.call .connected), .inr .proceed, .inr .proceed, .inl .proceed]

/-- The link is lost again before the task tells of it. -/
def lostConnection : List (Answer ⊕ Delivery) :=
  connection ++ [.inr (.call .disconnected), .inr .proceed, .inl .proceed]

end WifiIot.NetConfig
