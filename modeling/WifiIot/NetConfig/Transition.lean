import WifiIot.NetConfig.Basic

/-!
# What a step of the configuration task can do

`Transition` lists the steps with their guards.  The invariants of the task are
proved from it, never from the step function.
-/

namespace WifiIot.NetConfig

/-- The task is outside `NetCfgStartConfig`. -/
def Pc.Resting : Pc → Prop
  | .NetCfgTask | .sameMode | .newMode | .loadMode | .exited => True
  | _ => False

theorem Pc.Resting.ne_of_not_resting {pc other : Pc} (resting : pc.Resting)
    (busy : ¬other.Resting) : pc ≠ other :=
  fun same => busy (same ▸ resting)

/-- The retry counter after an event that is not swallowed. -/
def WifiSta.heard (wifiSta : WifiSta) (state : Int) : WifiSta :=
  { wifiSta with
    connectRetryCount := if state = WIFI_STATE_AVALIABLE then 0 else wifiSta.connectRetryCount }

inductive Transition (cfg : NetCfg) : NetCfg → List Action → Prop where
  | rest {netCfgMode next} : cfg.pc.Resting → next.Resting →
      Transition cfg { cfg with netCfgMode := netCfgMode, pc := next } []
  | start : cfg.pc.Resting → cfg.manager.mode = NET_MODE_CONFIG →
      Transition cfg { cfg with netCfgMode := NET_MODE_CONFIG, pc := .notify .config } []
  | notify {site} : cfg.pc = .notify site →
      Transition cfg { cfg with pc := .store site } (cfg.manager.notify site.event)
  | store {site} : cfg.pc = .store site →
      Transition cfg
        { cfg with manager := { cfg.manager with status := site.status }, pc := site.next }
        [.status site.status]
  | startAp : cfg.pc = .SoftApStart →
      Transition cfg { cfg with hotspotActive := true, pc := .socket } [.WifiStaStop, .SoftApStart]
  | apFailed : cfg.pc = .SoftApStart →
      Transition cfg { cfg with pc := .notify .configFail } [.WifiStaStop]
  | socketFailed : cfg.pc = .socket → Transition cfg { cfg with pc := .notify .configFail } []
  | setupFailed {sockfd} : cfg.pc = .socket →
      Transition cfg { cfg with pc := .notify .configFail } [.socket sockfd, .close sockfd]
  | listen {sockfd} : cfg.pc = .socket →
      Transition cfg { cfg with sockfd := sockfd, pc := .NetCfgSocket } [.socket sockfd]
  | enter : cfg.pc = .NetCfgSocket → cfg.manager.mode = NET_MODE_CONFIG →
      Transition cfg { cfg with pc := .accept } []
  | leave : cfg.pc = .NetCfgSocket → cfg.manager.mode ≠ NET_MODE_CONFIG →
      Transition cfg { cfg with pc := .closeSocket } []
  | accept {newfd} : cfg.pc = .accept →
      Transition cfg { cfg with newfd := newfd, pc := .NetCfgGetSocketValue } (accepted newfd)
  | receive : cfg.pc = .NetCfgGetSocketValue → cfg.manager.mode = NET_MODE_CONFIG →
      Transition cfg { cfg with pc := .recvfrom } []
  | interrupted : cfg.pc = .NetCfgGetSocketValue → cfg.manager.mode ≠ NET_MODE_CONFIG →
      Transition cfg { cfg with pc := .closeClient (-1) } [.NetCfgGetSocketValue (-1)]
  | disconnected : cfg.pc = .recvfrom →
      Transition cfg { cfg with pc := .closeClient (-1) } [.NetCfgGetSocketValue (-1)]
  | ignored : cfg.pc = .recvfrom → Transition cfg { cfg with pc := .NetCfgGetSocketValue } []
  | parsed : cfg.pc = .recvfrom → Transition cfg { cfg with pc := .notify .connectting } []
  | startSta {next} : cfg.pc = .WifiStaStart → next = .WifiStaConnect ∨ next = .notify .connFailed →
      Transition cfg
        { cfg with wifiSta := { cfg.wifiSta with wifiChange := true }, pc := next } [.WifiStaStart]
  | connect : cfg.pc = .WifiStaConnect → Transition cfg { cfg with pc := .poll 0 } []
  | refused : cfg.pc = .WifiStaConnect → Transition cfg { cfg with pc := .notify .connFailed } []
  | connectted {timecnt} : cfg.pc = .poll timecnt → cfg.manager.status = NET_STA_CONNECTTED →
      Transition cfg { cfg with pc := .notify .connectted } []
  | timeout {timecnt} : cfg.pc = .poll timecnt → cfg.manager.status ≠ NET_STA_CONNECTTED →
      Transition cfg { cfg with pc := .notify .connFailed } []
  | wait {timecnt} : cfg.pc = .poll timecnt → cfg.manager.status ≠ NET_STA_CONNECTTED →
      Transition cfg { cfg with pc := .poll (timecnt + 1) } []
  | stopSta : cfg.pc = .WifiStaStop →
      Transition cfg { cfg with pc := .SendLocalIp (-1) } [.WifiStaStop]
  | reply {result} : cfg.pc = .SendLocalIp result →
      Transition cfg { cfg with pc := .closeClient result }
        (reply result ++ [.NetCfgGetSocketValue result])
  | failed {retval} : cfg.pc = .closeClient retval → retval ≠ 0 →
      Transition cfg { cfg with pc := .NetCfgSocket } [.close cfg.newfd]
  | configured : cfg.pc = .closeClient 0 → Transition cfg { cfg with pc := .setMode } [.close cfg.newfd]
  | setMode : cfg.pc = .setMode →
      Transition cfg
        { cfg with manager := { cfg.manager with mode := NET_MODE_STA }, pc := .NetCfgSocket }
        [.mode NET_MODE_STA]
  | closeSocket : cfg.pc = .closeSocket →
      Transition cfg { cfg with hotspotActive := false, pc := .NetCfgTask }
        [.close cfg.sockfd, .SoftApStop]

/-- What `WifiConnectionChangedHandler` does with an event. -/
inductive Event (cfg : NetCfg) (state : Int) : NetCfg → List Action → Prop where
  | swallowed : state = WIFI_STATE_NOT_AVALIABLE →
      cfg.wifiSta.connectRetryCount < TEST_CONNECT_RETRY_COUNT →
      Event cfg state
        { cfg with wifiSta :=
          { cfg.wifiSta with connectRetryCount := cfg.wifiSta.connectRetryCount + 1 } } []
  | unheard : cfg.wifiSta.wifiChange = false →
      (state = WIFI_STATE_NOT_AVALIABLE →
        TEST_CONNECT_RETRY_COUNT ≤ cfg.wifiSta.connectRetryCount) →
      Event cfg state { cfg with wifiSta := cfg.wifiSta.heard state } []
  | reported : cfg.wifiSta.wifiChange = true →
      (state = WIFI_STATE_NOT_AVALIABLE →
        TEST_CONNECT_RETRY_COUNT ≤ cfg.wifiSta.connectRetryCount) →
      Event cfg state
        { cfg with
          wifiSta := cfg.wifiSta.heard state
          manager := (cfg.manager.NetCfgConnectStatus state).1 }
        (.NetCfgConnectStatus state :: (cfg.manager.NetCfgConnectStatus state).2)

section

variable {cfg next : NetCfg} {answer : Answer} {actions : List Action}

theorem switch_transition (resting : cfg.pc.Resting) :
    Transition cfg { cfg with netCfgMode := cfg.manager.mode, pc := switch cfg.manager.mode } [] := by
  cases mode : cfg.manager.mode with
  | NET_MODE_CONFIG => exact .start resting mode
  | NET_MODE_IDLE => exact .rest resting trivial
  | NET_MODE_STA => exact .rest resting trivial

theorem NetCfgTask_transition (stepped : NetCfgTask cfg answer = some (next, actions)) :
    Transition cfg next actions := by
  unfold NetCfgTask at stepped
  split at stepped
  · rename_i at_
    cases stepped
    refine .rest (by rw [at_]; trivial) ?_
    split <;> trivial
  · rename_i at_
    cases stepped
    refine .rest (by rw [at_]; trivial) ?_
    split <;> trivial
  · rename_i at_
    cases stepped
    have resting : cfg.pc.Resting := by
      rw [at_]
      trivial
    by_cases same : cfg.netCfgMode = cfg.manager.mode
    · have switched := switch_transition resting
      rw [← same] at switched
      rwa [if_neg (not_not.mpr same)]
    · rw [if_pos same]
      exact .rest resting trivial
  · rename_i at_
    cases stepped
    exact switch_transition (by rw [at_]; trivial)
  · cases stepped

theorem SET_NET_EVENT_transition (stepped : SET_NET_EVENT cfg answer = some (next, actions)) :
    Transition cfg next actions := by
  cases answer <;> simp only [SET_NET_EVENT, reduceCtorEq] at stepped
  split at stepped
  · rename_i site at_
    cases stepped
    exact .notify at_
  · rename_i site at_
    cases stepped
    exact .store at_
  · cases stepped

theorem NetCfgStartConfig_transition
    (stepped : NetCfgStartConfig cfg answer = some (next, actions)) :
    Transition cfg next actions := by
  unfold NetCfgStartConfig at stepped
  split at stepped
  · rename_i started at_
    split at stepped
    · cases stepped
      exact .startAp at_
    · cases stepped
      exact .apFailed at_
  · rename_i at_
    cases stepped
    exact .closeSocket at_
  · cases stepped

theorem NetCfgSocket_transition (stepped : NetCfgSocket cfg answer = some (next, actions)) :
    Transition cfg next actions := by
  unfold NetCfgSocket at stepped
  split at stepped
  · rename_i sockfd setup at_
    split at stepped
    · cases stepped
      exact .socketFailed at_
    · split at stepped
      · cases stepped
        exact .setupFailed at_
      · cases stepped
        exact .listen at_
  · rename_i at_
    cases stepped
    split
    · rename_i config
      exact .enter at_ config
    · rename_i other
      exact .leave at_ other
  · rename_i newfd at_
    cases stepped
    exact .accept at_
  · rename_i retval at_
    cases stepped
    split
    · rename_i success
      subst retval
      exact .configured at_
    · rename_i failure
      exact .failed at_ failure
  · rename_i at_
    cases stepped
    exact .setMode at_
  · cases stepped

theorem NetCfgGetSocketValue_transition
    (stepped : NetCfgGetSocketValue cfg answer = some (next, actions)) :
    Transition cfg next actions := by
  unfold NetCfgGetSocketValue at stepped
  split at stepped
  · rename_i at_
    split at stepped
    · rename_i other
      cases stepped
      exact .interrupted at_ other
    · rename_i config
      cases stepped
      exact .receive at_ (not_not.mp config)
  · rename_i at_
    cases stepped
    exact .disconnected at_
  · rename_i parsed at_
    cases stepped
    cases parsed with
    | false => exact .ignored at_
    | true => exact .parsed at_
  · rename_i at_
    cases stepped
    exact .stopSta at_
  · rename_i result at_
    cases stepped
    exact .reply at_
  · cases stepped

theorem NetCfgConnect_transition (stepped : NetCfgConnect cfg answer = some (next, actions)) :
    Transition cfg next actions := by
  unfold NetCfgConnect at stepped
  split at stepped
  · rename_i started at_
    cases stepped
    refine .startSta at_ ?_
    split
    · exact .inl rfl
    · exact .inr rfl
  · rename_i connecting at_
    cases stepped
    split
    · exact .connect at_
    · exact .refused at_
  · rename_i timecnt at_
    split at stepped
    · rename_i connected
      cases stepped
      exact .connectted at_ connected
    · rename_i waiting
      split at stepped
      · cases stepped
        exact .timeout at_ waiting
      · cases stepped
        exact .wait at_ waiting
  · cases stepped

theorem taskStep_transition (stepped : taskStep cfg answer = some (next, actions)) :
    Transition cfg next actions := by
  unfold taskStep at stepped
  split at stepped
  all_goals first
    | exact NetCfgTask_transition stepped
    | exact SET_NET_EVENT_transition stepped
    | exact NetCfgStartConfig_transition stepped
    | exact NetCfgSocket_transition stepped
    | exact NetCfgGetSocketValue_transition stepped
    | exact NetCfgConnect_transition stepped

theorem WifiConnectionChangedHandler_eq (cfg : NetCfg) (state : Int) :
    WifiConnectionChangedHandler cfg state =
      if state = WIFI_STATE_NOT_AVALIABLE ∧
          cfg.wifiSta.connectRetryCount < TEST_CONNECT_RETRY_COUNT then
        ({ cfg with wifiSta :=
          { cfg.wifiSta with connectRetryCount := cfg.wifiSta.connectRetryCount + 1 } }, [])
      else if cfg.wifiSta.wifiChange then
        callbackStep { cfg with wifiSta := cfg.wifiSta.heard state } state
      else ({ cfg with wifiSta := cfg.wifiSta.heard state }, []) := by
  unfold WifiConnectionChangedHandler WifiSta.heard
  by_cases available : state = WIFI_STATE_AVALIABLE
  · have other : WIFI_STATE_AVALIABLE ≠ WIFI_STATE_NOT_AVALIABLE := by decide
    simp only [available, if_true, other, false_and, if_false]
  · simp only [available, if_false]

theorem WifiConnectionChangedHandler_event {state : Int}
    (handled : WifiConnectionChangedHandler cfg state = (next, actions)) :
    Event cfg state next actions := by
  rw [WifiConnectionChangedHandler_eq] at handled
  split at handled
  · rename_i loss
    obtain ⟨rfl, rfl⟩ := Prod.mk.inj handled
    exact .swallowed loss.1 loss.2
  · rename_i heard
    have spent (loss : state = WIFI_STATE_NOT_AVALIABLE) :
        TEST_CONNECT_RETRY_COUNT ≤ cfg.wifiSta.connectRetryCount :=
      not_lt.mp fun left => heard ⟨loss, left⟩
    split at handled
    · rename_i wifiChange
      obtain ⟨rfl, rfl⟩ := Prod.mk.inj handled
      exact .reported wifiChange spent
    · rename_i unset
      obtain ⟨rfl, rfl⟩ := Prod.mk.inj handled
      exact .unheard (Bool.not_eq_true _ ▸ unset) spent

theorem linkMachine_step_cases {input : Answer ⊕ Callback}
    (stepped : linkMachine.step cfg input = some (next, actions)) :
    (∃ answer, input = .inl answer ∧ Transition cfg next actions) ∨
      ∃ callback, input = .inr callback ∧
        next = { cfg with manager := (cfg.manager.NetCfgConnectStatus callback.s).1 } ∧
        actions = .NetCfgConnectStatus callback.s ::
          (cfg.manager.NetCfgConnectStatus callback.s).2 := by
  cases input with
  | inl answer => exact .inl ⟨answer, rfl, taskStep_transition stepped⟩
  | inr callback =>
      obtain ⟨rfl, rfl⟩ := Prod.mk.inj (Option.some.inj stepped)
      exact .inr ⟨callback, rfl, rfl, rfl⟩

theorem wifiMachine_step_cases {input : Answer ⊕ Int}
    (stepped : wifiMachine.step cfg input = some (next, actions)) :
    (∃ answer, input = .inl answer ∧ Transition cfg next actions) ∨
      ∃ state reported, input = .inr state ∧ Event cfg state next reported ∧
        actions = .WifiConnectionChangedHandler state :: reported := by
  cases input with
  | inl answer => exact .inl ⟨answer, rfl, taskStep_transition stepped⟩
  | inr state =>
      obtain ⟨rfl, rfl⟩ := Prod.mk.inj (Option.some.inj stepped)
      exact .inr ⟨state, _, rfl, WifiConnectionChangedHandler_event rfl, rfl⟩

end

/-! ## Reading the actions of a step -/

section Recorders

variable {Past : Type} {record : Past → Action → Past}

theorem foldl_notify (silent : ∀ past event, record past (.gEventCall event) = past)
    (manager : NetManagerInfo) (event : NET_EVENT_TYPE) (past : Past) :
    (manager.notify event).foldl record past = past := by
  unfold NetManagerInfo.notify
  split
  · exact silent past event
  · rfl

theorem foldl_accepted (silent : ∀ past newfd, record past (.accept newfd) = past)
    (newfd : Int) (past : Past) : (accepted newfd).foldl record past = past := by
  unfold accepted
  split
  · rfl
  · exact silent past newfd

theorem foldl_reply (sent : ∀ past code, record past (.SendLocalIp code) = past)
    (started : ∀ past, record past .NetServerStart = past) (result : Int) (past : Past) :
    (reply result ++ [Action.NetCfgGetSocketValue result]).foldl record past =
      record past (.NetCfgGetSocketValue result) := by
  unfold reply
  split <;> simp [sent, started]

theorem foldl_callback (silent : ∀ past event, record past (.gEventCall event) = past)
    (manager : NetManagerInfo) (s : Int) (past : Past) :
    (manager.NetCfgConnectStatus s).2.foldl record past = past := by
  unfold NetManagerInfo.NetCfgConnectStatus
  split
  · exact foldl_notify silent manager _ past
  · split
    · exact foldl_notify silent manager _ past
    · rfl

end Recorders

end WifiIot.NetConfig
