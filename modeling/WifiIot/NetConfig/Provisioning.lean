import WifiIot.Machine.Throughout
import WifiIot.NetConfig.Transition

/-!
# Provisioning and failed attempts

A failed attempt leaves the mode alone, but a lost connection that
`WifiConnectionChangedHandler` reports sets it to `NET_MODE_IDLE`, also while
the task is configuring, and the accept loop ends.  The handler swallows the
first five losses since the station was last connected, over all attempts.
-/

namespace WifiIot.NetConfig

/-! ## What a log tells -/

/-- The losses since the last connection, whether the station was ever started,
and what `NetCfgGetSocketValue` returned last. -/
structure WifiHistory where
  missed : Nat
  started : Bool
  returned : Option Int
  deriving DecidableEq

namespace WifiHistory

def record (past : WifiHistory) : Action → WifiHistory
  | .WifiConnectionChangedHandler state =>
      { past with missed :=
          if state = WIFI_STATE_AVALIABLE then 0
          else if state = WIFI_STATE_NOT_AVALIABLE then past.missed + 1 else past.missed }
  | .WifiStaStart => { past with started := true }
  | .NetCfgGetSocketValue retval => { past with returned := some retval }
  | _ => past

end WifiHistory

def wifiHistory (log : List Action) : WifiHistory := log.foldl WifiHistory.record ⟨0, false, none⟩

@[simp]
theorem wifiHistory_append (log actions : List Action) :
    wifiHistory (log ++ actions) = actions.foldl WifiHistory.record (wifiHistory log) :=
  List.foldl_append

/-! ## The driver's events -/

theorem NetCfgConnectStatus_mode (manager : NetManagerInfo) (s : Int) :
    (manager.NetCfgConnectStatus s).1.mode = if s = 0 then NET_MODE_IDLE else manager.mode := by
  unfold NetManagerInfo.NetCfgConnectStatus
  by_cases lost : s = 0
  · simp [lost]
  · rw [if_neg lost]
    split
    · rfl
    · rfl

theorem foldl_wifiRecord_reported {cfg next : NetCfg} {state : Int} {actions : List Action}
    (event : Event cfg state next actions) (past : WifiHistory) :
    actions.foldl WifiHistory.record past = past := by
  cases event with
  | swallowed loss left => rfl
  | unheard unset spent => rfl
  | reported wifiChange spent => exact foldl_callback (fun _ _ => rfl) cfg.manager state past

theorem Event.frame {cfg next : NetCfg} {state : Int} {actions : List Action}
    (event : Event cfg state next actions) :
    next.pc = cfg.pc ∧ next.hotspotActive = cfg.hotspotActive ∧
      next.wifiSta.wifiChange = cfg.wifiSta.wifiChange := by
  cases event <;> exact ⟨rfl, rfl, rfl⟩

/-- A loss takes the device out of its mode when the station was started and
the retries are spent. -/
theorem Event.mode {cfg next : NetCfg} {state : Int} {actions : List Action}
    (event : Event cfg state next actions) :
    next.manager.mode =
      if state = WIFI_STATE_NOT_AVALIABLE ∧ cfg.wifiSta.wifiChange = true ∧
          TEST_CONNECT_RETRY_COUNT ≤ cfg.wifiSta.connectRetryCount then NET_MODE_IDLE
      else cfg.manager.mode := by
  cases event with
  | swallowed loss left => exact (if_neg fun spent => absurd left (not_lt.mpr spent.2.2)).symm
  | unheard unset spent => exact (if_neg fun heard => by simp [unset] at heard).symm
  | reported wifiChange spent =>
      rw [NetCfgConnectStatus_mode]
      exact if_congr ⟨fun lost => ⟨lost, wifiChange, spent lost⟩, And.left⟩ rfl rfl

/-! ## The retry counter and the last result -/

/-- The retry counter and `g_wifiChange` as the log has them. -/
structure Counted (cfg : NetCfg) (past : WifiHistory) : Prop where
  retries : cfg.wifiSta.connectRetryCount = min past.missed TEST_CONNECT_RETRY_COUNT
  started : cfg.wifiSta.wifiChange = past.started
  returned : ∀ retval, cfg.pc = .closeClient retval → past.returned = some retval
  succeeded : cfg.pc = .setMode → past.returned = some 0

theorem counted_start (nEventCallback : Bool) :
    Counted (NetCfgStart nEventCallback) (wifiHistory []) where
  retries := rfl
  started := rfl
  returned retval impossible := by cases impossible
  succeeded impossible := by cases impossible

/-- The counter stops at its limit, where the losses go on. -/
theorem Event.retries {cfg next : NetCfg} {state : Int} {actions : List Action}
    {past : WifiHistory} (event : Event cfg state next actions) (counted : Counted cfg past) :
    next.wifiSta.connectRetryCount =
      min (past.record (.WifiConnectionChangedHandler state)).missed TEST_CONNECT_RETRY_COUNT := by
  have retries := counted.retries
  have other : WIFI_STATE_NOT_AVALIABLE ≠ WIFI_STATE_AVALIABLE := by decide
  have heard (spent : state = WIFI_STATE_NOT_AVALIABLE →
      TEST_CONNECT_RETRY_COUNT ≤ cfg.wifiSta.connectRetryCount) :
      (cfg.wifiSta.heard state).connectRetryCount =
        min (if state = WIFI_STATE_AVALIABLE then 0
          else if state = WIFI_STATE_NOT_AVALIABLE then past.missed + 1 else past.missed)
          TEST_CONNECT_RETRY_COUNT := by
    unfold WifiSta.heard
    by_cases available : state = WIFI_STATE_AVALIABLE
    · simp only [available, if_true, Nat.zero_min]
    · by_cases loss : state = WIFI_STATE_NOT_AVALIABLE
      · have limit := spent loss
        simp only [loss, other, if_false, if_true]
        omega
      · simp only [available, loss, if_false, retries]
  cases event with
  | swallowed loss left =>
      simp only [WifiHistory.record, loss, other, if_false, if_true]
      omega
  | unheard unset spent => exact heard spent
  | reported wifiChange spent => exact heard spent

theorem Event.counted {cfg next : NetCfg} {state : Int} {actions : List Action}
    {past : WifiHistory} (event : Event cfg state next actions) (counted : Counted cfg past) :
    Counted next (past.record (.WifiConnectionChangedHandler state)) := by
  obtain ⟨samePc, -, sameChange⟩ := event.frame
  have retries := event.retries counted
  exact ⟨retries, sameChange.trans counted.started, samePc ▸ counted.returned,
    samePc ▸ counted.succeeded⟩

theorem Counted.move {cfg next : NetCfg} {past : WifiHistory} (counted : Counted cfg past)
    (same : next.wifiSta = cfg.wifiSta)
    (returned : ∀ retval, next.pc ≠ .closeClient retval) (stored : next.pc ≠ .setMode) :
    Counted next past where
  retries := by
    rw [same]
    exact counted.retries
  started := by
    rw [same]
    exact counted.started
  returned retval at_ := absurd at_ (returned retval)
  succeeded at_ := absurd at_ stored

theorem Counted.return {cfg next : NetCfg} {past : WifiHistory} (counted : Counted cfg past)
    {result : Int} (same : next.wifiSta = cfg.wifiSta) (at_ : next.pc = .closeClient result) :
    Counted next { past with returned := some result } where
  retries := by
    rw [same]
    exact counted.retries
  started := by
    rw [same]
    exact counted.started
  returned retval reached := by
    rw [at_] at reached
    cases reached
    rfl
  succeeded impossible := by
    rw [at_] at impossible
    cases impossible

theorem Transition.counted {cfg next : NetCfg} {actions : List Action} {past : WifiHistory}
    (transition : Transition cfg next actions) (counted : Counted cfg past) :
    Counted next (actions.foldl WifiHistory.record past) := by
  cases transition with
  | rest resting later =>
      exact counted.move rfl (fun retval => later.ne_of_not_resting id) (later.ne_of_not_resting id)
  | notify at_ =>
      rw [foldl_notify fun _ _ => rfl]
      exact counted.move rfl nofun nofun
  | @store site at_ =>
      exact counted.move rfl (fun retval => by cases site <;> nofun) (by cases site <;> nofun)
  | accept at_ =>
      rw [foldl_accepted fun _ _ => rfl]
      exact counted.move rfl nofun nofun
  | interrupted at_ other => exact counted.return rfl rfl
  | disconnected at_ => exact counted.return rfl rfl
  | startSta at_ later =>
      rcases later with rfl | rfl <;> exact ⟨counted.retries, rfl, nofun, nofun⟩
  | reply at_ =>
      rw [foldl_reply (fun _ _ => rfl) fun _ => rfl]
      exact counted.return rfl rfl
  | configured at_ =>
      exact ⟨counted.retries, counted.started, nofun, fun _ => counted.returned 0 at_⟩
  | _ => exact counted.move rfl nofun nofun

theorem counted_of_step {cfg next : NetCfg} {log actions : List Action} {input : Answer ⊕ Int}
    (counted : Counted cfg (wifiHistory log))
    (stepped : wifiMachine.step cfg input = some (next, actions)) :
    Counted next (wifiHistory (log ++ actions)) := by
  rw [wifiHistory_append]
  cases wifiMachine_step_cases stepped with
  | inl moved =>
      obtain ⟨answer, rfl, transition⟩ := moved
      exact transition.counted counted
  | inr happened =>
      obtain ⟨state, reported, rfl, event, rfl⟩ := happened
      rw [List.foldl_cons, foldl_wifiRecord_reported event]
      exact event.counted counted

/-! ## Leaving the configuration -/

/-- A step that leaves `NET_MODE_CONFIG` enters `NET_MODE_STA`, after
`NetCfgGetSocketValue` returned 0. -/
def LeavesOnSuccess (cfg : NetCfg) (log : List Action) (input : Answer ⊕ Int) : Prop :=
  ∀ next actions, wifiMachine.step cfg input = some (next, actions) →
    cfg.manager.mode = NET_MODE_CONFIG → next.manager.mode ≠ NET_MODE_CONFIG →
    next.manager.mode = NET_MODE_STA ∧ (wifiHistory log).returned = some 0

/-- A loss while the device is configured is one of the first five since the
last connection, or comes before the station was started. -/
def LossTolerated (cfg : NetCfg) (log : List Action) (input : Answer ⊕ Int) : Prop :=
  input = .inr WIFI_STATE_NOT_AVALIABLE → cfg.manager.mode = NET_MODE_CONFIG →
    (wifiHistory log).started = true → (wifiHistory log).missed < TEST_CONNECT_RETRY_COUNT

instance (cfg : NetCfg) (log : List Action) (input : Answer ⊕ Int) :
    Decidable (LossTolerated cfg log input) := by
  unfold LossTolerated
  infer_instance

theorem Transition.mode {cfg next : NetCfg} {actions : List Action}
    (transition : Transition cfg next actions) :
    next.manager.mode = cfg.manager.mode ∨
      cfg.pc = .setMode ∧ next.manager.mode = NET_MODE_STA := by
  cases transition with
  | setMode at_ => exact .inr ⟨at_, rfl⟩
  | _ => exact .inl rfl

theorem Event.mode_of_tolerated {cfg next : NetCfg} {state : Int} {actions log : List Action}
    (event : Event cfg state next actions) (counted : Counted cfg (wifiHistory log))
    (config : cfg.manager.mode = NET_MODE_CONFIG) :
    next.manager.mode = NET_MODE_CONFIG ↔ LossTolerated cfg log (.inr state) := by
  have retries := counted.retries
  rw [event.mode, config, counted.started]
  constructor
  · intro kept lost _ started
    obtain rfl : state = WIFI_STATE_NOT_AVALIABLE := Sum.inr.inj lost
    by_contra spent
    rw [if_pos ⟨rfl, started, by omega⟩] at kept
    cases kept
  · intro tolerated
    apply if_neg
    intro spent
    obtain ⟨rfl, started, limit⟩ := spent
    have left := tolerated rfl config started
    omega

theorem leaves_iff {cfg next : NetCfg} {log actions : List Action} {input : Answer ⊕ Int}
    (counted : Counted cfg (wifiHistory log))
    (stepped : wifiMachine.step cfg input = some (next, actions)) :
    LeavesOnSuccess cfg log input ↔ LossTolerated cfg log input := by
  cases wifiMachine_step_cases stepped with
  | inl moved =>
      obtain ⟨answer, rfl, transition⟩ := moved
      refine iff_of_true ?_ (fun impossible => by cases impossible)
      intro other others same config left
      obtain ⟨rfl, -⟩ := Prod.mk.inj (Option.some.inj (stepped.symm.trans same))
      cases transition.mode with
      | inl kept => exact absurd (kept.trans config) left
      | inr stored => exact ⟨stored.2, counted.succeeded stored.1⟩
  | inr happened =>
      obtain ⟨state, reported, rfl, event, rfl⟩ := happened
      constructor
      · intro leaves lost config
        refine (event.mode_of_tolerated counted config).mp ?_ lost config
        by_contra left
        obtain ⟨sta, -⟩ := leaves _ _ stepped config left
        rw [event.mode, config] at sta
        split at sta <;> cases sta
      · intro tolerated other others same config left
        obtain ⟨rfl, -⟩ := Prod.mk.inj (Option.some.inj (stepped.symm.trans same))
        exact absurd ((event.mode_of_tolerated counted config).mpr tolerated) left

/-! ## While the losses are tolerated -/

def Pc.InClient : Pc → Prop
  | .accept | .NetCfgGetSocketValue | .recvfrom | .notify .connectting | .store .connectting
  | .WifiStaStart | .WifiStaConnect | .poll _ | .notify .connFailed | .store .connFailed
  | .WifiStaStop | .notify .connectted | .store .connectted | .SendLocalIp _ | .closeClient _
  | .setMode => True
  | _ => False

/-- The task is between the start of the soft AP and its end. -/
def Pc.InSocket (pc : Pc) : Prop :=
  pc = .socket ∨ pc = .NetCfgSocket ∨ pc.InClient

/-- Clients are served in configuration mode and over the soft AP. -/
structure Serving (cfg : NetCfg) : Prop where
  hotspot : cfg.pc.InSocket → cfg.hotspotActive = true
  config : cfg.pc.InClient → cfg.manager.mode = NET_MODE_CONFIG

theorem serving_start (nEventCallback : Bool) : Serving (NetCfgStart nEventCallback) where
  hotspot inside := by simp [NetCfgStart, Pc.InSocket, Pc.InClient] at inside
  config inside := inside.elim

theorem Serving.move {cfg next : NetCfg} (serving : Serving cfg)
    (sameHotspot : next.hotspotActive = cfg.hotspotActive)
    (sameMode : next.manager.mode = cfg.manager.mode)
    (inSocket : next.pc.InSocket → cfg.pc.InSocket)
    (inClient : next.pc.InClient → cfg.pc.InClient) : Serving next where
  hotspot inside := sameHotspot.trans (serving.hotspot (inSocket inside))
  config inside := sameMode.trans (serving.config (inClient inside))

theorem not_inSocket_of_resting {pc : Pc} (resting : pc.Resting) : ¬pc.InSocket := by
  cases pc <;> simp_all [Pc.Resting, Pc.InSocket, Pc.InClient]

theorem Transition.serving {cfg next : NetCfg} {actions : List Action}
    (transition : Transition cfg next actions) (serving : Serving cfg) : Serving next := by
  cases transition with
  | rest resting later =>
      have outside := not_inSocket_of_resting later
      exact ⟨fun inside => absurd inside outside,
        fun inside => absurd (.inr (.inr inside)) outside⟩
  | @store site at_ =>
      refine serving.move rfl rfl ?_ ?_ <;>
        cases site <;> simp [at_, Site.next, Pc.InSocket, Pc.InClient]
  | startAp at_ => exact ⟨fun _ => rfl, fun inside => inside.elim⟩
  | enter at_ config =>
      exact ⟨fun _ => serving.hotspot (.inr (.inl at_)), fun _ => config⟩
  | startSta at_ later =>
      refine serving.move rfl rfl (fun _ => ?_) fun _ => ?_
      · rw [at_]
        exact .inr (.inr trivial)
      · rw [at_]
        trivial
  | setMode at_ =>
      refine ⟨fun _ => serving.hotspot ?_, fun inside => inside.elim⟩
      rw [at_]
      exact .inr (.inr trivial)
  | closeSocket at_ =>
      exact ⟨fun inside => absurd inside (not_inSocket_of_resting trivial),
        fun inside => inside.elim⟩
  | @notify site at_ =>
      refine serving.move rfl rfl ?_ ?_ <;>
        cases site <;> simp [at_, Pc.InSocket, Pc.InClient]
  | _ =>
      refine serving.move rfl rfl ?_ ?_ <;> simp [*, Pc.InSocket, Pc.InClient]

/-- The accept loop can go on: the device is in configuration mode, the soft AP
is up, and the next client can configure it. -/
def Open (cfg : NetCfg) : Prop :=
  cfg.manager.mode = NET_MODE_CONFIG ∧ cfg.hotspotActive = true ∧
    ∀ newfd, ∃ later next actions,
      wifiMachine.Run cfg (.inl .proceed :: .inl .proceed :: .inl (.accept newfd) :: later)
        next actions ∧ next.manager.mode = NET_MODE_STA

/-- After a failed attempt, or a client without one, the accept loop goes on. -/
def OpenAfterFailure (cfg : NetCfg) (_ : List Action) : Prop :=
  ∀ retval, cfg.pc = .closeClient retval → retval ≠ 0 → Open cfg

def nextClient : List (Answer ⊕ Int) :=
  [.inl .proceed, .inl (.recvfrom (some true)), .inl .proceed, .inl .proceed,
    .inl (.WifiStaStart true), .inl (.WifiStaConnect true), .inr WIFI_STATE_AVALIABLE] ++
    List.replicate 6 (.inl .proceed)

theorem Serving.open {cfg : NetCfg} (serving : Serving cfg) {retval : Int}
    (at_ : cfg.pc = .closeClient retval) (failure : retval ≠ 0) : Open cfg := by
  have inside : cfg.pc.InClient := by
    rw [at_]
    trivial
  have config := serving.config inside
  refine ⟨config, serving.hotspot (.inr (.inr inside)), fun newfd => ⟨nextClient, ?_⟩⟩
  obtain ⟨pc, netCfgMode, sockfd, oldfd, ⟨mode, status, netRun, gEventCall⟩, wifiSta, hotspot⟩ := cfg
  obtain rfl : pc = .closeClient retval := at_
  obtain rfl : mode = NET_MODE_CONFIG := config
  have closed : wifiMachine.step
      ⟨.closeClient retval, netCfgMode, sockfd, oldfd, ⟨NET_MODE_CONFIG, status, netRun, gEventCall⟩,
        wifiSta, hotspot⟩ (.inl .proceed) =
      some (⟨.NetCfgSocket, netCfgMode, sockfd, oldfd,
        ⟨NET_MODE_CONFIG, status, netRun, gEventCall⟩, wifiSta, hotspot⟩, [.close oldfd]) := by
    simp [wifiMachine, task, taskStep, NetCfgSocket, failure]
  refine ⟨_, _, (Machine.Run.single closed).append ((Machine.run_iff_exec ..).mpr rfl), rfl⟩

/-- Provisioning survives failed attempts: the mode leaves the configuration
only after a success, and after a failure the accept loop goes on. -/
def SurvivesFailures (start : NetCfg) (inputs : List (Answer ⊕ Int)) : Prop :=
  wifiMachine.Meets LeavesOnSuccess start inputs ∧
    wifiMachine.Throughout OpenAfterFailure start inputs

theorem serving_of_step {cfg next : NetCfg} {log actions : List Action} {input : Answer ⊕ Int}
    (counted : Counted cfg (wifiHistory log)) (serving : Serving cfg)
    (tolerated : LossTolerated cfg log input)
    (stepped : wifiMachine.step cfg input = some (next, actions)) : Serving next := by
  cases wifiMachine_step_cases stepped with
  | inl moved =>
      obtain ⟨answer, rfl, transition⟩ := moved
      exact transition.serving serving
  | inr happened =>
      obtain ⟨state, reported, rfl, event, rfl⟩ := happened
      obtain ⟨samePc, sameHotspot, -⟩ := event.frame
      constructor
      · intro inside
        rw [samePc] at inside
        exact sameHotspot.trans (serving.hotspot inside)
      · intro inside
        rw [samePc] at inside
        exact (event.mode_of_tolerated counted (serving.config inside)).mpr tolerated

theorem open_throughout {nEventCallback : Bool} {inputs : List (Answer ⊕ Int)}
    (met : wifiMachine.Meets LossTolerated (NetCfgStart nEventCallback) inputs) :
    wifiMachine.Throughout OpenAfterFailure (NetCfgStart nEventCallback) inputs := by
  have held : wifiMachine.Throughout
      (fun cfg log => Counted cfg (wifiHistory log) ∧ Serving cfg)
      (NetCfgStart nEventCallback) inputs := by
    refine Machine.throughout_of_meets ?_ ?_ met
    · exact ⟨counted_start nEventCallback, serving_start nEventCallback⟩
    · rintro cfg log input next emitted ⟨counted, serving⟩ tolerated stepped
      exact ⟨counted_of_step counted stepped, serving_of_step counted serving tolerated stepped⟩
  exact held.imp fun cfg log holds retval at_ failure => holds.2.open at_ failure

/-- Provisioning survives the failed attempts of a run exactly if every loss
while the device is configured is tolerated. -/
theorem provisioning_survives_iff {nEventCallback : Bool} {inputs : List (Answer ⊕ Int)}
    {cfg : NetCfg} {log : List Action}
    (run : wifiMachine.Run (NetCfgStart nEventCallback) inputs cfg log) :
    SurvivesFailures (NetCfgStart nEventCallback) inputs ↔
      wifiMachine.Meets LossTolerated (NetCfgStart nEventCallback) inputs := by
  have leaves : wifiMachine.Meets LeavesOnSuccess (NetCfgStart nEventCallback) inputs ↔
      wifiMachine.Meets LossTolerated (NetCfgStart nEventCallback) inputs := by
    refine run.meets_congr (fun cfg log => Counted cfg (wifiHistory log))
      (counted_start nEventCallback) ?_ ?_
    · intro cfg log input next emitted counted stepped
      exact counted_of_step counted stepped
    · intro cfg log input next emitted counted stepped
      exact leaves_iff counted stepped
  constructor
  · intro survives
    exact leaves.mp survives.1
  · intro met
    exact ⟨leaves.mpr met, open_throughout met⟩

/-- An attempt in whose time the given number of losses is reported, up to the
end of the attempt. -/
def failedAttempt (losses : Nat) : List (Answer ⊕ Int) :=
  firstAttempt.map .inl ++ List.replicate losses (.inr WIFI_STATE_NOT_AVALIABLE) ++
    List.replicate 25 (.inl .proceed)

theorem provisioning_survives_five_losses :
    ∃ cfg log, wifiMachine.Run (NetCfgStart true) (failedAttempt 5) cfg log ∧
      cfg.pc = .closeClient (-1) ∧ SurvivesFailures (NetCfgStart true) (failedAttempt 5) := by
  obtain ⟨cfg, log, run, seen⟩ := wifiMachine.exists_run_of_exec (fun result => result.1.pc)
    (NetCfgStart true) (failedAttempt 5) (.closeClient (-1)) (by decide +kernel)
  refine ⟨cfg, log, run, seen, (provisioning_survives_iff run).mpr ?_⟩
  exact Machine.meets_of_meetsFrom (fun cfg log input => decide (LossTolerated cfg log input))
    (fun _ _ _ passed => of_decide_eq_true passed) (by decide +kernel)

/-- With the sixth loss of one attempt the mode becomes `NET_MODE_IDLE`; the
attempt fails, the accept loop ends and the soft AP is stopped. -/
theorem sixth_loss_ends_provisioning :
    let inputs := failedAttempt 6 ++ List.replicate 3 (.inl .proceed)
    ∃ cfg log, wifiMachine.Run (NetCfgStart true) inputs cfg log ∧
      cfg.pc = .NetCfgTask ∧ cfg.manager.mode = NET_MODE_IDLE ∧ cfg.hotspotActive = false ∧
      (wifiHistory log).returned = some (-1) ∧ ¬SurvivesFailures (NetCfgStart true) inputs := by
  intro inputs
  obtain ⟨cfg, log, run, seen⟩ := wifiMachine.exists_run_of_exec
    (fun result => (result.1.pc, result.1.manager.mode, result.1.hotspotActive,
      (wifiHistory result.2).returned)) (NetCfgStart true)
    (failedAttempt 6 ++ List.replicate 3 (.inl .proceed))
    (.NetCfgTask, NET_MODE_IDLE, false, some (-1)) (by decide +kernel)
  simp only [Prod.mk.injEq] at seen
  obtain ⟨rest, idle, stopped, returned⟩ := seen
  refine ⟨cfg, log, run, rest, idle, stopped, returned, fun survives => ?_⟩
  -- The loss that leaves the configuration.
  obtain ⟨before, beforeLog, beforeRun, broken⟩ := wifiMachine.exists_run_of_exec
    (fun result => (result.1.manager.mode,
      (wifiMachine.step result.1 (.inr WIFI_STATE_NOT_AVALIABLE)).map (·.1.manager.mode)))
    (NetCfgStart true) (firstAttempt.map .inl ++ List.replicate 5 (.inr WIFI_STATE_NOT_AVALIABLE))
    (NET_MODE_CONFIG, some NET_MODE_IDLE) (by decide +kernel)
  simp only [Prod.mk.injEq, Option.map_eq_some_iff] at broken
  obtain ⟨config, ⟨⟨next, emitted⟩, stepped, left⟩⟩ := broken
  have success := survives.1 _ _ (List.replicate 28 (.inl .proceed)) rfl before beforeLog beforeRun
    next emitted stepped config (by rw [left]; decide)
  rw [left] at success
  cases success.1

end WifiIot.NetConfig
