import WifiIot.Machine.Throughout
import WifiIot.NetConfig.Transition

/-!
# The state of the manager and the link

The task and the callbacks write `status` and `mode` without a lock.  A
callback leaves both as the link is; the stores of the task overwrite them.
After a completed attempt they agree with the link exactly if the task has not
stored the opposite of what the last callback said.
-/

namespace WifiIot.NetConfig

/-! ## What a log tells -/

/-- An attempt begins with the status `NET_STA_CONNECTTING` and is completed
when the task has stored the mode or `NetCfgGetSocketValue` has failed. -/
inductive Attempt where
  | none
  | running
  | completed
  deriving DecidableEq

/-- The last attempt, the last callback, and whether a callback came after the
last status that the task stored. -/
structure History where
  attempt : Attempt
  lastCallback : Option Int
  fresh : Bool
  deriving DecidableEq

namespace History

def record (past : History) : Action → History
  | .status stored =>
      { past with
        attempt := if stored = NET_STA_CONNECTTING then .running else past.attempt
        fresh := false }
  | .mode _ => { past with attempt := .completed }
  | .NetCfgGetSocketValue retval =>
      if retval ≠ 0 ∧ past.attempt = .running then { past with attempt := .completed } else past
  | .NetCfgConnectStatus s => { past with lastCallback := some s, fresh := true }
  | _ => past

end History

def history (log : List Action) : History := log.foldl History.record ⟨.none, none, false⟩

@[simp]
theorem history_append (log actions : List Action) :
    history (log ++ actions) = actions.foldl History.record (history log) :=
  List.foldl_append

theorem record_succeeded (past : History) : past.record (.NetCfgGetSocketValue 0) = past := rfl

theorem record_failed {past : History} {retval : Int} (failure : retval ≠ 0)
    (running : past.attempt = .running) :
    past.record (.NetCfgGetSocketValue retval) = { past with attempt := .completed } :=
  if_pos ⟨failure, running⟩

theorem record_unattempted {past : History} {retval : Int} (idle : past.attempt ≠ .running) :
    past.record (.NetCfgGetSocketValue retval) = past :=
  if_neg fun failed => idle failed.2

/-! ## The callbacks -/

theorem NetCfgConnectStatus_connected (manager : NetManagerInfo) :
    (manager.NetCfgConnectStatus 1).1 = { manager with status := NET_STA_CONNECTTED } := by
  unfold NetManagerInfo.NetCfgConnectStatus
  by_cases known : manager.status = NET_STA_CONNECTTED
  · rw [if_neg (by simp [known]), if_neg (by decide), ← known]
  · rw [if_pos ⟨rfl, known⟩]

theorem NetCfgConnectStatus_disconnected (manager : NetManagerInfo) :
    (manager.NetCfgConnectStatus 0).1 =
      { manager with status := NET_STA_DISTCONNECT, mode := NET_MODE_IDLE } := by
  simp [NetManagerInfo.NetCfgConnectStatus]

/-! ## The invariant -/

inductive Stage where
  | resting
  | starting
  | listening
  | serving
  | connecting
  | linked
  | failed
  | connected

def Pc.stage : Pc → Stage
  | .NetCfgTask | .sameMode | .newMode | .loadMode | .exited | .closeSocket => .resting
  | .notify .config | .store .config | .notify .configFail | .store .configFail
  | .SoftApStart | .socket => .starting
  | .NetCfgSocket => .listening
  | .accept | .NetCfgGetSocketValue | .recvfrom | .notify .connectting | .store .connectting =>
      .serving
  | .WifiStaStart | .WifiStaConnect | .poll _ | .notify .connFailed | .store .connFailed =>
      .connecting
  | .notify .connectted | .store .connectted => .linked
  | .WifiStaStop => .failed
  | .SendLocalIp result => if result = 0 then .connected else .failed
  | .closeClient retval => if retval = 0 then .connected else .listening
  | .setMode => .connected

/-- What is known at each stage: which attempt it belongs to, and the status
that the task has stored unless a callback came since. -/
def Fits (manager : NetManagerInfo) (past : History) : Stage → Prop
  | .resting => past.attempt ≠ .running ∧
      (past.attempt = .completed → manager.mode ≠ NET_MODE_CONFIG)
  | .starting => past.attempt = .none
  | .listening => past.attempt ≠ .running
  | .serving => past.attempt ≠ .running ∧ manager.mode ≠ NET_MODE_STA
  | .connecting => past.attempt = .running ∧ manager.mode ≠ NET_MODE_STA ∧
      (past.fresh = false → manager.status = NET_STA_CONNECTTING)
  | .linked => past.attempt = .running ∧ manager.mode ≠ NET_MODE_STA ∧ past.lastCallback ≠ none
  | .failed => past.attempt = .running ∧ manager.mode ≠ NET_MODE_STA ∧
      (past.fresh = false → manager.status = NET_STA_NULL)
  | .connected => past.attempt = .running ∧ manager.mode ≠ NET_MODE_STA ∧
      past.lastCallback ≠ none ∧ (past.fresh = false → manager.status = NET_STA_CONNECTTED)

theorem fits_resting_of_unattempted {manager : NetManagerInfo} {past : History}
    (unattempted : past.attempt = .none) : Fits manager past .resting := by
  constructor
  · rw [unattempted]
    decide
  · intro completed
    rw [unattempted] at completed
    cases completed

theorem Fits.callback {manager next : NetManagerInfo} {past : History} {stage : Stage} {s : Int}
    (fits : Fits manager past stage)
    (mode : next.mode = manager.mode ∨ next.mode = NET_MODE_IDLE) :
    Fits next { past with lastCallback := some s, fresh := true } stage := by
  have kept {other : NET_MODE_TYPE} (busy : other ≠ NET_MODE_IDLE)
      (different : manager.mode ≠ other) : next.mode ≠ other := by
    rcases mode with same | idle
    · rw [same]
      exact different
    · rw [idle]
      exact busy.symm
  have called : some s ≠ none := Option.some_ne_none s
  cases stage with
  | resting => exact ⟨fits.1, fun completed => kept (by decide) (fits.2 completed)⟩
  | starting => exact fits
  | listening => exact fits
  | serving => exact ⟨fits.1, kept (by decide) fits.2⟩
  | connecting => exact ⟨fits.1, kept (by decide) fits.2.1, nofun⟩
  | linked => exact ⟨fits.1, kept (by decide) fits.2.1, called⟩
  | failed => exact ⟨fits.1, kept (by decide) fits.2.1, nofun⟩
  | connected => exact ⟨fits.1, kept (by decide) fits.2.1, called, nofun⟩

/-- A callback leaves the status as the link is until the task stores another. -/
structure Linked (cfg : NetCfg) (past : History) : Prop where
  known : past.lastCallback = none ∨ past.lastCallback = some 0 ∨ past.lastCallback = some 1
  fresh : past.fresh = true →
    (cfg.manager.status = NET_STA_CONNECTTED ↔ past.lastCallback = some 1)
  fits : Fits cfg.manager past cfg.pc.stage

theorem linked_start (nEventCallback : Bool) : Linked (NetCfgStart nEventCallback) (history []) where
  known := .inl rfl
  fresh stored := by cases stored
  fits := ⟨by decide, fun completed => by cases completed⟩

namespace Linked

variable {cfg next : NetCfg} {past : History}

theorem move (linked : Linked cfg past) (same : next.manager = cfg.manager)
    (fits : Fits cfg.manager past next.pc.stage) : Linked next past where
  known := linked.known
  fresh := by
    rw [same]
    exact linked.fresh
  fits := by
    rw [same]
    exact fits

theorem store (linked : Linked cfg past) {stored : NET_STA_TYPE}
    (fits : Fits { cfg.manager with status := stored } (past.record (.status stored))
      next.pc.stage)
    (same : next.manager = { cfg.manager with status := stored }) :
    Linked next (past.record (.status stored)) where
  known := linked.known
  fresh impossible := by cases impossible
  fits := by
    rw [same]
    exact fits

theorem complete (linked : Linked cfg past) (same : next.manager.status = cfg.manager.status)
    (listening : next.pc.stage = .listening) :
    Linked next { past with attempt := .completed } where
  known := linked.known
  fresh := by
    rw [same]
    exact linked.fresh
  fits := by
    rw [listening]
    exact fun running => by cases running

theorem callback (linked : Linked cfg past) {s : Int} (delivered : s = 0 ∨ s = 1)
    (same : next.manager = (cfg.manager.NetCfgConnectStatus s).1) (samePc : next.pc = cfg.pc) :
    Linked next { past with lastCallback := some s, fresh := true } := by
  rcases delivered with rfl | rfl
  · rw [NetCfgConnectStatus_disconnected] at same
    refine ⟨by simp, by simp [same], ?_⟩
    rw [samePc]
    exact linked.fits.callback (.inr (by rw [same]))
  · rw [NetCfgConnectStatus_connected] at same
    refine ⟨by simp, by simp [same], ?_⟩
    rw [samePc]
    exact linked.fits.callback (.inl (by rw [same]))

end Linked

theorem stage_of_resting {pc : Pc} (resting : pc.Resting) : pc.stage = .resting := by
  cases pc <;> first | rfl | exact False.elim resting

theorem Transition.linked {cfg next : NetCfg} {actions : List Action} {past : History}
    (transition : Transition cfg next actions) (linked : Linked cfg past) :
    Linked next (actions.foldl History.record past) := by
  have fits := linked.fits
  cases transition with
  | rest resting later =>
      rw [stage_of_resting resting] at fits
      exact linked.move rfl (by rwa [stage_of_resting later])
  | start resting config =>
      rw [stage_of_resting resting] at fits
      refine linked.move rfl ?_
      cases attempt : past.attempt with
      | none => exact attempt
      | running => exact absurd attempt fits.1
      | completed => exact absurd config (fits.2 attempt)
  | @notify site at_ =>
      rw [at_] at fits
      rw [foldl_notify fun _ _ => rfl]
      exact linked.move rfl (by cases site <;> exact fits)
  | @store site at_ =>
      rw [at_] at fits
      refine linked.store ?_ rfl
      cases site with
      | config => exact fits
      | configFail => exact fits_resting_of_unattempted fits
      | connectting => exact ⟨rfl, fits.2, fun _ => rfl⟩
      | connFailed => exact ⟨fits.1, fits.2.1, fun _ => rfl⟩
      | connectted => exact ⟨fits.1, fits.2.1, fits.2.2, fun _ => rfl⟩
  | startAp at_ => exact linked.move rfl (by rwa [at_] at fits)
  | apFailed at_ => exact linked.move rfl (by rwa [at_] at fits)
  | socketFailed at_ => exact linked.move rfl (by rwa [at_] at fits)
  | setupFailed at_ => exact linked.move rfl (by rwa [at_] at fits)
  | listen at_ =>
      rw [at_] at fits
      have resting : Fits cfg.manager past .resting := fits_resting_of_unattempted fits
      exact linked.move rfl resting.1
  | enter at_ config =>
      rw [at_] at fits
      exact linked.move rfl ⟨fits, by simp [config]⟩
  | leave at_ other =>
      rw [at_] at fits
      exact linked.move rfl ⟨fits, fun _ => other⟩
  | accept at_ =>
      rw [foldl_accepted fun _ _ => rfl]
      exact linked.move rfl (by rwa [at_] at fits)
  | receive at_ config => exact linked.move rfl (by rwa [at_] at fits)
  | interrupted at_ other =>
      rw [at_] at fits
      rw [List.foldl_cons, List.foldl_nil, record_unattempted fits.1]
      exact linked.move rfl fits.1
  | disconnected at_ =>
      rw [at_] at fits
      rw [List.foldl_cons, List.foldl_nil, record_unattempted fits.1]
      exact linked.move rfl fits.1
  | ignored at_ => exact linked.move rfl (by rwa [at_] at fits)
  | parsed at_ => exact linked.move rfl (by rwa [at_] at fits)
  | startSta at_ later =>
      rw [at_] at fits
      rcases later with rfl | rfl <;> exact linked.move rfl fits
  | connect at_ => exact linked.move rfl (by rwa [at_] at fits)
  | refused at_ => exact linked.move rfl (by rwa [at_] at fits)
  | connectted at_ seen =>
      -- The task has stored `NET_STA_CONNECTTING`, so a callback has come since.
      rw [at_] at fits
      obtain ⟨running, mode, stored⟩ := fits
      have fresh : past.fresh = true := by
        apply Bool.of_not_eq_false
        intro stale
        rw [stored stale] at seen
        cases seen
      refine linked.move rfl ⟨running, mode, ?_⟩
      rw [(linked.fresh fresh).mp seen]
      exact Option.some_ne_none 1
  | timeout at_ unseen => exact linked.move rfl (by rwa [at_] at fits)
  | wait at_ unseen => exact linked.move rfl (by rwa [at_] at fits)
  | stopSta at_ => exact linked.move rfl (by rwa [at_] at fits)
  | @reply result at_ =>
      rw [at_] at fits
      rw [foldl_reply (fun _ _ => rfl) fun _ => rfl]
      by_cases success : result = 0
      · subst result
        rw [record_succeeded]
        exact linked.move rfl fits
      · rw [Pc.stage, if_neg success] at fits
        rw [record_failed success fits.1]
        exact linked.complete rfl (if_neg success)
  | failed at_ failure =>
      rw [at_, Pc.stage, if_neg failure] at fits
      exact linked.move rfl fits
  | configured at_ => exact linked.move rfl (by rwa [at_] at fits)
  | setMode at_ => exact linked.complete rfl rfl
  | closeSocket at_ => exact linked.move rfl (by rwa [at_] at fits)

theorem linked_of_step {cfg next : NetCfg} {log actions : List Action} {input : Answer ⊕ Callback}
    (linked : Linked cfg (history log))
    (stepped : linkMachine.step cfg input = some (next, actions)) :
    Linked next (history (log ++ actions)) := by
  rw [history_append]
  rcases linkMachine_step_cases stepped with
    ⟨answer, rfl, transition⟩ | ⟨callback, rfl, rfl, rfl⟩
  · exact transition.linked linked
  · rw [List.foldl_cons, foldl_callback fun _ _ => rfl]
    exact linked.callback (by cases callback <;> simp [Callback.s]) rfl rfl

/-! ## Agreement -/

/-- After a completed attempt the status and the mode say what the last
callback said. -/
def Agrees (manager : NetManagerInfo) (past : History) : Prop :=
  past.attempt = .completed →
    (manager.status = NET_STA_CONNECTTED ↔ past.lastCallback = some 1) ∧
    (manager.mode = NET_MODE_STA → past.lastCallback = some 1)

/-- The link was not lost again when the task stores the mode, and at the end of
a failed attempt a link that is up came up after the task stored the status. -/
def Undisturbed (past : History) : Pc → Prop
  | .setMode => past.lastCallback ≠ some 0
  | .SendLocalIp result => result ≠ 0 → past.lastCallback = some 1 → past.fresh = true
  | _ => True

instance (past : History) (pc : Pc) : Decidable (Undisturbed past pc) := by
  unfold Undisturbed
  split <;> infer_instance

theorem undisturbed_of_resting {pc : Pc} (resting : pc.Resting) (past : History) :
    Undisturbed past pc := by
  cases pc <;> trivial

theorem agrees_of_uncompleted {manager : NetManagerInfo} {past : History}
    (uncompleted : past.attempt ≠ .completed) : Agrees manager past :=
  fun completed => absurd completed uncompleted

theorem agrees_of_running {manager : NetManagerInfo} {past : History}
    (running : past.attempt = .running) : Agrees manager past := by
  apply agrees_of_uncompleted
  rw [running]
  decide

namespace Linked

variable {cfg next : NetCfg} {past : History}

/-- When the task stores the mode, the status is right unless the link was lost. -/
theorem agrees_setMode_iff (linked : Linked cfg past) (at_ : cfg.pc = .setMode)
    (same : next.manager = { cfg.manager with mode := NET_MODE_STA }) :
    Agrees next.manager { past with attempt := .completed } ↔ past.lastCallback ≠ some 0 := by
  have fits := linked.fits
  rw [at_] at fits
  obtain ⟨-, -, called, stored⟩ := fits
  have up : past.lastCallback ≠ some 0 ↔ past.lastCallback = some 1 := by
    rcases linked.known with uncalled | down | up
    · exact absurd uncalled called
    · simp [down]
    · simp [up]
  have status : past.lastCallback = some 1 → cfg.manager.status = NET_STA_CONNECTTED := by
    intro connected
    cases fresh : past.fresh with
    | false => exact stored fresh
    | true => exact (linked.fresh fresh).mpr connected
  rw [up, Agrees, same]
  constructor
  · intro agrees
    exact (agrees rfl).2 rfl
  · intro connected _
    exact ⟨iff_of_true (status connected) connected, fun _ => connected⟩

/-- At the end of a failed attempt the status is `NET_STA_NULL` or what a later
callback made it. -/
theorem agrees_failed_iff (linked : Linked cfg past) {result : Int} (failure : result ≠ 0)
    (at_ : cfg.pc = .SendLocalIp result) (same : next.manager = cfg.manager) :
    Agrees next.manager { past with attempt := .completed } ↔
      (past.lastCallback = some 1 → past.fresh = true) := by
  have fits := linked.fits
  rw [at_, Pc.stage, if_neg failure] at fits
  obtain ⟨-, mode, stored⟩ := fits
  rw [Agrees, same]
  cases fresh : past.fresh with
  | true =>
      refine iff_of_true (fun _ => ⟨linked.fresh fresh, fun sta => absurd sta mode⟩) fun _ => rfl
  | false =>
      have status : cfg.manager.status ≠ NET_STA_CONNECTTED := by
        rw [stored fresh]
        decide
      constructor
      · intro agrees connected
        exact absurd ((agrees rfl).1.mpr connected) status
      · intro stale _
        have down : past.lastCallback ≠ some 1 := fun connected => by
          cases stale connected
        exact ⟨iff_of_false status down, fun sta => absurd sta mode⟩

end Linked

/-- Which steps of the task keep the agreement. -/
theorem Transition.agrees_iff {cfg next : NetCfg} {actions : List Action} {past : History}
    (transition : Transition cfg next actions) (linked : Linked cfg past)
    (agrees : Agrees cfg.manager past) :
    Agrees next.manager (actions.foldl History.record past) ↔ Undisturbed past cfg.pc := by
  have fits := linked.fits
  cases transition with
  | rest resting later => exact iff_of_true agrees (undisturbed_of_resting resting past)
  | start resting config => exact iff_of_true agrees (undisturbed_of_resting resting past)
  | @store site at_ =>
      rw [at_] at fits ⊢
      refine iff_of_true ?_ trivial
      have unattempted (idle : past.attempt = .none) : past.attempt ≠ .completed := by
        rw [idle]
        decide
      cases site with
      | config => exact agrees_of_uncompleted (unattempted fits)
      | configFail => exact agrees_of_uncompleted (unattempted fits)
      | connectting => exact agrees_of_running rfl
      | connFailed => exact agrees_of_running fits.1
      | connectted => exact agrees_of_running fits.1
  | interrupted at_ other =>
      rw [at_] at fits ⊢
      rw [List.foldl_cons, List.foldl_nil, record_unattempted fits.1]
      exact iff_of_true agrees trivial
  | disconnected at_ =>
      rw [at_] at fits ⊢
      rw [List.foldl_cons, List.foldl_nil, record_unattempted fits.1]
      exact iff_of_true agrees trivial
  | @reply result at_ =>
      rw [at_] at fits ⊢
      rw [foldl_reply (fun _ _ => rfl) fun _ => rfl]
      by_cases success : result = 0
      · subst result
        exact iff_of_true (agrees_of_running fits.1) fun failure => absurd rfl failure
      · rw [Pc.stage, if_neg success] at fits
        rw [record_failed success fits.1]
        refine (linked.agrees_failed_iff success at_ rfl).trans ?_
        exact ⟨fun stale _ => stale, fun stale => stale success⟩
  | setMode at_ =>
      rw [at_]
      exact linked.agrees_setMode_iff at_ rfl
  | notify at_ =>
      rw [at_, foldl_notify fun _ _ => rfl]
      exact iff_of_true agrees trivial
  | accept at_ =>
      rw [at_, foldl_accepted fun _ _ => rfl]
      exact iff_of_true agrees trivial
  | failed at_ failure => exact iff_of_true agrees (by rw [at_]; trivial)
  | _ => exact iff_of_true agrees (by simp [Undisturbed, *])

theorem agrees_callback {manager : NetManagerInfo} {s : Int} (delivered : s = 0 ∨ s = 1)
    (past : History) :
    Agrees (manager.NetCfgConnectStatus s).1 { past with lastCallback := some s, fresh := true } := by
  intro completed
  rcases delivered with rfl | rfl
  · rw [NetCfgConnectStatus_disconnected]
    exact ⟨by simp, fun sta => by cases sta⟩
  · rw [NetCfgConnectStatus_connected]
    exact ⟨by simp, fun sta => rfl⟩

def AgreesWithLink (cfg : NetCfg) (log : List Action) : Prop := Agrees cfg.manager (history log)

def StepUndisturbed (cfg : NetCfg) (log : List Action) (input : Answer ⊕ Callback) : Prop :=
  input.isLeft = true → Undisturbed (history log) cfg.pc

instance (cfg : NetCfg) (log : List Action) (input : Answer ⊕ Callback) :
    Decidable (StepUndisturbed cfg log input) := by
  unfold StepUndisturbed
  infer_instance

/-- After every completed attempt of a run the state of the manager agrees with
the link exactly if the run is undisturbed wherever the task completes an
attempt. -/
theorem link_agrees_iff {nEventCallback : Bool} {inputs : List (Answer ⊕ Callback)}
    {cfg : NetCfg} {log : List Action}
    (run : linkMachine.Run (NetCfgStart nEventCallback) inputs cfg log) :
    linkMachine.Throughout AgreesWithLink (NetCfgStart nEventCallback) inputs ↔
      linkMachine.Meets StepUndisturbed (NetCfgStart nEventCallback) inputs := by
  refine run.throughout_iff_meets (fun cfg log => Linked cfg (history log)) ?_ ?_ ?_
  · exact ⟨linked_start nEventCallback, agrees_of_uncompleted (by decide)⟩
  · intro cfg log input next emitted linked stepped
    exact linked_of_step linked stepped
  · intro cfg log input next emitted linked agrees stepped
    rw [AgreesWithLink, history_append]
    cases linkMachine_step_cases stepped with
    | inl moved =>
        obtain ⟨answer, rfl, transition⟩ := moved
        exact (transition.agrees_iff linked agrees).trans ⟨fun kept _ => kept, fun kept => kept rfl⟩
    | inr called =>
        obtain ⟨callback, rfl, rfl, rfl⟩ := called
        rw [List.foldl_cons, foldl_callback fun _ _ => rfl]
        refine iff_of_true (agrees_callback ?_ _) fun left => by cases left
        cases callback with
        | disconnected => exact .inl rfl
        | connected => exact .inr rfl

def completion : List (Answer ⊕ Callback) := List.replicate 5 (.inl .proceed)

def steadyAttempt : List (Answer ⊕ Callback) :=
  firstAttempt.map .inl ++ [.inr .connected, .inl .proceed] ++ completion

theorem link_agrees_steady :
    ∃ cfg log, linkMachine.Run (NetCfgStart true) steadyAttempt cfg log ∧
      cfg.manager.mode = NET_MODE_STA ∧
      linkMachine.Throughout AgreesWithLink (NetCfgStart true) steadyAttempt := by
  obtain ⟨cfg, log, run, seen⟩ := linkMachine.exists_run_of_exec (fun result => result.1.manager.mode)
    (NetCfgStart true) steadyAttempt NET_MODE_STA (by decide +kernel)
  refine ⟨cfg, log, run, seen, (link_agrees_iff run).mpr ?_⟩
  exact Machine.meets_of_meetsFrom (fun cfg log input => decide (StepUndisturbed cfg log input))
    (fun _ _ _ passed => of_decide_eq_true passed) (by decide +kernel)

/-- A disconnect between the poll and the store of the status is lost: the
manager stays connected in station mode. -/
theorem disconnect_overwritten :
    ∃ cfg log, linkMachine.Run (NetCfgStart true)
        (firstAttempt.map .inl ++ [.inr .connected, .inl .proceed, .inr .disconnected] ++
          completion) cfg log ∧
      (history log).attempt = .completed ∧ (history log).lastCallback = some 0 ∧
      cfg.manager.status = NET_STA_CONNECTTED ∧ cfg.manager.mode = NET_MODE_STA ∧
      ¬AgreesWithLink cfg log := by
  obtain ⟨cfg, log, run, seen⟩ := linkMachine.exists_run_of_exec
    (fun result => (history result.2, result.1.manager.status, result.1.manager.mode))
    (NetCfgStart true)
    (firstAttempt.map .inl ++ [.inr .connected, .inl .proceed, .inr .disconnected] ++ completion)
    (⟨.completed, some 0, false⟩, NET_STA_CONNECTTED, NET_MODE_STA) (by decide +kernel)
  simp only [Prod.mk.injEq] at seen
  obtain ⟨past, status, mode⟩ := seen
  refine ⟨cfg, log, run, by rw [past], by rw [past], status, mode, fun agrees => ?_⟩
  have connected := (agrees (by rw [past])).2 mode
  rw [past] at connected
  cases connected

end WifiIot.NetConfig
