import WifiIot.NetConfig.Provisioning

/-!
# What provisioning leaves behind

`NetCfgStartConfig` starts the soft AP and `NetCfgSocket` opens the listening
socket and the sockets of the clients.  Every socket is closed on the way out.
The soft AP is stopped only after the accept loop: an error in `socket`, `bind`
or `listen` returns past `SoftApStop`.
-/

namespace WifiIot.NetConfig

def opens (fd : Int) (log : List Action) : Nat := log.count (.socket fd) + log.count (.accept fd)

def closes (fd : Int) (log : List Action) : Nat := log.count (.close fd)

@[simp]
theorem opens_append (fd : Int) (log actions : List Action) :
    opens fd (log ++ actions) = opens fd log + opens fd actions := by
  simp only [opens, List.count_append]
  omega

@[simp]
theorem closes_append (fd : Int) (log actions : List Action) :
    closes fd (log ++ actions) = closes fd log + closes fd actions :=
  List.count_append

def Pc.listening : Pc → Bool
  | .NetCfgTask | .sameMode | .newMode | .loadMode | .exited | .notify .config | .store .config
  | .notify .configFail | .store .configFail | .SoftApStart | .socket => false
  | _ => true

def Pc.serving : Pc → Bool
  | .NetCfgSocket | .accept | .setMode | .closeSocket => false
  | pc => pc.listening

def NetCfg.inHand (cfg : NetCfg) : List Int :=
  (if cfg.pc.listening then [cfg.sockfd] else []) ++ if cfg.pc.serving then [cfg.newfd] else []

/-- Every descriptor that was opened is closed or in hand. -/
def Accounted (cfg : NetCfg) (log : List Action) : Prop :=
  ∀ fd, 0 ≤ fd → opens fd log = closes fd log + cfg.inHand.count fd

theorem inHand_of_resting {cfg : NetCfg} (resting : cfg.pc.Resting) : cfg.inHand = [] := by
  unfold NetCfg.inHand
  cases at_ : cfg.pc <;> rw [at_] at resting <;> first | rfl | exact resting.elim

/-- What a step opens comes into its hands, and what leaves them is closed. -/
theorem Accounted.step {cfg next : NetCfg} {log actions : List Action}
    (accounted : Accounted cfg log)
    (balance : ∀ fd, 0 ≤ fd →
      opens fd actions + cfg.inHand.count fd = closes fd actions + next.inHand.count fd) :
    Accounted next (log ++ actions) := by
  intro fd valid
  have before := accounted fd valid
  have now := balance fd valid
  rw [opens_append, closes_append]
  omega

theorem Accounted.move {cfg next : NetCfg} {log actions : List Action}
    (accounted : Accounted cfg log) (same : next.inHand = cfg.inHand)
    (silent : ∀ fd, opens fd actions = 0 ∧ closes fd actions = 0) :
    Accounted next (log ++ actions) := by
  apply accounted.step
  intro fd _
  rw [(silent fd).1, (silent fd).2, same]

theorem Transition.accounted {cfg next : NetCfg} {log actions : List Action}
    (transition : Transition cfg next actions) (accounted : Accounted cfg log) :
    Accounted next (log ++ actions) := by
  cases transition with
  | rest resting later =>
      refine accounted.move ?_ fun fd => ⟨rfl, rfl⟩
      rw [inHand_of_resting resting]
      exact inHand_of_resting later
  | start resting config =>
      refine accounted.move ?_ fun fd => ⟨rfl, rfl⟩
      rw [inHand_of_resting resting]
      rfl
  | @notify site at_ =>
      refine accounted.move ?_ fun fd => ?_
      · cases site <;> simp [NetCfg.inHand, at_, Pc.listening, Pc.serving]
      · unfold NetManagerInfo.notify
        split <;> exact ⟨rfl, rfl⟩
  | @store site at_ =>
      refine accounted.move ?_ fun fd => ⟨rfl, rfl⟩
      cases site <;> simp [NetCfg.inHand, at_, Site.next, Pc.listening, Pc.serving]
  | startSta at_ later =>
      refine accounted.move ?_ fun fd => ⟨rfl, rfl⟩
      rcases later with rfl | rfl <;> simp [NetCfg.inHand, at_, Pc.listening, Pc.serving]
  | @reply result at_ =>
      refine accounted.move ?_ fun fd => ?_
      · simp [NetCfg.inHand, at_, Pc.listening, Pc.serving]
      · unfold NetConfig.reply
        split <;> exact ⟨rfl, rfl⟩
  | @setupFailed sockfd at_ =>
      apply accounted.step
      intro fd _
      simp [opens, closes, NetCfg.inHand, at_, Pc.listening, Pc.serving, List.count_cons]
  | @listen sockfd at_ =>
      apply accounted.step
      intro fd _
      simp [opens, closes, NetCfg.inHand, at_, Pc.listening, Pc.serving, List.count_cons]
  | @accept newfd at_ =>
      apply accounted.step
      intro fd valid
      -- What a failed `accept` returns is no descriptor.
      by_cases failed : newfd < 0
      · have other : newfd ≠ fd := by omega
        simp [opens, closes, NetCfg.inHand, at_, Pc.listening, Pc.serving, accepted, failed, other,
          List.count_cons]
      · simp [opens, closes, NetCfg.inHand, at_, Pc.listening, Pc.serving, accepted, failed,
          List.count_cons]
  | failed at_ failure =>
      apply accounted.step
      intro fd _
      simp [opens, closes, NetCfg.inHand, at_, Pc.listening, Pc.serving, List.count_cons,
        Nat.add_comm]
  | configured at_ =>
      apply accounted.step
      intro fd _
      simp [opens, closes, NetCfg.inHand, at_, Pc.listening, Pc.serving, List.count_cons,
        Nat.add_comm]
  | closeSocket at_ =>
      apply accounted.step
      intro fd _
      simp [opens, closes, NetCfg.inHand, at_, Pc.listening, Pc.serving, List.count_cons]
  | _ =>
      refine accounted.move ?_ fun fd => ⟨rfl, rfl⟩
      simp [NetCfg.inHand, *, Pc.listening, Pc.serving]

theorem Event.accounted {cfg next : NetCfg} {log reported : List Action} {state : Int}
    (event : Event cfg state next reported) (accounted : Accounted cfg log) :
    Accounted next (log ++ .WifiConnectionChangedHandler state :: reported) := by
  have silent (manager : NetManagerInfo) (fd : Int) :
      opens fd (manager.NetCfgConnectStatus state).2 = 0 ∧
        closes fd (manager.NetCfgConnectStatus state).2 = 0 := by
    unfold NetManagerInfo.NetCfgConnectStatus NetManagerInfo.notify
    repeat' split
    all_goals exact ⟨rfl, rfl⟩
  cases event with
  | swallowed loss left => exact accounted.move rfl fun fd => ⟨rfl, rfl⟩
  | unheard unset spent => exact accounted.move rfl fun fd => ⟨rfl, rfl⟩
  | reported wifiChange spent =>
      refine accounted.move rfl fun fd => ?_
      have quiet := silent cfg.manager fd
      simpa [opens, closes] using quiet

theorem accounted_start (nEventCallback : Bool) : Accounted (NetCfgStart nEventCallback) [] :=
  fun _ _ => rfl

theorem accounted_of_step {cfg next : NetCfg} {log actions : List Action} {input : Answer ⊕ Int}
    (accounted : Accounted cfg log)
    (stepped : wifiMachine.step cfg input = some (next, actions)) :
    Accounted next (log ++ actions) := by
  cases wifiMachine_step_cases stepped with
  | inl moved =>
      obtain ⟨answer, rfl, transition⟩ := moved
      exact transition.accounted accounted
  | inr happened =>
      obtain ⟨state, reported, rfl, event, rfl⟩ := happened
      exact event.accounted accounted

/-! ## The soft AP -/

/-- No descriptor is closed twice; and outside `NetCfgStartConfig` the soft AP
that it started is stopped, and every socket is closed. -/
def Released (cfg : NetCfg) (log : List Action) : Prop :=
  (∀ fd, 0 ≤ fd → closes fd log ≤ opens fd log) ∧
    (cfg.pc.Resting → cfg.hotspotActive = false ∧ ∀ fd, 0 ≤ fd → opens fd log = closes fd log)

/-- Once the soft AP is up, `socket`, `bind` and `listen` succeed. -/
def SocketSucceeds (_ : NetCfg) (_ : List Action) : Answer ⊕ Int → Prop
  | .inl (.socket sockfd setup) => 0 ≤ sockfd ∧ setup = true
  | _ => True

def Up (cfg : NetCfg) : Prop := cfg.pc = .socket → cfg.hotspotActive = true

/-- The soft AP is up only as long as `NetCfgSocket` has not returned. -/
def Contained (cfg : NetCfg) : Prop :=
  cfg.hotspotActive = true → cfg.pc = .socket ∨ cfg.pc.listening = true

/-- `NetCfgSocket` has failed and the soft AP is still up. -/
def Escaped (cfg : NetCfg) : Prop :=
  cfg.hotspotActive = true ∧ (cfg.pc = .notify .configFail ∨ cfg.pc = .store .configFail)

theorem released_iff {cfg : NetCfg} {log : List Action} (accounted : Accounted cfg log) :
    Released cfg log ↔ (cfg.pc.Resting → cfg.hotspotActive = false) := by
  constructor
  · intro released resting
    exact (released.2 resting).1
  · intro stopped
    constructor
    · intro fd valid
      rw [accounted fd valid]
      exact Nat.le_add_right _ _
    · intro resting
      refine ⟨stopped resting, fun fd valid => ?_⟩
      rw [accounted fd valid, inHand_of_resting resting, List.count_nil, Nat.add_zero]

theorem socket_cases {cfg next : NetCfg} {actions : List Action} {answer : Answer}
    (log : List Action) (at_ : cfg.pc = .socket) (stepped : taskStep cfg answer = some (next, actions)) :
    next.hotspotActive = cfg.hotspotActive ∧
      (SocketSucceeds cfg log (.inl answer) ∧ next.pc = .NetCfgSocket ∨
        ¬SocketSucceeds cfg log (.inl answer) ∧ next.pc = .notify .configFail) := by
  rw [taskStep, at_] at stepped
  simp only [NetCfgSocket, at_] at stepped
  cases answer with
  | socket sockfd setup =>
      simp only at stepped
      split at stepped
      · rename_i failed
        cases stepped
        exact ⟨rfl, .inr ⟨fun succeeds => absurd succeeds.1 (Int.not_le.mpr failed), rfl⟩⟩
      · rename_i opened
        split at stepped
        · rename_i failed
          cases stepped
          exact ⟨rfl, .inr ⟨fun succeeds => by simp [succeeds.2] at failed, rfl⟩⟩
        · rename_i ready
          cases stepped
          exact ⟨rfl, .inl ⟨⟨Int.not_lt.mp opened, eq_true_of_ne_false ready⟩, rfl⟩⟩
  | _ => cases stepped

theorem socketSucceeds_of_ne {cfg next : NetCfg} {log actions : List Action} {answer : Answer}
    (elsewhere : cfg.pc ≠ .socket) (stepped : taskStep cfg answer = some (next, actions)) :
    SocketSucceeds cfg log (.inl answer) := by
  cases answer with
  | socket sockfd setup =>
      exfalso
      cases at_ : cfg.pc <;>
        simp_all [taskStep, NetCfgTask, SET_NET_EVENT, NetCfgStartConfig, NetCfgSocket,
          NetCfgGetSocketValue, NetCfgConnect]
  | _ => trivial

theorem Transition.up {cfg next : NetCfg} {actions : List Action}
    (transition : Transition cfg next actions) : Up next := by
  intro at_
  cases transition with
  | startAp start => rfl
  | rest resting later =>
      exact absurd at_ (later.ne_of_not_resting id)
  | @store site there => cases site <;> cases at_
  | startSta there later => rcases later with rfl | rfl <;> cases at_
  | _ => cases at_

theorem not_live_of_resting {pc : Pc} (resting : pc.Resting) :
    ¬(pc = .socket ∨ pc.listening = true) := by
  cases pc <;> simp_all [Pc.Resting, Pc.listening]

theorem Transition.contained {cfg next : NetCfg} {actions : List Action}
    (transition : Transition cfg next actions) (contained : Contained cfg)
    (succeeds : cfg.pc = .socket → next.pc = .NetCfgSocket) : Contained next := by
  intro up
  cases transition with
  | rest resting later => exact absurd (contained up) (not_live_of_resting resting)
  | start resting config => exact absurd (contained up) (not_live_of_resting resting)
  | @notify site at_ =>
      have live := contained up
      cases site <;> simp_all [Pc.listening]
  | @store site at_ =>
      have live := contained up
      cases site <;> simp_all [Pc.listening, Site.next]
  | startAp at_ => exact .inl rfl
  | apFailed at_ =>
      have live := contained up
      simp_all [Pc.listening]
  | socketFailed at_ => cases succeeds at_
  | setupFailed at_ => cases succeeds at_
  | startSta at_ later => rcases later with rfl | rfl <;> exact .inr rfl
  | closeSocket at_ => cases up
  | _ => exact .inr rfl

theorem frame_of_event {cfg next : NetCfg} {actions : List Action} {state : Int}
    (stepped : wifiMachine.step cfg (.inr state) = some (next, actions)) :
    next.pc = cfg.pc ∧ next.hotspotActive = cfg.hotspotActive := by
  rcases wifiMachine_step_cases stepped with ⟨answer, impossible, _⟩ | happened
  · cases impossible
  · obtain ⟨_, reported, _, event, _⟩ := happened
    obtain ⟨samePc, sameHotspot, -⟩ := event.frame
    exact ⟨samePc, sameHotspot⟩

theorem contained_of_step {cfg next : NetCfg} {log actions : List Action} {input : Answer ⊕ Int}
    (contained : Contained cfg) (succeeds : SocketSucceeds cfg log input)
    (stepped : wifiMachine.step cfg input = some (next, actions)) : Contained next := by
  cases input with
  | inl answer =>
      refine (taskStep_transition stepped).contained contained fun at_ => ?_
      rcases (socket_cases log at_ stepped).2 with ⟨_, left⟩ | ⟨failed, _⟩
      · exact left
      · exact absurd succeeds failed
  | inr state =>
      obtain ⟨samePc, sameHotspot⟩ := frame_of_event stepped
      unfold Contained
      rw [samePc, sameHotspot]
      exact contained

theorem up_of_step {cfg next : NetCfg} {actions : List Action} {input : Answer ⊕ Int}
    (up : Up cfg) (stepped : wifiMachine.step cfg input = some (next, actions)) : Up next := by
  cases input with
  | inl answer => exact (taskStep_transition stepped).up
  | inr state =>
      obtain ⟨samePc, sameHotspot⟩ := frame_of_event stepped
      unfold Up
      rw [samePc, sameHotspot]
      exact up

/-- After the failure the function returns, and the soft AP stays up. -/
theorem Escaped.step {cfg next : NetCfg} {actions : List Action} {input : Answer ⊕ Int}
    (escaped : Escaped cfg) (log : List Action)
    (stepped : wifiMachine.step cfg input = some (next, actions)) :
    Escaped next ∨ ¬Released next (log ++ actions) := by
  obtain ⟨up, at_⟩ := escaped
  cases input with
  | inl answer =>
      change taskStep cfg answer = _ at stepped
      cases answer with
      | proceed =>
          rcases at_ with notifying | storing
          · rw [taskStep, notifying] at stepped
            simp only [SET_NET_EVENT, notifying] at stepped
            cases stepped
            exact .inl ⟨up, .inr rfl⟩
          · rw [taskStep, storing] at stepped
            simp only [SET_NET_EVENT, storing] at stepped
            cases stepped
            refine .inr fun released => ?_
            exact absurd (up.symm.trans (released.2 trivial).1) (by decide)
      | _ =>
          rcases at_ with at_ | at_ <;> rw [taskStep, at_] at stepped <;> cases stepped
  | inr state =>
      obtain ⟨samePc, sameHotspot⟩ := frame_of_event stepped
      refine .inl ?_
      unfold Escaped
      rw [samePc, sameHotspot]
      exact ⟨up, at_⟩

section Runs

variable {nEventCallback : Bool} {inputs : List (Answer ⊕ Int)} {cfg : NetCfg} {log : List Action}

theorem released_throughout (met : wifiMachine.Meets SocketSucceeds (NetCfgStart nEventCallback) inputs) :
    wifiMachine.Throughout Released (NetCfgStart nEventCallback) inputs := by
  have held : wifiMachine.Throughout (fun cfg log => Accounted cfg log ∧ Contained cfg)
      (NetCfgStart nEventCallback) inputs := by
    refine Machine.throughout_of_meets ?_ ?_ met
    · exact ⟨accounted_start nEventCallback, fun up => by cases up⟩
    · rintro cfg log input next emitted ⟨accounted, contained⟩ succeeds stepped
      exact ⟨accounted_of_step accounted stepped, contained_of_step contained succeeds stepped⟩
  refine held.imp fun cfg log holds => (released_iff holds.1).mpr fun resting => ?_
  by_contra up
  exact not_live_of_resting resting (holds.2 (eq_true_of_ne_false up))

/-- A run either meets the condition, or has lost the property, or is about to. -/
theorem meets_or_escaped (run : wifiMachine.Run (NetCfgStart nEventCallback) inputs cfg log) :
    wifiMachine.Meets SocketSucceeds (NetCfgStart nEventCallback) inputs ∨
      ¬wifiMachine.Throughout Released (NetCfgStart nEventCallback) inputs ∨ Escaped cfg := by
  induction run with
  | refl => exact .inl (Machine.meets_nil _)
  | @snoc inputs cfg log input next emitted before stepped inductionHypothesis =>
      rw [Machine.throughout_snoc_iff (.snoc before stepped), Machine.meets_snoc_iff before]
      rcases inductionHypothesis with met | lost | escaped
      · cases input with
        | inr state => exact .inl ⟨met, trivial⟩
        | inl answer =>
            by_cases at_ : cfg.pc = .socket
            · have up : Up cfg := before.invariant (fun cfg _ => Up cfg) (fun at_ => by cases at_)
                fun _ _ _ _ _ up stepped => up_of_step up stepped
              obtain ⟨sameHotspot, outcome⟩ := socket_cases log at_ stepped
              rcases outcome with ⟨succeeds, _⟩ | ⟨_, failed⟩
              · exact .inl ⟨met, succeeds⟩
              · exact .inr (.inr ⟨sameHotspot.trans (up at_), .inl failed⟩)
            · exact .inl ⟨met, socketSucceeds_of_ne at_ stepped⟩
      · exact .inr (.inl fun throughout => lost throughout.1)
      · rcases escaped.step log stepped with still | leaked
        · exact .inr (.inr still)
        · exact .inr (.inl fun throughout => leaked throughout.2)

/-- Provisioning releases what it started in every run in which the listening
socket is set up whenever the soft AP is; and a run in which it is not, and
that ends outside `NetCfgStartConfig`, has left the soft AP up. -/
theorem provisioning_released_iff
    (run : wifiMachine.Run (NetCfgStart nEventCallback) inputs cfg log) :
    (wifiMachine.Meets SocketSucceeds (NetCfgStart nEventCallback) inputs →
      wifiMachine.Throughout Released (NetCfgStart nEventCallback) inputs) ∧
    (cfg.pc.Resting → wifiMachine.Throughout Released (NetCfgStart nEventCallback) inputs →
      wifiMachine.Meets SocketSucceeds (NetCfgStart nEventCallback) inputs) := by
  refine ⟨released_throughout, fun resting throughout => ?_⟩
  rcases meets_or_escaped run with met | lost | escaped
  · exact met
  · exact absurd throughout lost
  · rcases escaped.2 with at_ | at_ <;> rw [at_] at resting <;> exact resting.elim

end Runs

/-- A client that configures the device, up to the return of `NetCfgStartConfig`. -/
def configured : List (Answer ⊕ Int) :=
  firstAttempt.map .inl ++ [.inr WIFI_STATE_AVALIABLE] ++ List.replicate 8 (.inl .proceed)

theorem provisioning_released_configured :
    ∃ cfg log, wifiMachine.Run (NetCfgStart true) configured cfg log ∧ cfg.pc.Resting ∧
      wifiMachine.Throughout Released (NetCfgStart true) configured := by
  obtain ⟨cfg, log, run, seen⟩ := wifiMachine.exists_run_of_exec (fun result => result.1.pc)
    (NetCfgStart true) configured .NetCfgTask (by decide +kernel)
  refine ⟨cfg, log, run, by rw [show cfg.pc = _ from seen]; trivial,
    (provisioning_released_iff run).1 ?_⟩
  intro before input after equality cfg log _
  cases input with
  | inr state => trivial
  | inl answer =>
      cases answer with
      | socket sockfd setup =>
          have membership : Sum.inl (.socket sockfd setup) ∈ configured := by simp [equality]
          have same : sockfd = 3 ∧ setup = true := by
            simpa [configured, firstAttempt] using membership
          rw [same.1, same.2]
          exact ⟨by decide, rfl⟩
      | _ => trivial

/-- `bind` fails; the soft AP is up when `NetCfgStartConfig` has returned. -/
theorem soft_ap_left_up :
    ∃ cfg log, wifiMachine.Run (NetCfgStart true)
        (List.replicate 6 (.inl .proceed) ++ [.inl (.SoftApStart true), .inl (.socket 3 false)] ++
          List.replicate 2 (.inl .proceed)) cfg log ∧
      cfg.pc = .NetCfgTask ∧ cfg.hotspotActive = true ∧ ¬Released cfg log := by
  obtain ⟨cfg, log, run, seen⟩ := wifiMachine.exists_run_of_exec
    (fun result => (result.1.pc, result.1.hotspotActive)) (NetCfgStart true)
    (List.replicate 6 (.inl .proceed) ++ [.inl (.SoftApStart true), .inl (.socket 3 false)] ++
      List.replicate 2 (.inl .proceed)) (.NetCfgTask, true) (by decide +kernel)
  obtain ⟨rest, up⟩ := Prod.mk.inj seen
  refine ⟨cfg, log, run, rest, up, fun released => ?_⟩
  have stopped := (released.2 (by rw [rest]; trivial)).1
  exact absurd (stopped.symm.trans up) (by decide)

end WifiIot.NetConfig
