import Mathlib.Data.Finset.Card
import WifiIot.Machine.Throughout

/-!
# The socket of the MQTT wrapper

`NetworkConnect` stores the new descriptor in `network.socket` before it knows
whether `connect` succeeds, and nobody closes it after a failure; only a
disconnect packet that was sent leads to `lwip_close`.

Source: `mqtt_demo/mqtt_task.c`, `NetworkConnect` and `NetworkDisconnect` of
`paho_mqtt/MQTTClient-C/src/ohos/mqtt_ohos_cmsis.c`, and the session of
`paho_mqtt/MQTTClient-C/src/MQTTClient.c`.
-/

namespace WifiIot.Mqtt.Socket

def SUCCESS : Int := 0
def FAILURE : Int := -1

/-- `network.socket`, `client.isconnected`, and the descriptors that the wrapper
has opened and not closed. -/
structure Wrapper where
  opened : Finset Int
  socket : Int
  isconnected : Bool
  deriving DecidableEq

inductive Action where
  | socket (socket : Int)
  | lwip_close (socket : Int)
  | CONNACK (socket : Int)
  | MqttTaskConnect (rc : Int)
  deriving DecidableEq

/-- What a connect depends on: whether the name lookup gives an IPv4 address,
what `socket` returns, whether `connect` and the send of the packet succeed,
and the code of the CONNACK, if there is one. -/
structure Outcome where
  getaddrinfo : Bool
  socket : Int
  connect : Bool
  sendPacket : Bool
  connack : Option Nat
  deriving DecidableEq

/-- `socket` fails or returns a descriptor that is not open. -/
def Outcome.Possible (outcome : Outcome) (wrapper : Wrapper) : Prop :=
  outcome.socket = -1 ∨ 0 ≤ outcome.socket ∧ outcome.socket ∉ wrapper.opened

instance (outcome : Outcome) (wrapper : Wrapper) : Decidable (outcome.Possible wrapper) := by
  unfold Outcome.Possible
  infer_instance

def NetworkConnect (wrapper : Wrapper) (outcome : Outcome) : Wrapper × Int × List Action :=
  if outcome.getaddrinfo = false then (wrapper, -1, [])
  else if outcome.socket = -1 then ({ wrapper with socket := -1 }, -1, [])
  else
    ({ wrapper with
      opened := insert outcome.socket wrapper.opened
      socket := outcome.socket },
      if outcome.connect then 0 else -1, [.socket outcome.socket])

/-- No packet is sent when the session is connected already. -/
def MQTTConnect (wrapper : Wrapper) (outcome : Outcome) : Wrapper × Int × List Action :=
  if wrapper.isconnected then (wrapper, FAILURE, [])
  else if outcome.sendPacket = false then (wrapper, FAILURE, [])
  else
    match outcome.connack with
    | none => (wrapper, FAILURE, [])
    | some code =>
        if (code : Int) = SUCCESS then
          ({ wrapper with isconnected := true }, SUCCESS, [.CONNACK wrapper.socket])
        else (wrapper, code, [])

def MqttTaskConnect (wrapper : Wrapper) (outcome : Outcome) : Wrapper × List Action :=
  let (network, rc, actions) := NetworkConnect wrapper outcome
  if rc ≠ 0 then (network, actions ++ [.MqttTaskConnect (-1)])
  else
    let (client, rc, received) := MQTTConnect network outcome
    if rc ≠ 0 then (client, actions ++ received ++ [.MqttTaskConnect (-1)])
    else (client, actions ++ received ++ [.MqttTaskConnect 0])

/-- The session is closed whether or not the packet is sent. -/
def MQTTDisconnect (wrapper : Wrapper) (sendPacket : Bool) : Wrapper × Int :=
  ({ wrapper with isconnected := false }, if sendPacket then SUCCESS else FAILURE)

def NetworkDisconnect (wrapper : Wrapper) : Wrapper × List Action :=
  ({ wrapper with opened := wrapper.opened.erase wrapper.socket }, [.lwip_close wrapper.socket])

def MqttTaskDisconnect (wrapper : Wrapper) (sendPacket : Bool) : Wrapper × List Action :=
  let (client, rc) := MQTTDisconnect wrapper sendPacket
  if rc ≠ 0 then (client, []) else NetworkDisconnect client

/-- The task yields only while the session is connected; a cycle that fails
closes the session. -/
def MqttTask (wrapper : Wrapper) (cycle : Bool) : Wrapper :=
  if wrapper.isconnected ∧ cycle = false then { wrapper with isconnected := false } else wrapper

inductive Call where
  | MqttTaskConnect (outcome : Outcome)
  | MqttTaskDisconnect (sendPacket : Bool)
  | MQTTYield (cycle : Bool)
  deriving DecidableEq

def step (wrapper : Wrapper) : Call → Option (Wrapper × List Action)
  | .MqttTaskConnect outcome =>
      if outcome.Possible wrapper then some (MqttTaskConnect wrapper outcome) else none
  | .MqttTaskDisconnect sendPacket => some (MqttTaskDisconnect wrapper sendPacket)
  | .MQTTYield cycle => some (MqttTask wrapper cycle, [])

def machine : Machine Wrapper Call Action := ⟨step⟩

def MqttTaskInit : Wrapper where
  opened := ∅
  socket := -1
  isconnected := false

/-! ## The law -/

/-- The socket on which the last accepting CONNACK came. -/
def accepting (log : List Action) : Option Int :=
  log.foldl
    (fun last action =>
      match action with
      | .CONNACK socket => some socket
      | _ => last) none

/-- At most one socket is open, and a connected session uses the socket that
was accepted. -/
structure Owned (wrapper : Wrapper) (log : List Action) : Prop where
  single : wrapper.opened.card ≤ 1
  session : wrapper.isconnected = true → accepting log = some wrapper.socket

/-- A connect that returns -1 changes nothing. -/
def FailureKeeps (wrapper : Wrapper) (_log : List Action) (call : Call) : Prop :=
  ∀ next actions, step wrapper call = some (next, actions) →
    .MqttTaskConnect (-1) ∈ actions → next = wrapper

/-- A connect fails before it changes anything, or succeeds while no socket is open. -/
def Clean (wrapper : Wrapper) (_log : List Action) : Call → Prop
  | .MqttTaskConnect outcome =>
      outcome.getaddrinfo = false ∨
        (outcome.socket = -1 ∧ wrapper.socket = -1) ∨
        (outcome.socket ≠ -1 ∧ outcome.connect = true ∧ outcome.sendPacket = true ∧
          outcome.connack = some 0 ∧ wrapper.opened = ∅)
  | _ => True

instance (wrapper : Wrapper) (log : List Action) (call : Call) :
    Decidable (Clean wrapper log call) := by
  unfold Clean
  split <;> infer_instance

/-! ## What a connect can do -/

/-- The client is not connected, and gets a CONNACK with code 0. -/
structure Accepted (wrapper : Wrapper) (outcome : Outcome) : Prop where
  fresh : wrapper.isconnected = false
  sent : outcome.sendPacket = true
  connack : outcome.connack = some 0

theorem MQTTConnect_accepted {wrapper : Wrapper} {outcome : Outcome}
    (accepted : Accepted wrapper outcome) :
    MQTTConnect wrapper outcome =
      ({ wrapper with isconnected := true }, 0, [.CONNACK wrapper.socket]) := by
  simp [MQTTConnect, accepted.fresh, accepted.sent, accepted.connack, SUCCESS]

theorem MQTTConnect_refused {wrapper : Wrapper} {outcome : Outcome}
    (refused : ¬Accepted wrapper outcome) :
    ∃ rc, rc ≠ 0 ∧ MQTTConnect wrapper outcome = (wrapper, rc, []) := by
  unfold MQTTConnect
  split
  · exact ⟨FAILURE, by decide, rfl⟩
  · rename_i fresh
    split
    · exact ⟨FAILURE, by decide, rfl⟩
    · rename_i sent
      cases connack : outcome.connack with
      | none => exact ⟨FAILURE, by decide, rfl⟩
      | some code =>
          have nonzero : (code : Int) ≠ SUCCESS := by
            intro zero
            obtain rfl : code = 0 := Int.ofNat_eq_zero.mp zero
            exact refused ⟨by simpa using fresh, by simpa using sent, connack⟩
          exact ⟨code, nonzero, by simp only [if_neg nonzero]⟩

inductive Connect (wrapper : Wrapper) (outcome : Outcome) : Wrapper → List Action → Prop where
  | lookupFailed : outcome.getaddrinfo = false →
      Connect wrapper outcome wrapper [.MqttTaskConnect (-1)]
  | socketFailed : outcome.getaddrinfo = true → outcome.socket = -1 →
      Connect wrapper outcome { wrapper with socket := -1 } [.MqttTaskConnect (-1)]
  | failed : outcome.getaddrinfo = true → outcome.socket ≠ -1 →
      ¬(outcome.connect = true ∧ Accepted wrapper outcome) →
      Connect wrapper outcome
        { wrapper with
          opened := insert outcome.socket wrapper.opened
          socket := outcome.socket } [.socket outcome.socket, .MqttTaskConnect (-1)]
  | accepted : outcome.getaddrinfo = true → outcome.socket ≠ -1 → outcome.connect = true →
      Accepted wrapper outcome →
      Connect wrapper outcome
        { opened := insert outcome.socket wrapper.opened
          socket := outcome.socket
          isconnected := true }
        [.socket outcome.socket, .CONNACK outcome.socket, .MqttTaskConnect 0]

theorem MqttTaskConnect_cases {wrapper next : Wrapper} {outcome : Outcome} {actions : List Action}
    (called : MqttTaskConnect wrapper outcome = (next, actions)) :
    Connect wrapper outcome next actions := by
  cases lookup : outcome.getaddrinfo with
  | false =>
      simp [MqttTaskConnect, NetworkConnect, lookup] at called
      rcases called with ⟨rfl, rfl⟩
      exact .lookupFailed lookup
  | true =>
      by_cases noSocket : outcome.socket = -1
      · simp [MqttTaskConnect, NetworkConnect, lookup, noSocket] at called
        rcases called with ⟨rfl, rfl⟩
        exact .socketFailed lookup noSocket
      · cases connect : outcome.connect with
        | false =>
            simp [MqttTaskConnect, NetworkConnect, lookup, noSocket, connect] at called
            rcases called with ⟨rfl, rfl⟩
            exact .failed lookup noSocket (by simp [connect])
        | true =>
            let network : Wrapper :=
              { wrapper with
                opened := insert outcome.socket wrapper.opened
                socket := outcome.socket }
            by_cases accepted : Accepted wrapper outcome
            · have received : MQTTConnect network outcome = _ :=
                MQTTConnect_accepted ⟨accepted.fresh, accepted.sent, accepted.connack⟩
              simp [MqttTaskConnect, NetworkConnect, lookup, noSocket, connect, received,
                network] at called
              rcases called with ⟨rfl, rfl⟩
              exact .accepted lookup noSocket connect accepted
            · have same : ¬Accepted network outcome :=
                fun other => accepted ⟨other.fresh, other.sent, other.connack⟩
              rcases MQTTConnect_refused same with ⟨rc, failure, received⟩
              simp [MqttTaskConnect, NetworkConnect, lookup, noSocket, connect, received, failure,
                network] at called
              rcases called with ⟨rfl, rfl⟩
              exact .failed lookup noSocket fun both => accepted both.2

/-! ## The invariant -/

theorem accepting_append (log actions : List Action) :
    accepting (log ++ actions) =
      actions.foldl
        (fun last action =>
          match action with
          | .CONNACK socket => some socket
          | _ => last) (accepting log) :=
  List.foldl_append

/-- A connected session was accepted on a socket that is still open. -/
def Connected (wrapper : Wrapper) (log : List Action) : Prop :=
  wrapper.isconnected = true → ∃ socket ∈ wrapper.opened, accepting log = some socket

theorem Connect.connected {wrapper next : Wrapper} {outcome : Outcome} {log actions : List Action}
    (connect : Connect wrapper outcome next actions) (connected : Connected wrapper log) :
    Connected next (log ++ actions) := by
  intro isconnected
  rw [accepting_append]
  cases connect with
  | lookupFailed lookup => exact connected isconnected
  | socketFailed lookup noSocket => exact connected isconnected
  | failed lookup aSocket refused =>
      rcases connected isconnected with ⟨socket, membership, accepted⟩
      exact ⟨socket, Finset.mem_insert_of_mem membership, accepted⟩
  | accepted lookup aSocket connect accepted =>
      exact ⟨outcome.socket, Finset.mem_insert_self .., rfl⟩

theorem connected_of_step {wrapper next : Wrapper} {log actions : List Action} {call : Call}
    (connected : Connected wrapper log)
    (stepped : machine.step wrapper call = some (next, actions)) :
    Connected next (log ++ actions) := by
  cases call with
  | MqttTaskConnect outcome =>
      rcases Option.ite_none_right_eq_some.mp stepped with ⟨possible, called⟩
      exact (MqttTaskConnect_cases (Option.some.inj called)).connected connected
  | MqttTaskDisconnect sendPacket =>
      intro isconnected
      cases sendPacket <;> cases stepped <;> cases isconnected
  | MQTTYield cycle =>
      rcases Prod.mk.inj (Option.some.inj stepped) with ⟨rfl, rfl⟩
      rw [List.append_nil]
      unfold MqttTask
      split
      · intro isconnected
        cases isconnected
      · exact connected

/-! ## The calls that keep the law -/

theorem failureKeeps_iff {wrapper next : Wrapper} {log actions : List Action} {call : Call}
    (stepped : step wrapper call = some (next, actions)) :
    FailureKeeps wrapper log call ↔ (.MqttTaskConnect (-1) ∈ actions → next = wrapper) := by
  constructor
  · intro keeps
    exact keeps next actions stepped
  · intro keeps other emitted again
    rw [stepped] at again
    rcases Prod.mk.inj (Option.some.inj again) with ⟨rfl, rfl⟩
    exact keeps

/-- Without an open socket the session is not connected. -/
theorem Connected.fresh_of_closed {wrapper : Wrapper} {log : List Action}
    (connected : Connected wrapper log) (closed : wrapper.opened = ∅) :
    wrapper.isconnected = false := by
  apply Bool.eq_false_of_not_eq_true
  intro isconnected
  rcases connected isconnected with ⟨socket, membership, -⟩
  rw [closed] at membership
  exact Finset.notMem_empty socket membership

theorem card_insert_le_one_iff {socket : Int} {opened : Finset Int} (fresh : socket ∉ opened) :
    (insert socket opened).card ≤ 1 ↔ opened = ∅ := by
  rw [Finset.card_insert_of_notMem fresh, ← Finset.card_eq_zero]
  omega

theorem Connect.clean_iff {wrapper next : Wrapper} {outcome : Outcome} {log actions : List Action}
    (connect : Connect wrapper outcome next actions) (possible : outcome.Possible wrapper)
    (connected : Connected wrapper log) (owned : Owned wrapper log) :
    Owned next (log ++ actions) ∧ (.MqttTaskConnect (-1) ∈ actions → next = wrapper) ↔
      Clean wrapper log (.MqttTaskConnect outcome) := by
  cases connect with
  | lookupFailed lookup =>
      refine iff_of_true ⟨⟨owned.single, ?_⟩, fun _ => rfl⟩ (.inl lookup)
      rw [accepting_append]
      exact owned.session
  | socketFailed lookup noSocket =>
      constructor
      · rintro ⟨-, keeps⟩
        have same : -1 = wrapper.socket := congrArg Wrapper.socket (keeps (by simp))
        exact .inr (.inl ⟨noSocket, same.symm⟩)
      · rintro (noLookup | ⟨-, same⟩ | ⟨aSocket, -⟩)
        · rw [lookup] at noLookup
          cases noLookup
        · rw [← same]
          refine ⟨⟨owned.single, ?_⟩, fun _ => rfl⟩
          rw [accepting_append]
          exact owned.session
        · exact absurd noSocket aSocket
  | failed lookup aSocket refused =>
      have fresh : outcome.socket ∉ wrapper.opened := (possible.resolve_left aSocket).2
      refine iff_of_false ?_ ?_
      · rintro ⟨-, keeps⟩
        have same : insert outcome.socket wrapper.opened = wrapper.opened :=
          congrArg Wrapper.opened (keeps (by simp))
        exact fresh (Finset.insert_eq_self.mp same)
      · rintro (noLookup | ⟨noSocket, -⟩ | ⟨-, connect, sent, connack, closed⟩)
        · rw [lookup] at noLookup
          cases noLookup
        · exact aSocket noSocket
        · exact refused ⟨connect, connected.fresh_of_closed closed, sent, connack⟩
  | accepted lookup aSocket connect accepted =>
      have fresh : outcome.socket ∉ wrapper.opened := (possible.resolve_left aSocket).2
      constructor
      · rintro ⟨kept, -⟩
        exact .inr (.inr ⟨aSocket, connect, accepted.sent, accepted.connack,
          (card_insert_le_one_iff fresh).mp kept.single⟩)
      · rintro (noLookup | ⟨noSocket, -⟩ | ⟨-, -, -, -, closed⟩)
        · rw [lookup] at noLookup
          cases noLookup
        · exact absurd noSocket aSocket
        · refine ⟨⟨(card_insert_le_one_iff fresh).mpr closed, fun _ => ?_⟩, by simp⟩
          rw [accepting_append]
          rfl

theorem owned_of_closing {wrapper next : Wrapper} {log : List Action}
    (owned : Owned wrapper log) {actions : List Action}
    (subset : next.opened ⊆ wrapper.opened) (same : next.socket = wrapper.socket)
    (session : next.isconnected = true → wrapper.isconnected = true)
    (silent : accepting (log ++ actions) = accepting log) : Owned next (log ++ actions) where
  single := (Finset.card_le_card subset).trans owned.single
  session isconnected := by
    rw [silent, same]
    exact owned.session (session isconnected)

theorem clean_step_iff {wrapper next : Wrapper} {log actions : List Action} {call : Call}
    (connected : Connected wrapper log) (owned : Owned wrapper log)
    (stepped : machine.step wrapper call = some (next, actions)) :
    Owned next (log ++ actions) ∧ FailureKeeps wrapper log call ↔ Clean wrapper log call := by
  rw [failureKeeps_iff stepped]
  cases call with
  | MqttTaskConnect outcome =>
      rcases Option.ite_none_right_eq_some.mp stepped with ⟨possible, called⟩
      exact (MqttTaskConnect_cases (Option.some.inj called)).clean_iff possible connected owned
  | MqttTaskDisconnect sendPacket =>
      cases sendPacket with
      | false =>
          cases stepped
          refine iff_of_true ⟨?_, by simp⟩ trivial
          exact owned_of_closing owned subset_rfl rfl nofun (by rw [List.append_nil])
      | true =>
          cases stepped
          refine iff_of_true ⟨?_, by simp⟩ trivial
          exact owned_of_closing owned (Finset.erase_subset ..) rfl nofun (accepting_append ..)
  | MQTTYield cycle =>
      rcases Prod.mk.inj (Option.some.inj stepped) with ⟨rfl, rfl⟩
      refine iff_of_true ⟨?_, by simp⟩ trivial
      unfold MqttTask
      split
      · exact owned_of_closing owned subset_rfl rfl nofun (by rw [List.append_nil])
      · exact owned_of_closing owned subset_rfl rfl id (by rw [List.append_nil])

/-- In a run at most one socket is open at any time, a connected session uses
the socket that was accepted and failed connects change nothing, exactly if
every connect fails before it changes anything or succeeds while no socket is
open. -/
theorem socket_owned_iff {calls : List Call} {wrapper : Wrapper} {log : List Action}
    (run : machine.Run MqttTaskInit calls wrapper log) :
    machine.Throughout Owned MqttTaskInit calls ∧ machine.Meets FailureKeeps MqttTaskInit calls ↔
      machine.Meets Clean MqttTaskInit calls := by
  apply run.throughout_and_meets_iff Connected
  · exact ⟨nofun, by decide, nofun⟩
  · intro wrapper log call next actions connected stepped
    exact connected_of_step connected stepped
  · intro wrapper log call next actions connected owned stepped
    exact clean_step_iff connected owned stepped

def success (socket : Int) : Outcome := ⟨true, socket, true, true, some 0⟩

def reconnect : List Call :=
  [.MqttTaskConnect ⟨false, -1, false, false, none⟩, .MqttTaskConnect (success 0),
    .MQTTYield true, .MqttTaskDisconnect true, .MqttTaskConnect (success 0)]

theorem socket_owned_reconnect :
    ∃ wrapper log, machine.Run MqttTaskInit reconnect wrapper log ∧
      wrapper.isconnected = true ∧ machine.Throughout Owned MqttTaskInit reconnect ∧
      machine.Meets FailureKeeps MqttTaskInit reconnect := by
  obtain ⟨wrapper, log, run, seen⟩ := machine.exists_run_of_exec
    (fun result => result.1.isconnected) MqttTaskInit reconnect true (by decide +kernel)
  refine ⟨wrapper, log, run, seen, (socket_owned_iff run).mpr ?_⟩
  exact Machine.meets_of_meetsFrom (fun wrapper log call => decide (Clean wrapper log call))
    (fun _ _ _ passed => of_decide_eq_true passed) (by decide +kernel)

/-- The server drops the connection, the task notices, and the next connect
leaves the old socket open. -/
theorem socket_leaked :
    ∃ calls wrapper log, machine.Run MqttTaskInit calls wrapper log ∧
      calls = [.MqttTaskConnect (success 0), .MQTTYield false, .MqttTaskConnect (success 1)] ∧
      wrapper.opened = {0, 1} ∧ ¬machine.Throughout Owned MqttTaskInit calls := by
  obtain ⟨wrapper, log, run, seen⟩ := machine.exists_run_of_exec
    (fun result => result.1.opened) MqttTaskInit
    [.MqttTaskConnect (success 0), .MQTTYield false, .MqttTaskConnect (success 1)] {0, 1}
    (by decide +kernel)
  refine ⟨_, wrapper, log, run, rfl, seen, fun throughout => ?_⟩
  have single := (throughout.last run).single
  rw [show wrapper.opened = {0, 1} from seen] at single
  exact absurd single (by decide)

end WifiIot.Mqtt.Socket
