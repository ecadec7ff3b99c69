import WifiIot.Resource.Custody
import WifiIot.Server.Transition

/-!
# Shutting the server down

`NetServerDeinit` edits the table of clients from another task: it shuts each
connection down and clears the entry, and leaves it to the server task to close
the descriptor.  The server task closes what it finds in the table, and the
client it is just reading from.

Here the accesses of the two to an entry are steps of their own wherever another
order would make a difference.

Source: `NetServerDeinit`, `SocketListen` and `ReadHandle` in
`network_server.c`.
-/

namespace WifiIot.Server

open Ledger

namespace Shutdown

/-! ## The two tasks -/

/-- Where the server task stands, with the accesses to an entry that a single
step of `threadStep` joins. -/
inductive ListenerPc where
  | server (pc : Pc)
  /-- `int fd = *sockfd` in `ReadHandle`. -/
  | entry (sock_fd maxsock : Int) (fdset : Finset Int) (i : Fin MAX_CONNECT)
  /-- `close(g_netServer.sockfd[i])` in `SocketListen`. -/
  | close (sock_fd : Int) (i : Fin MAX_CONNECT)
  /-- `g_netServer.sockfd[i] = -1` after it. -/
  | clear (sock_fd : Int) (i : Fin MAX_CONNECT)
  deriving DecidableEq

/-- Where `NetServerDeinit` stands. -/
inductive DeinitPc where
  | serRun
  /-- `if (g_netServer.sockfd[i] != -1)`. -/
  | test (i : Nat)
  | shutdown (i : Fin MAX_CONNECT)
  /-- `g_netServer.sockfd[i] = -1`. -/
  | clear (i : Fin MAX_CONNECT)
  | isActive
  | returned
  deriving DecidableEq

structure State where
  info : NetServerInfo
  pc : ListenerPc
  deinit : DeinitPc

inductive Action where
  | call (call : Syscall)
  | shutdown (fd : Int)
  deriving DecidableEq

/-- The server task enters `ReadHandle` before it reads the entry. -/
def pause : Pc → ListenerPc
  | .ReadHandle sock_fd maxsock fdset i _ => .entry sock_fd maxsock fdset i
  | pc => .server pc

def closingTest (state : State) (sock_fd : Int) (i : Nat) : ListenerPc :=
  if inside : i < MAX_CONNECT then
    if state.info.sockfd ⟨i, inside⟩ ≠ -1 then .close sock_fd ⟨i, inside⟩
    else .server (.closing sock_fd (i + 1))
  else .server (.returned sock_fd)

def listenerStep (state : State) (answer : Answer) : Option (State × List Action) :=
  let info := state.info
  match state.pc, answer with
  | .entry sock_fd maxsock fdset i, .proceed =>
      some ({ state with pc := .server (.ReadHandle sock_fd maxsock fdset i (info.sockfd i)) }, [])
  | .close sock_fd i, .proceed =>
      some ({ state with pc := .clear sock_fd i },
        [.call (.close .SocketListen (info.sockfd i))])
  | .clear sock_fd i, .proceed =>
      some
        ({ state with
          info := { info with sockfd := Function.update info.sockfd i (-1) }
          pc := .server (.closing sock_fd (i + 1)) }, [])
  | .server (.closing sock_fd i), .proceed =>
      some ({ state with pc := closingTest state sock_fd i }, [])
  | .server (.closing _ _), _ => none
  | .server pc, answer =>
      match threadStep ⟨info, pc⟩ answer with
      | none => none
      | some (next, calls) =>
          some ({ state with info := next.info, pc := pause next.pc }, calls.map .call)
  | _, _ => none

/-- One step of `NetServerDeinit`. -/
def NetServerDeinit (state : State) : Option (State × List Action) :=
  let info := state.info
  match state.deinit with
  | .serRun => some ({ state with info := { info with serRun := false }, deinit := .test 0 }, [])
  | .test i =>
      some
        ({ state with
          deinit :=
            if inside : i < MAX_CONNECT then
              if info.sockfd ⟨i, inside⟩ ≠ -1 then .shutdown ⟨i, inside⟩ else .test (i + 1)
            else .isActive }, [])
  | .shutdown i => some ({ state with deinit := .clear i }, [.shutdown (info.sockfd i)])
  | .clear i =>
      some
        ({ state with
          info := { info with sockfd := Function.update info.sockfd i (-1) }
          deinit := .test (i + 1) }, [])
  | .isActive =>
      some ({ state with info := { info with isActive := false }, deinit := .returned }, [])
  | .returned => none

def apiStep (state : State) : Api → State
  | .NetServerStart => { state with info := { state.info with serRun := true } }
  | .NetServerStop => { state with info := { state.info with serRun := false } }

inductive Move where
  | task (answer : Answer)
  | api (call : Api)
  | deinit

def machine : Machine State Move Action where
  step state
    | .task answer => listenerStep state answer
    | .api call => some (apiStep state call, [])
    | .deinit => NetServerDeinit state

/-- The server is initialized, and `NetServerDeinit` may be called at any time. -/
def start (nEventCallback : Bool) : State where
  info := (NetServerInit nEventCallback).info
  pc := .server (NetServerInit nEventCallback).pc
  deinit := .serRun

/-! ## The clients -/

/-- What an action does to the client descriptors; `close(-1)` closes none. -/
def Action.client : Action → Option (Entry Int)
  | .call (.accept newfd) => some (.acquired newfd)
  | .call (.close _ fd) => if fd = -1 then none else some (.released fd)
  | _ => none

def clients (log : List Action) : List (Entry Int) := log.filterMap Action.client

@[simp]
theorem clients_append (first second : List Action) :
    clients (first ++ second) = clients first ++ clients second :=
  List.filterMap_append ..

/-- `accept` returns an error or a descriptor that is not open. -/
def AcceptUnused (state : State) (log : List Action) : Move → Prop
  | .task (.accept newfd) =>
      match state.pc with
      | .server (.CheckNewSocket _ _ _) => newfd < 0 ∨ newfd ∉ held (clients log)
      | _ => True
  | _ => True

instance (state : State) (log : List Action) (move : Move) :
    Decidable (AcceptUnused state log move) := by
  unfold AcceptUnused
  repeat' split
  all_goals infer_instance

/-- The server task closes the client of the entry without reading the entry again. -/
def ListenerPc.Handles (i : Fin MAX_CONNECT) : ListenerPc → Prop
  | .server (.ReadHandle _ _ _ j _) => j = i
  | .clear _ j => j = i
  | _ => False

instance (i : Fin MAX_CONNECT) (pc : ListenerPc) : Decidable (pc.Handles i) := by
  unfold ListenerPc.Handles
  split <;> infer_instance

/-- No client is accepted under descriptor 0; `NetServerDeinit` clears no entry
in use, but for a client that the server task is reading from or has just
closed; and such a client, its entry cleared, turns out to be gone or sends the
handshake. -/
def NothingLost (state : State) (_log : List Action) : Move → Prop
  | .task (.accept newfd) =>
      match state.pc with
      | .server (.CheckNewSocket sock_fd _ fdset) => sock_fd ∈ fdset → newfd ≠ 0
      | _ => True
  | .task (.recv chunk _) =>
      match state.pc with
      | .server (.ReadHandle _ _ _ i fd) => fd ≠ -1 → state.info.sockfd i = -1 →
          chunk = [] ∨ state.info.special = -1 ∧
            IsSpecialSocket (cString (chunk.take (BUF_SHORT_SIZE - 1))) = true
      | _ => True
  | .deinit =>
      match state.deinit with
      | .clear i => state.info.sockfd i = -1 ∨ state.pc.Handles i
      | _ => True
  | _ => True

instance (state : State) (log : List Action) (move : Move) :
    Decidable (NothingLost state log move) := by
  unfold NothingLost
  repeat' split
  all_goals infer_instance

/-! ## Who knows a client -/

/-- The table, without the entry whose client was just closed. -/
def State.live (state : State) : Fin MAX_CONNECT → Int :=
  match state.pc with
  | .clear _ i => Function.update state.info.sockfd i (-1)
  | _ => state.info.sockfd

/-- The client in `ReadHandle` if its entry was cleared meanwhile, else -1. -/
def State.loose (state : State) : Int :=
  match state.pc with
  | .server (.ReadHandle _ _ _ i fd) => if state.info.sockfd i = -1 then fd else -1
  | _ => -1

def owners (live : Fin MAX_CONNECT → Int) (loose : Int) : Option (Fin MAX_CONNECT) → Int :=
  fun owner => owner.elim loose live

def State.owned (state : State) : Option (Fin MAX_CONNECT) → Int := owners state.live state.loose

theorem owners_update_some (live : Fin MAX_CONNECT → Int) (loose : Int) (i : Fin MAX_CONNECT)
    (value : Int) :
    owners (Function.update live i value) loose =
      Function.update (owners live loose) (some i) value := by
  funext owner
  cases owner with
  | none => simp [owners]
  | some j =>
      by_cases same : j = i
      · simp [owners, same]
      · simp [owners, same]

theorem owners_update_none (live : Fin MAX_CONNECT → Int) (loose value : Int) :
    owners live value = Function.update (owners live loose) none value := by
  funext owner
  cases owner <;> simp [owners]

/-- What a step does to the clients that the server task knows. -/
def Kept (held : Finset Int) (state next : State) (actions : List Action) : Prop :=
  Custody.Keeping (-1) held state.owned (clients actions) next.owned

def Lost (held : Finset Int) (state next : State) (actions : List Action) : Prop :=
  Custody.Losing (-1) held state.owned (clients actions) next.owned

theorem owned_eq (state : State) : state.owned = owners state.live state.loose := rfl

section Effects

variable {held : Finset Int} {state next : State} {actions : List Action}

theorem kept_idle (live : next.live = state.live) (loose : next.loose = state.loose)
    (silent : clients actions = []) : Kept held state next actions := by
  rw [Kept, silent, owned_eq, owned_eq, live, loose]
  exact .idle

theorem kept_release {i : Fin MAX_CONNECT} (used : state.live i ≠ -1)
    (live : next.live = Function.update state.live i (-1)) (loose : next.loose = state.loose)
    (closes : clients actions = [.released (state.live i)]) : Kept held state next actions := by
  rw [Kept, closes, owned_eq next, live, loose, owners_update_some]
  exact .release (some i) used

theorem kept_release_loose (used : state.loose ≠ -1) (live : next.live = state.live)
    (loose : next.loose = -1) (closes : clients actions = [.released state.loose]) :
    Kept held state next actions := by
  rw [Kept, closes, owned_eq next, live, loose, owners_update_none state.live state.loose]
  exact .release none used

theorem kept_store {i : Fin MAX_CONNECT} {newfd : Int} (vacant : state.live i = -1)
    (used : newfd ≠ -1) (fresh : newfd ∉ held)
    (live : next.live = Function.update state.live i newfd) (loose : next.loose = state.loose)
    (accepts : clients actions = [.acquired newfd]) : Kept held state next actions := by
  rw [Kept, accepts, owned_eq next, live, loose, owners_update_some]
  exact .store (some i) vacant used fresh

theorem kept_move {i j : Fin MAX_CONNECT} (used : state.live i ≠ -1) (vacant : state.live j = -1)
    (live : next.live =
      Function.update (Function.update state.live i (-1)) j (state.live i))
    (loose : next.loose = state.loose) (silent : clients actions = []) :
    Kept held state next actions := by
  rw [Kept, silent, owned_eq next, live, loose, owners_update_some, owners_update_some]
  exact .move (some i) (some j) used vacant

theorem kept_loosen {i : Fin MAX_CONNECT} (used : state.live i ≠ -1) (free : state.loose = -1)
    (live : next.live = Function.update state.live i (-1)) (loose : next.loose = state.live i)
    (silent : clients actions = []) : Kept held state next actions := by
  rw [Kept, silent, owned_eq next, live, loose, owners_update_none _ state.loose,
    owners_update_some]
  exact .move (some i) none used free

theorem kept_bind {i : Fin MAX_CONNECT} (used : state.loose ≠ -1) (vacant : state.live i = -1)
    (live : next.live = Function.update state.live i state.loose) (loose : next.loose = -1)
    (silent : clients actions = []) : Kept held state next actions := by
  rw [Kept, silent, owned_eq next, live, loose, owners_update_some,
    owners_update_none state.live state.loose]
  exact .move none (some i) used vacant

theorem lost_forget {i : Fin MAX_CONNECT} (used : state.live i ≠ -1)
    (live : next.live = Function.update state.live i (-1)) (loose : next.loose = state.loose)
    (silent : clients actions = []) : Lost held state next actions := by
  rw [Lost, silent, owned_eq next, live, loose, owners_update_some]
  exact .forget (some i) used

theorem lost_loose (used : state.loose ≠ -1) (live : next.live = state.live)
    (loose : next.loose = -1) (silent : clients actions = []) : Lost held state next actions := by
  rw [Lost, silent, owned_eq next, live, loose, owners_update_none state.live state.loose]
  exact .forget none used

theorem lost_unstored {newfd : Int} (fresh : newfd ∉ held) (live : next.live = state.live)
    (loose : next.loose = state.loose) (accepts : clients actions = [.acquired newfd]) :
    Lost held state next actions := by
  rw [Lost, accepts, owned_eq next, live, loose]
  exact .unstored fresh

end Effects

/-! ## The steps of `NetServerDeinit` -/

/-- A step loses no client, or loses one, as the condition says. -/
def Decided (held : Finset Int) (state next : State) (actions : List Action) (condition : Prop) :
    Prop :=
  Kept held state next actions ∧ condition ∨ Lost held state next actions ∧ ¬condition

theorem clear_unhandled {state : State} {i : Fin MAX_CONNECT} (unhandled : ¬state.pc.Handles i)
    (deinit : DeinitPc) :
    let next : State :=
      { state with
        info := { state.info with sockfd := Function.update state.info.sockfd i (-1) }
        deinit := deinit }
    state.live i = state.info.sockfd i ∧ next.live = Function.update state.live i (-1) ∧
      next.loose = state.loose := by
  obtain ⟨info, pc, at_⟩ := state
  cases pc with
  | clear sock_fd j =>
      have other : i ≠ j := fun same => unhandled same.symm
      exact ⟨Function.update_of_ne other .., Function.update_comm other .., rfl⟩
  | server pc =>
      refine ⟨rfl, rfl, ?_⟩
      cases pc with
      | ReadHandle sock_fd maxsock fdset j fd =>
          have other : j ≠ i := unhandled
          simp [State.loose, other]
      | _ => rfl
  | _ => exact ⟨rfl, rfl, rfl⟩

theorem clear_handled {held : Finset Int} {state : State} {i : Fin MAX_CONNECT}
    (handled : state.pc.Handles i) (used : state.info.sockfd i ≠ -1)
    (placed : ∀ sock_fd maxsock fdset fd,
      state.pc = .server (.ReadHandle sock_fd maxsock fdset i fd) →
        state.info.sockfd i = fd ∨ state.info.sockfd i = -1) (deinit : DeinitPc) :
    Kept held state
      { state with
        info := { state.info with sockfd := Function.update state.info.sockfd i (-1) }
        deinit := deinit } [] := by
  obtain ⟨info, pc, at_⟩ := state
  cases pc with
  | clear sock_fd j =>
      obtain rfl : j = i := handled
      exact kept_idle (by simp [State.live]) rfl rfl
  | server pc =>
      cases pc with
      | ReadHandle sock_fd maxsock fdset j fd =>
          obtain rfl : j = i := handled
          have entry : info.sockfd j = fd := (placed _ _ _ _ rfl).resolve_right used
          refine kept_loosen (i := j) used ?_ rfl ?_ rfl
          · exact if_neg used
          · simp [State.loose, State.live, entry]
      | _ => exact False.elim handled
  | _ => exact False.elim handled

/-- Where the server task stands and what the table holds there. -/
def State.Placed (state : State) : Prop :=
  match state.pc with
  | .server (.ReadHandle _ _ _ i fd) => state.info.sockfd i = fd ∨ state.info.sockfd i = -1
  | .server pc => NetServer.WellPlaced ⟨state.info, pc⟩
  | .close _ i | .clear _ i => ∀ j : Fin MAX_CONNECT, j.val < i.val → state.info.sockfd j = -1
  | .entry .. => True

theorem NetServerDeinit_decided {held : Finset Int} {state next : State} {log actions : List Action}
    (placed : state.Placed) (stepped : NetServerDeinit state = some (next, actions)) :
    Decided held state next actions (NothingLost state log .deinit) := by
  unfold NetServerDeinit at stepped
  unfold Decided NothingLost
  split at stepped
  · rename_i at_
    obtain ⟨rfl, rfl⟩ := Prod.mk.inj (Option.some.inj stepped)
    exact .inl ⟨kept_idle rfl rfl rfl, by simp [at_]⟩
  · rename_i i at_
    obtain ⟨rfl, rfl⟩ := Prod.mk.inj (Option.some.inj stepped)
    exact .inl ⟨kept_idle rfl rfl rfl, by simp [at_]⟩
  · rename_i i at_
    obtain ⟨rfl, rfl⟩ := Prod.mk.inj (Option.some.inj stepped)
    exact .inl ⟨kept_idle rfl rfl rfl, by simp [at_]⟩
  · rename_i i at_
    obtain ⟨rfl, rfl⟩ := Prod.mk.inj (Option.some.inj stepped)
    simp only [at_]
    by_cases vacant : state.info.sockfd i = -1
    · have same : Function.update state.info.sockfd i (-1) = state.info.sockfd := by
        rw [← vacant, Function.update_eq_self]
      refine .inl ⟨kept_idle ?_ ?_ rfl, .inl vacant⟩
      · rw [same]
        rfl
      · rw [same]
        rfl
    · by_cases handled : state.pc.Handles i
      · refine .inl ⟨clear_handled handled vacant ?_ _, .inr handled⟩
        intro sock_fd maxsock fdset fd reading
        rw [State.Placed, reading] at placed
        exact placed
      · obtain ⟨entry, live, loose⟩ := clear_unhandled handled (.test (i + 1))
        refine .inr ⟨lost_forget (by rw [entry]; exact vacant) live loose rfl, ?_⟩
        exact not_or.mpr ⟨vacant, handled⟩
  · rename_i at_
    obtain ⟨rfl, rfl⟩ := Prod.mk.inj (Option.some.inj stepped)
    exact .inl ⟨kept_idle rfl rfl rfl, by simp [at_]⟩
  · cases stepped

/-! ## The steps of the server task -/

theorem ReadHandle_cases {info next : NetServerInfo} {i : Fin MAX_CONNECT} {fd result : Int}
    {chunk : List UInt8} {fdset rest : Finset Int} {calls : List Syscall}
    (handled : ReadHandle info i fd chunk result fdset = some (next, rest, calls)) :
    (chunk = [] ∧ calls = [.close .ReadHandle fd] ∧
      next = { info with
        sockfd := Function.update info.sockfd i (-1)
        connAmount := info.connAmount - 1 }) ∨
    (chunk ≠ [] ∧ info.sockfd 0 = -1 ∧
      IsSpecialSocket (cString (chunk.take (BUF_SHORT_SIZE - 1))) = true ∧
      (∀ call ∈ calls, call.Quiet) ∧
      next = { info with
        sockfd := Function.update (Function.update info.sockfd i (-1)) 0 fd }) ∨
    (chunk ≠ [] ∧
      ¬(info.sockfd 0 = -1 ∧
        IsSpecialSocket (cString (chunk.take (BUF_SHORT_SIZE - 1))) = true) ∧
      (∀ call ∈ calls, call.Quiet) ∧ info = next) := by
  have received : (chunk.take (BUF_SHORT_SIZE - 1)).length = 0 ↔ chunk = [] := by
    rw [List.length_eq_zero_iff, List.take_eq_nil_iff]
    simp [BUF_SHORT_SIZE]
  simp only [ReadHandle, received] at handled
  split at handled
  · rename_i gone
    split at handled
    · cases handled
    · rename_i connAmount defined
      cases handled
      rw [int32_eq_some defined]
      exact .inl ⟨gone, rfl, rfl⟩
  · rename_i data
    split at handled
    · rename_i special
      cases handled
      exact .inr (.inl ⟨data, special.1, special.2, by simp [Syscall.Quiet], rfl⟩)
    · rename_i ordinary
      cases handled
      exact .inr (.inr ⟨data, ordinary, by simp [Syscall.Quiet, SendRequest], rfl⟩)

theorem clients_of_quiet {calls : List Syscall} (quiet : ∀ call ∈ calls, call.Quiet) :
    clients (calls.map .call) = [] := by
  apply List.filterMap_eq_nil_iff.mpr
  intro action membership
  obtain ⟨call, called, rfl⟩ := List.mem_map.mp membership
  have silent := quiet call called
  cases call <;> first | rfl | exact False.elim silent

/-- The step in `ReadHandle`: the client is closed, moved or kept where it is. -/
theorem ReadHandle_decided {held : Finset Int} {info next : NetServerInfo}
    {deinit : DeinitPc} {log : List Action} {sock_fd maxsock fd result : Int}
    {fdset rest : Finset Int} {i : Fin MAX_CONNECT} {chunk : List UInt8} {calls : List Syscall}
    (placed : info.sockfd i = fd ∨ info.sockfd i = -1)
    (handled : ReadHandle info i fd chunk result fdset = some (next, rest, calls)) :
    let state : State := ⟨info, .server (.ReadHandle sock_fd maxsock fdset i fd), deinit⟩
    Decided held state ⟨next, .server (.scan sock_fd maxsock rest (i + 1)), deinit⟩
      (calls.map .call) (NothingLost state log (.task (.recv chunk result))) := by
  intro state
  simp only [Decided, NothingLost, state]
  -- The client is known from its entry, or only from the call once that is cleared.
  have looseCleared : info.sockfd i = -1 → state.loose = fd := fun cleared => if_pos cleared
  have looseKept : info.sockfd i ≠ -1 → state.loose = -1 := fun used => if_neg used
  have entry : info.sockfd i ≠ -1 → info.sockfd i = fd := placed.resolve_right
  have same : info.sockfd i = -1 → Function.update info.sockfd i (-1) = info.sockfd := by
    intro cleared
    rw [← cleared, Function.update_eq_self]
  rcases ReadHandle_cases handled with ⟨gone, rfl, rfl⟩ | ⟨data, vacant, special, quiet, rfl⟩ |
    ⟨data, ordinary, quiet, rfl⟩
  · refine .inl ⟨?_, fun _ _ => .inl gone⟩
    by_cases cleared : info.sockfd i = -1
    · by_cases noClient : fd = -1
      · refine kept_idle (same cleared) ?_ (by simp [clients, Action.client, noClient])
        rw [looseCleared cleared, noClient]
        rfl
      · refine kept_release_loose ?_ (same cleared) rfl ?_
        · rw [looseCleared cleared]
          exact noClient
        · rw [looseCleared cleared]
          simp [clients, Action.client, noClient]
    · refine kept_release (i := i) cleared rfl ?_ ?_
      · rw [looseKept cleared]
        rfl
      · have live : state.live i = fd := entry cleared
        have used : fd ≠ -1 := entry cleared ▸ cleared
        rw [live]
        simp [clients, Action.client, used]
  · refine .inl ⟨?_, fun _ _ => .inr ⟨vacant, special⟩⟩
    have silent := clients_of_quiet quiet
    by_cases cleared : info.sockfd i = -1
    · by_cases noClient : fd = -1
      · have unchanged : Function.update info.sockfd 0 fd = info.sockfd := by
          rw [noClient, ← vacant, Function.update_eq_self]
        refine kept_idle ?_ ?_ silent
        · rw [same cleared, unchanged]
          rfl
        · rw [looseCleared cleared, noClient]
          rfl
      · refine kept_bind (i := 0) ?_ vacant ?_ rfl silent
        · rw [looseCleared cleared]
          exact noClient
        · rw [looseCleared cleared, same cleared]
          rfl
    · refine kept_move (i := i) (j := 0) cleared vacant ?_ ?_ silent
      · rw [← entry cleared]
        rfl
      · rw [looseKept cleared]
        rfl
  · have silent := clients_of_quiet quiet
    by_cases lost : fd ≠ -1 ∧ info.sockfd i = -1
    · refine .inr ⟨lost_loose ?_ rfl rfl silent, fun kept => ?_⟩
      · rw [looseCleared lost.2]
        exact lost.1
      · exact (kept lost.1 lost.2).elim data ordinary
    · have loose : state.loose = -1 := by
        by_cases cleared : info.sockfd i = -1
        · have noClient : fd = -1 := not_not.mp fun used => lost ⟨used, cleared⟩
          exact (looseCleared cleared).trans noClient
        · exact looseKept cleared
      refine .inl ⟨kept_idle rfl ?_ silent, fun used cleared => absurd ⟨used, cleared⟩ lost⟩
      rw [loose]
      rfl

theorem CheckNewSocket_cases {info next : NetServerInfo} {sock_fd maxsock after newfd : Int}
    {fdset : Finset Int} {calls : List Syscall}
    (checked : CheckNewSocket info sock_fd fdset maxsock newfd = some (next, after, calls)) :
    (calls = [] ∧ info = next ∧ (sock_fd ∈ fdset → newfd < 0)) ∨
    (calls = [.accept 0] ∧ info = next ∧ sock_fd ∈ fdset ∧ newfd = 0) ∨
    (calls = [.accept newfd] ∧ 0 < newfd ∧ info.connAmount + 1 < (MAX_CONNECT : Int) ∧
      next = { info with
        sockfd := match firstVacant info.sockfd with
          | some i => Function.update info.sockfd i newfd
          | none => info.sockfd
        connAmount := info.connAmount + 1 }) ∨
    (calls = [.accept newfd, .close .CheckNewSocket newfd] ∧ 0 < newfd ∧
      next = { info with connAmount := info.connAmount + 1 }) := by
  simp only [CheckNewSocket] at checked
  split at checked
  · rename_i unset
    cases checked
    exact .inl ⟨rfl, rfl, fun isSet => absurd isSet unset⟩
  · rename_i isSet
    split at checked
    · rename_i failed
      cases checked
      by_cases zero : newfd = 0
      · subst newfd
        exact .inr (.inl ⟨rfl, rfl, not_not.mp isSet, rfl⟩)
      · exact .inl ⟨if_neg zero, rfl, fun _ => lt_of_le_of_ne failed zero⟩
    · rename_i positive
      split at checked
      · cases checked
      · rename_i connAmount defined
        rw [int32_eq_some defined] at checked
        split at checked
        · rename_i room
          cases checked
          exact .inr (.inr (.inl ⟨rfl, not_le.mp positive, room, rfl⟩))
        · cases checked
          exact .inr (.inr (.inr ⟨rfl, not_le.mp positive, rfl⟩))

/-- The step in `CheckNewSocket`: a new client gets an entry or is closed at
once, unless its descriptor is 0. -/
theorem CheckNewSocket_decided {info next : NetServerInfo} {deinit : DeinitPc}
    {log : List Action} {sock_fd maxsock after newfd : Int} {fdset : Finset Int}
    {calls : List Syscall} (unused : newfd < 0 ∨ newfd ∉ held (clients log))
    (counted : (info.connected : Int) ≤ info.connAmount)
    (checked : CheckNewSocket info sock_fd fdset maxsock newfd = some (next, after, calls)) :
    let state : State := ⟨info, .server (.CheckNewSocket sock_fd maxsock fdset), deinit⟩
    Decided (held (clients log)) state ⟨next, .server (.SocketListen sock_fd after), deinit⟩
      (calls.map .call) (NothingLost state log (.task (.accept newfd))) := by
  intro state
  simp only [Decided, NothingLost, state]
  rcases CheckNewSocket_cases checked with ⟨rfl, rfl, failed⟩ | ⟨rfl, rfl, isSet, rfl⟩ |
    ⟨rfl, positive, room, rfl⟩ | ⟨rfl, positive, rfl⟩
  · exact .inl ⟨kept_idle rfl rfl rfl, fun isSet => (failed isSet).ne⟩
  · have fresh := unused.resolve_left (lt_irrefl 0)
    exact .inr ⟨lost_unstored fresh rfl rfl rfl, fun nonzero => nonzero isSet rfl⟩
  · have fresh := unused.resolve_left positive.not_gt
    have fits : info.connected < MAX_CONNECT - 1 := by
      simp only [MAX_CONNECT] at room ⊢
      omega
    obtain ⟨i, found⟩ := exists_firstVacant fits
    have used : newfd ≠ -1 := by omega
    refine .inl ⟨kept_store (i := i) (firstVacant_eq_some found).2 used fresh ?_ rfl rfl,
      fun _ => positive.ne'⟩
    simp only [State.live, found]
  · have fresh := unused.resolve_left positive.not_gt
    have used : newfd ≠ -1 := by omega
    refine .inl ⟨?_, fun _ => positive.ne'⟩
    have closes : clients [.call (.accept newfd), .call (.close .CheckNewSocket newfd)] =
        [.acquired newfd, .released newfd] := by
      simp [clients, Action.client, used]
    rw [Kept, List.map_cons, List.map_cons, List.map_nil, closes]
    exact .pass fresh

/-- The task is where its step neither reads, nor accepts, nor closes a client. -/
def Plain : Pc → Prop
  | .ReadHandle .. | .CheckNewSocket .. | .closing .. => False
  | _ => True

/-- The steps of the server task with its accesses to the table separated. -/
inductive Walks (answer : Answer) (deinit : DeinitPc) :
    State → List Action → State → Prop where
  | entry {info sock_fd maxsock fdset i} :
      Walks answer deinit ⟨info, .entry sock_fd maxsock fdset i, deinit⟩ []
        ⟨info, .server (.ReadHandle sock_fd maxsock fdset i (info.sockfd i)), deinit⟩
  | close {info sock_fd i} :
      Walks answer deinit ⟨info, .close sock_fd i, deinit⟩
        [.call (.close .SocketListen (info.sockfd i))] ⟨info, .clear sock_fd i, deinit⟩
  | clear {info sock_fd i} :
      Walks answer deinit ⟨info, .clear sock_fd i, deinit⟩ []
        ⟨{ info with sockfd := Function.update info.sockfd i (-1) },
          .server (.closing sock_fd (i + 1)), deinit⟩
  | keep {info sock_fd} {i : Fin MAX_CONNECT} :
      Walks answer deinit ⟨info, .server (.closing sock_fd i), deinit⟩ []
        ⟨info, .close sock_fd i, deinit⟩
  | pass {info sock_fd} {i : Fin MAX_CONNECT} : info.sockfd i = -1 →
      Walks answer deinit ⟨info, .server (.closing sock_fd i), deinit⟩ []
        ⟨info, .server (.closing sock_fd (i + 1)), deinit⟩
  | finish {info sock_fd i} : MAX_CONNECT ≤ i →
      Walks answer deinit ⟨info, .server (.closing sock_fd i), deinit⟩ []
        ⟨info, .server (.returned sock_fd), deinit⟩
  | handle {info next sock_fd maxsock fdset rest i fd chunk result calls} :
      answer = .recv chunk result →
      ReadHandle info i fd chunk result fdset = some (next, rest, calls) →
      Walks answer deinit ⟨info, .server (.ReadHandle sock_fd maxsock fdset i fd), deinit⟩
        (calls.map .call) ⟨next, .server (.scan sock_fd maxsock rest (i + 1)), deinit⟩
  | check {info next sock_fd maxsock fdset after newfd calls} :
      answer = .accept newfd →
      CheckNewSocket info sock_fd fdset maxsock newfd = some (next, after, calls) →
      Walks answer deinit ⟨info, .server (.CheckNewSocket sock_fd maxsock fdset), deinit⟩
        (calls.map .call) ⟨next, .server (.SocketListen sock_fd after), deinit⟩
  | plain {info next pc after calls} : Plain pc →
      Transition answer ⟨info, pc⟩ calls ⟨next, after⟩ →
      Walks answer deinit ⟨info, .server pc, deinit⟩ (calls.map .call)
        ⟨next, pause after, deinit⟩

theorem closingTest_walks {info : NetServerInfo} {answer : Answer} {deinit : DeinitPc}
    {sock_fd : Int} {i : Nat} :
    let state : State := ⟨info, .server (.closing sock_fd i), deinit⟩
    Walks answer deinit state [] { state with pc := closingTest state sock_fd i } := by
  intro state
  unfold closingTest
  by_cases inside : i < MAX_CONNECT
  · by_cases used : info.sockfd ⟨i, inside⟩ ≠ -1
    · rw [dif_pos inside, if_pos used]
      exact .keep (i := ⟨i, inside⟩)
    · rw [dif_pos inside, if_neg used]
      exact .pass (i := ⟨i, inside⟩) (not_not.mp used)
  · rw [dif_neg inside]
    exact .finish (not_lt.mp inside)

theorem listenerStep_walks {state next : State} {answer : Answer} {actions : List Action}
    (stepped : listenerStep state answer = some (next, actions)) :
    Walks answer state.deinit state actions next := by
  obtain ⟨info, pc, deinit⟩ := state
  cases pc with
  | entry sock_fd maxsock fdset i =>
      cases answer <;> cases stepped
      exact .entry
  | close sock_fd i =>
      cases answer <;> cases stepped
      exact .close
  | clear sock_fd i =>
      cases answer <;> cases stepped
      exact .clear
  | server pc =>
      cases pc with
      | closing sock_fd i =>
          cases answer <;> cases stepped
          exact closingTest_walks
      | ReadHandle sock_fd maxsock fdset i fd =>
          cases answer <;> simp only [listenerStep, threadStep, reduceCtorEq] at stepped
          rename_i chunk result
          cases handled : ReadHandle info i fd chunk result fdset with
          | none => simp [handled] at stepped
          | some outcome =>
              rw [handled] at stepped
              cases stepped
              exact .handle rfl handled
      | CheckNewSocket sock_fd maxsock fdset =>
          cases answer <;> simp only [listenerStep, threadStep, reduceCtorEq] at stepped
          rename_i newfd
          cases checked : CheckNewSocket info sock_fd fdset maxsock newfd with
          | none => simp [checked] at stepped
          | some outcome =>
              rw [checked] at stepped
              cases stepped
              exact .check rfl checked
      | _ =>
          simp only [listenerStep] at stepped
          split at stepped
          · cases stepped
          · rename_i taken
            cases stepped
            exact .plain trivial (threadStep_transition taken)

theorem transition_plain {answer : Answer} {before after : NetServer} {calls : List Syscall}
    (transition : Transition answer before calls after) (plain : Plain before.pc) :
    after.info.sockfd = before.info.sockfd ∧ after.info.connAmount = before.info.connAmount ∧
      ∀ call ∈ calls, call.Quiet := by
  cases transition with
  | rest outside quiet => exact ⟨rfl, rfl, quiet⟩
  | listen => exact ⟨rfl, rfl, by simp [Syscall.Quiet]⟩
  | leave => exact ⟨rfl, rfl, by simp [Syscall.Quiet]⟩
  | watch | stop | timeout | ready | skip | enter | scanned =>
      exact ⟨rfl, rfl, fun _ impossible => absurd impossible List.not_mem_nil⟩
  | _ => exact False.elim plain

section Pause

variable (info : NetServerInfo) (pc : Pc) (deinit : DeinitPc)

theorem pause_live : (⟨info, pause pc, deinit⟩ : State).live = info.sockfd := by
  cases pc <;> rfl

theorem pause_loose : (⟨info, pause pc, deinit⟩ : State).loose = -1 := by
  cases pc <;> rfl

theorem pause_placed (placed : NetServer.WellPlaced ⟨info, pc⟩) :
    (⟨info, pause pc, deinit⟩ : State).Placed := by
  cases pc <;> first | exact placed | trivial

end Pause

end Shutdown

end WifiIot.Server
