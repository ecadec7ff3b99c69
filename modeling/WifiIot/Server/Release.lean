import WifiIot.Machine.Throughout
import WifiIot.Server.Shutdown

/-!
# Which clients a shutdown releases

Every client that is open stands in the table or is the one the server task is
just reading from, unless a step lost it.  The counter `connAmount` never falls
below the clients in the table, so a new client always finds an entry.
-/

namespace WifiIot.Server.Shutdown

open Ledger

/-! ## The counter covers the table -/

def ListenerPc.reads : ListenerPc → Option (Fin MAX_CONNECT)
  | .entry _ _ _ i | .server (.ReadHandle _ _ _ i _) => some i
  | _ => none

/-- The table, with the entry counted that the server task is reading from. -/
def State.served (state : State) : Fin MAX_CONNECT → Int :=
  match state.pc.reads with
  | some i => Function.update state.info.sockfd i 0
  | none => state.info.sockfd

theorem served_eq_vacant (state : State) (j : Fin MAX_CONNECT) :
    state.served j = -1 ↔ state.pc.reads ≠ some j ∧ state.info.sockfd j = -1 := by
  unfold State.served
  cases state.pc.reads with
  | none => simp
  | some i =>
      by_cases here : j = i
      · simp [here]
      · simp [here, Ne.symm here]

def State.Counted (state : State) : Prop :=
  (Table.occupancy (-1) state.served : Int) ≤ state.info.connAmount

/-- Entries are cleared, and the server task stays where it is. -/
structure Cleared (state next : State) : Prop where
  pc : next.pc = state.pc
  connAmount : next.info.connAmount = state.info.connAmount
  entries : ∀ i, next.info.sockfd i = state.info.sockfd i ∨ next.info.sockfd i = -1

theorem Cleared.vacant {state next : State} (cleared : Cleared state next) {i : Fin MAX_CONNECT}
    (vacant : state.info.sockfd i = -1) : next.info.sockfd i = -1 :=
  (cleared.entries i).elim (fun same => same.trans vacant) id

theorem Cleared.placed {state next : State} (cleared : Cleared state next)
    (placed : state.Placed) : next.Placed := by
  unfold State.Placed at placed ⊢
  rw [cleared.pc]
  cases reached : state.pc with
  | entry sock_fd maxsock fdset i => trivial
  | close sock_fd i | clear sock_fd i =>
      rw [reached] at placed
      exact fun j earlier => cleared.vacant (placed j earlier)
  | server pc =>
      rw [reached] at placed
      cases pc with
      | ReadHandle sock_fd maxsock fdset i fd =>
          rcases cleared.entries i with same | vacant
          · change next.info.sockfd i = fd ∨ next.info.sockfd i = -1
            rw [same]
            exact placed
          · exact .inr vacant
      | closing sock_fd i => exact fun j earlier => cleared.vacant (placed j earlier)
      | NetServerTask | returned | exited => exact fun j => cleared.vacant (placed j)
      | _ => trivial

theorem Cleared.counted {state next : State} (cleared : Cleared state next)
    (counted : state.Counted) : next.Counted := by
  have fewer : Table.occupancy (-1) next.served ≤ Table.occupancy (-1) state.served := by
    apply Table.occupancy_mono
    intro j vacant
    rw [served_eq_vacant] at vacant ⊢
    rw [cleared.pc]
    exact ⟨vacant.1, cleared.vacant vacant.2⟩
  unfold State.Counted at counted ⊢
  rw [cleared.connAmount]
  omega

theorem NetServerDeinit_cleared {state next : State} {actions : List Action}
    (stepped : NetServerDeinit state = some (next, actions)) : Cleared state next := by
  have unchanged : ∀ i, state.info.sockfd i = state.info.sockfd i ∨ state.info.sockfd i = -1 :=
    fun _ => .inl rfl
  unfold NetServerDeinit at stepped
  split at stepped
  · cases stepped
    exact ⟨rfl, rfl, unchanged⟩
  · cases stepped
    exact ⟨rfl, rfl, unchanged⟩
  · cases stepped
    exact ⟨rfl, rfl, unchanged⟩
  · rename_i i _
    cases stepped
    refine ⟨rfl, rfl, fun j => ?_⟩
    by_cases here : j = i
    · exact .inr (by simp [here])
    · exact .inl (Function.update_of_ne here ..)
  · cases stepped
    exact ⟨rfl, rfl, unchanged⟩
  · cases stepped

/-! ## The invariant -/

structure Sound (state : State) (log : List Action) : Prop where
  custody : Custody (-1) state.owned (clients log)
  placed : state.Placed
  counted : state.Counted

theorem sound_start (nEventCallback : Bool) : Sound (start nEventCallback) [] where
  custody := .empty fun owner => by cases owner <;> rfl
  placed := fun _ => rfl
  counted := by
    have vacant : Table.occupancy (-1) (start nEventCallback).served = 0 :=
      Table.occupancy_eq_zero_iff.mpr fun _ => rfl
    rw [State.Counted, vacant]
    rfl

theorem Walks.placed {answer : Answer} {deinit : DeinitPc} {state next : State}
    {actions : List Action} (walks : Walks answer deinit state actions next)
    (placed : state.Placed) : next.Placed := by
  cases walks with
  | entry => exact .inl rfl
  | close => exact placed
  | @clear info sock_fd i =>
      intro j earlier
      by_cases here : j = i
      · simp [here]
      · have different : j.val ≠ i.val := fun same => here (Fin.ext same)
        have before : info.sockfd j = -1 := placed j (by omega)
        simpa [here] using before
  | keep => exact placed
  | @pass info sock_fd i vacant =>
      intro j earlier
      by_cases here : j = i
      · exact here ▸ vacant
      · have different : j.val ≠ i.val := fun same => here (Fin.ext same)
        exact placed j (by omega)
  | finish finished => exact fun j => placed j (lt_of_lt_of_le j.isLt finished)
  | handle => trivial
  | check => trivial
  | @plain info next pc after calls plain transition =>
      apply pause_placed
      apply transition.wellPlaced
      cases pc <;> first | exact placed | exact False.elim plain

theorem Walks.counted {answer : Answer} {deinit : DeinitPc} {state next : State}
    {actions : List Action} (walks : Walks answer deinit state actions next)
    (counted : state.Counted) : next.Counted := by
  cases walks with
  | entry => exact counted
  | close => exact counted
  | keep => exact counted
  | pass vacant => exact counted
  | finish finished => exact counted
  | @clear info sock_fd i =>
      have fewer : Table.occupancy (-1) (Function.update info.sockfd i (-1)) ≤
          Table.occupancy (-1) info.sockfd := Table.occupancy_update_le fun _ => rfl
      simp only [State.Counted, State.served, ListenerPc.reads] at counted ⊢
      omega
  | @handle info next sock_fd maxsock fdset rest i fd chunk result calls answered handled =>
      -- `connAmount` counts the client of the entry, cleared or not.
      have others := Table.occupancy_store (-1) (Function.update info.sockfd i (-1)) i 0
        (Function.update_self ..) (by decide)
      rw [Function.update_idem] at others
      rcases ReadHandle_cases handled with ⟨-, -, rfl⟩ | ⟨-, -, -, -, rfl⟩ | ⟨-, -, -, rfl⟩
      · simp only [State.Counted, State.served, ListenerPc.reads] at counted ⊢
        omega
      · have most := Table.occupancy_update_le_succ (-1) (Function.update info.sockfd i (-1)) 0 fd
        simp only [State.Counted, State.served, ListenerPc.reads] at counted ⊢
        omega
      · have fewer : Table.occupancy (-1) info.sockfd ≤
            Table.occupancy (-1) (Function.update info.sockfd i 0) := by
          apply Table.occupancy_le_update
          intro impossible
          exact absurd impossible (by decide)
        simp only [State.Counted, State.served, ListenerPc.reads] at counted ⊢
        omega
  | @check info next sock_fd maxsock fdset after newfd calls answered checked =>
      simp only [State.Counted, State.served, ListenerPc.reads] at counted ⊢
      rcases CheckNewSocket_cases checked with ⟨-, rfl, -⟩ | ⟨-, rfl, -, -⟩ |
        ⟨-, positive, room, rfl⟩ | ⟨-, positive, rfl⟩
      · exact counted
      · exact counted
      · have fits : info.connected < MAX_CONNECT - 1 := by
          simp only [MAX_CONNECT, NetServerInfo.connected] at room ⊢
          omega
        obtain ⟨i, found⟩ := exists_firstVacant fits
        have more := Table.occupancy_store (-1) info.sockfd i newfd (firstVacant_eq_some found).2
          (by omega)
        simp only [found]
        omega
      · change (Table.occupancy (-1) info.sockfd : Int) ≤ info.connAmount + 1
        omega
  | @plain info next pc after calls plain transition =>
      obtain ⟨sockfd, connAmount, -⟩ := transition_plain transition plain
      have before : (Table.occupancy (-1) info.sockfd : Int) ≤ info.connAmount := by
        cases pc <;> first | exact counted | exact False.elim plain
      simp only at sockfd connAmount
      rw [← sockfd, ← connAmount] at before
      cases transition with
      | @enter info sock_fd maxsock fdset i used =>
          -- The entry read is in use, and counted so far as a part of the table.
          have same : Table.occupancy (-1) (Function.update info.sockfd i 0) ≤
              Table.occupancy (-1) info.sockfd :=
            Table.occupancy_update_le fun vacant => absurd vacant used
          simp only [State.Counted, State.served, ListenerPc.reads, pause] at before ⊢
          omega
      | rest outside quiet =>
          cases after <;> first | exact before | exact False.elim outside
      | listen | watch | stop | timeout | ready | skip | scanned | leave => exact before
      | _ => exact False.elim plain

theorem Walks.decided {answer : Answer} {deinit : DeinitPc} {state next : State}
    {log actions : List Action} (walks : Walks answer deinit state actions next)
    (sound : Sound state log) (unused : AcceptUnused state log (.task answer)) :
    Decided (held (clients log)) state next actions (NothingLost state log (.task answer)) := by
  cases walks with
  | @entry info sock_fd maxsock fdset i =>
      refine .inl ⟨kept_idle rfl ?_ rfl, by cases answer <;> trivial⟩
      simp only [State.loose]
      split
      · assumption
      · rfl
  | @close info sock_fd i =>
      refine .inl ⟨?_, by cases answer <;> trivial⟩
      by_cases used : info.sockfd i = -1
      · refine kept_idle ?_ rfl ?_
        · simp only [State.live]
          rw [← used, Function.update_eq_self]
        · simp [clients, Action.client, used]
      · refine kept_release (i := i) used rfl rfl ?_
        simp [clients, Action.client, used, State.live]
  | clear => exact .inl ⟨kept_idle rfl rfl rfl, by cases answer <;> trivial⟩
  | keep => exact .inl ⟨kept_idle rfl rfl rfl, by cases answer <;> trivial⟩
  | pass vacant => exact .inl ⟨kept_idle rfl rfl rfl, by cases answer <;> trivial⟩
  | finish finished => exact .inl ⟨kept_idle rfl rfl rfl, by cases answer <;> trivial⟩
  | handle answered handled =>
      subst answered
      exact ReadHandle_decided sound.placed handled
  | check answered checked =>
      subst answered
      exact CheckNewSocket_decided unused sound.counted checked
  | @plain info next pc after calls plain transition =>
      obtain ⟨sockfd, -, quiet⟩ := transition_plain transition plain
      refine .inl ⟨kept_idle ?_ ?_ (clients_of_quiet quiet), ?_⟩
      · rw [pause_live, sockfd]
        cases pc <;> rfl
      · rw [pause_loose]
        cases pc <;> first | rfl | exact False.elim plain
      · cases pc <;> cases answer <;> trivial

theorem decided_of_step {state next : State} {log actions : List Action} {move : Move}
    (sound : Sound state log) (unused : AcceptUnused state log move)
    (stepped : machine.step state move = some (next, actions)) :
    Decided (held (clients log)) state next actions (NothingLost state log move) := by
  cases move with
  | task answer => exact (listenerStep_walks stepped).decided sound unused
  | deinit => exact NetServerDeinit_decided sound.placed stepped
  | api call =>
      obtain ⟨rfl, rfl⟩ := Prod.mk.inj (Option.some.inj stepped)
      exact .inl ⟨by cases call <;> exact kept_idle rfl rfl rfl, trivial⟩

/-- A step keeps the invariant, and the server task goes on to know every open
client just when the step loses none. -/
theorem sound_of_step {state next : State} {log actions : List Action} {move : Move}
    (sound : Sound state log) (unused : AcceptUnused state log move)
    (stepped : machine.step state move = some (next, actions)) :
    Sound next (log ++ actions) ∧
      (Table.Represents (-1) next.owned (held (clients (log ++ actions))) ↔
        Table.Represents (-1) state.owned (held (clients log)) ∧ NothingLost state log move) := by
  have custody : Custody (-1) next.owned (clients log ++ clients actions) ∧
      (Table.Represents (-1) next.owned (held (clients log ++ clients actions)) ↔
        Table.Represents (-1) state.owned (held (clients log)) ∧ NothingLost state log move) := by
    rcases decided_of_step sound unused stepped with ⟨kept, condition⟩ | ⟨lost, violated⟩
    · obtain ⟨custody, same⟩ := sound.custody.keep kept
      exact ⟨custody, same.trans (and_iff_left condition).symm⟩
    · obtain ⟨custody, gone⟩ := sound.custody.lose lost
      exact ⟨custody, iff_of_false gone fun both => violated both.2⟩
  have steady : next.Placed ∧ next.Counted := by
    cases move with
    | task answer =>
        have walks := listenerStep_walks stepped
        exact ⟨walks.placed sound.placed, walks.counted sound.counted⟩
    | deinit =>
        have cleared := NetServerDeinit_cleared stepped
        exact ⟨cleared.placed sound.placed, cleared.counted sound.counted⟩
    | api call =>
        obtain ⟨rfl, rfl⟩ := Prod.mk.inj (Option.some.inj stepped)
        have cleared : Cleared state (apiStep state call) := by
          cases call <;> exact ⟨rfl, rfl, fun _ => .inl rfl⟩
        exact ⟨cleared.placed sound.placed, cleared.counted sound.counted⟩
  rw [clients_append]
  exact ⟨⟨by rw [clients_append]; exact custody.1, steady.1, steady.2⟩, custody.2⟩

section Runs

variable {nEventCallback : Bool} {inputs : List Move} {state : State} {log : List Action}

theorem sound_of_run (run : machine.Run (start nEventCallback) inputs state log)
    (unused : machine.Meets AcceptUnused (start nEventCallback) inputs) : Sound state log := by
  refine run.invariant_of_meets Sound (sound_start nEventCallback) ?_ unused
  intro state log move next actions sound fresh stepped
  exact (sound_of_step sound fresh stepped).1

theorem represents_iff_nothingLost
    (run : machine.Run (start nEventCallback) inputs state log)
    (unused : machine.Meets AcceptUnused (start nEventCallback) inputs) :
    Table.Represents (-1) state.owned (held (clients log)) ↔
      machine.Meets NothingLost (start nEventCallback) inputs := by
  have initially : Table.Represents (-1) (start nEventCallback).owned (held (clients [])) :=
    .empty fun owner => by cases owner <;> rfl
  apply run.property_iff_meets_of_meets Sound ⟨sound_start nEventCallback, initially⟩ ?_ ?_ unused
  · intro state log move next actions sound fresh stepped
    exact (sound_of_step sound fresh stepped).1
  · intro state log move next actions sound fresh stepped
    exact (sound_of_step sound fresh stepped).2

theorem owned_of_exited (placed : state.Placed) (exited : state.pc = .server .exited)
    (owner : Option (Fin MAX_CONNECT)) : state.owned owner = -1 := by
  obtain ⟨info, pc, deinit⟩ := state
  subst exited
  cases owner with
  | none => rfl
  | some i => exact placed i

/-- When `NetServerTask` has ended, every client ever accepted has been closed,
and closed once, exactly if no step of the run lost a client: `NetServerDeinit`
does not close what it takes out of the table. -/
theorem connections_released_iff
    (run : machine.Run (start nEventCallback) inputs state log)
    (unused : machine.Meets AcceptUnused (start nEventCallback) inputs)
    (exited : state.pc = .server .exited) :
    Disciplined (clients log) ∧ held (clients log) = ∅ ↔
      machine.Meets NothingLost (start nEventCallback) inputs := by
  have sound := sound_of_run run unused
  have vacant : Table.Represents (-1) state.owned ∅ :=
    .empty (owned_of_exited sound.placed exited)
  rw [← represents_iff_nothingLost run unused, vacant.iff_eq, and_iff_right sound.custody.disciplined]
  exact eq_comm

end Runs

/-! ## Two runs with one client -/

def connect : List Move :=
  [.api .NetServerStart, .task (.socket 3 true), .task .proceed, .task (.select {3})] ++
    List.replicate 11 (.task .proceed) ++ [.task (.accept 4)]

/-- The server task leaves `SocketListen`. -/
def leave (steps : Nat) : List Move := List.replicate steps (.task .proceed)

def deinit : List Move := List.replicate 13 .deinit ++ [.task .proceed]

/-- The server is stopped first, and `NetServerDeinit` finds no client. -/
theorem connections_released_stopped :
    ∃ state log, machine.Run (start true) (connect ++ [.api .NetServerStop] ++ leave 15 ++ deinit)
        state log ∧
      clients log = [.acquired 4, .released 4] ∧
      Disciplined (clients log) ∧ held (clients log) = ∅ := by
  obtain ⟨state, log, run, seen⟩ := machine.exists_run_of_exec
    (fun result => (decide (result.1.pc = .server .exited), clients result.2)) (start true)
    (connect ++ [.api .NetServerStop] ++ leave 15 ++ deinit)
    (true, [.acquired 4, .released 4]) (by decide +kernel)
  obtain ⟨exited, seen⟩ := Prod.mk.inj seen
  refine ⟨state, log, run, seen,
    (connections_released_iff run ?_ (of_decide_eq_true exited)).mpr ?_⟩
  · exact Machine.meets_of_meetsFrom (fun state log move => decide (AcceptUnused state log move))
      (fun _ _ _ passed => of_decide_eq_true passed) (by decide +kernel)
  · exact Machine.meets_of_meetsFrom (fun state log move => decide (NothingLost state log move))
      (fun _ _ _ passed => of_decide_eq_true passed) (by decide +kernel)

/-- `NetServerDeinit` shuts the client down and clears its entry; nobody ever
closes it. -/
theorem connection_never_closed :
    let moves := connect ++ List.replicate 15 .deinit ++ leave 14
    ∃ state log, machine.Run (start true) moves state log ∧
      machine.Meets AcceptUnused (start true) moves ∧
      state.pc = .server .exited ∧ state.deinit = .returned ∧
      clients log = [.acquired 4] ∧ .shutdown 4 ∈ log ∧ held (clients log) ≠ ∅ := by
  intro moves
  obtain ⟨state, log, run, seen⟩ := machine.exists_run_of_exec
    (fun result => (decide (result.1.pc = .server .exited ∧ result.1.deinit = .returned ∧
      .shutdown 4 ∈ result.2), clients result.2)) (start true)
    (connect ++ List.replicate 15 .deinit ++ leave 14) (true, [.acquired 4]) (by decide +kernel)
  obtain ⟨done, seen⟩ := Prod.mk.inj seen
  obtain ⟨exited, returned, shutdown⟩ := of_decide_eq_true done
  refine ⟨state, log, run, ?_, exited, returned, seen, shutdown, ?_⟩
  · exact Machine.meets_of_meetsFrom (fun state log move => decide (AcceptUnused state log move))
      (fun _ _ _ passed => of_decide_eq_true passed) (by decide +kernel)
  · rw [show clients log = [.acquired 4] from seen]
    decide

end WifiIot.Server.Shutdown
