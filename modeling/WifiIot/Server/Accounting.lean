import WifiIot.Server.Transition

/-!
# The connection counter of the server

`connAmount` is a second copy of the table of clients.  It keeps the clients
that `CheckNewSocket` refuses and those that `SocketListen` closes when it
ends; on every other path the two agree.  So the counter is exact in a run if
and only if the run has no such client.
-/

namespace WifiIot.Server

/-- A client is closed without being taken off the counter. -/
def Syscall.uncounted : Syscall → Bool
  | .close .CheckNewSocket _ | .close .SocketListen _ => true
  | _ => false

def lost (log : List Syscall) : Nat := log.countP Syscall.uncounted

/-- The clients that the closing loop has still to close. -/
def NetServer.pending (server : NetServer) : Nat :=
  match server.pc with
  | .closing _ _ => server.info.connected
  | _ => 0

/-- A client is accepted only while fewer than nine are connected, and the
loop ends only when none is. -/
def ClientsFit (server : NetServer) (_log : List Syscall) (input : Answer ⊕ Api) : Prop :=
  match server.pc, input with
  | .CheckNewSocket sock_fd _ fdset, .inl (.accept newfd) =>
      sock_fd ∈ fdset → 0 < newfd → server.info.connected < MAX_CONNECT - 1
  | .SocketListen _ _, .inl .proceed =>
      server.info.serRun = false → server.info.connected = 0
  | _, _ => True

@[simp]
theorem lost_append (first second : List Syscall) :
    lost (first ++ second) = lost first + lost second := List.countP_append

@[simp]
theorem lost_nil : lost [] = 0 := rfl

theorem lost_eq_zero_of_quiet {calls : List Syscall} (quiet : ∀ call ∈ calls, call.Quiet) :
    lost calls = 0 := by
  apply List.countP_eq_zero.mpr
  intro call membership counted
  have silent := quiet call membership
  cases call <;> simp [Syscall.uncounted, Syscall.Quiet] at counted silent

/-- One step of the task keeps the difference between the counter and the
table equal to the clients lost. -/
theorem Transition.balance {answer : Answer} {before after : NetServer}
    {calls log : List Syscall} (transition : Transition answer before calls after)
    (placed : before.WellPlaced)
    (balance : before.info.connAmount = before.info.connected + lost log) :
    after.info.connAmount = after.info.connected + lost (log ++ calls) := by
  rw [lost_append]
  cases transition with
  | rest outside quiet =>
      rw [lost_eq_zero_of_quiet quiet]
      exact balance
  | request quiet =>
      rw [lost_eq_zero_of_quiet quiet]
      exact balance
  | @disconnect info sock_fd maxsock fdset rest i fd =>
      obtain ⟨entry, used⟩ : info.sockfd i = fd ∧ fd ≠ -1 := placed
      have fewer := Table.occupancy_clear (-1) info.sockfd i (by rw [entry]; exact used)
      have counted : lost [.close .ReadHandle fd] = 0 := rfl
      simp only [NetServerInfo.connected] at balance fewer ⊢
      omega
  | @promote info sock_fd maxsock fdset i fd chunk vacant special =>
      obtain ⟨entry, used⟩ : info.sockfd i = fd ∧ fd ≠ -1 := placed
      have same := Table.occupancy_move (-1) info.sockfd i 0 fd (by rw [entry]; exact used) vacant used
      have counted : lost [.recv fd chunk true] = 0 := rfl
      simp only [NetServerInfo.connected] at balance same ⊢
      omega
  | @accept info sock_fd maxsock fdset newfd sockfd answered positive isSet room stored =>
      have fits : info.connected < MAX_CONNECT - 1 := by
        simp only [MAX_CONNECT] at balance room ⊢
        omega
      obtain ⟨i, found⟩ := exists_firstVacant fits
      rw [found] at stored
      simp only at stored
      subst sockfd
      have more := Table.occupancy_store (-1) info.sockfd i newfd (firstVacant_eq_some found).2 (by omega)
      have counted : lost [.accept newfd] = 0 := rfl
      simp only [NetServerInfo.connected] at balance more ⊢
      omega
  | @refuse info sock_fd maxsock fdset newfd answered positive isSet full =>
      have counted : lost [.accept newfd, .close .CheckNewSocket newfd] = 1 := rfl
      simp only [NetServerInfo.connected] at balance ⊢
      omega
  | @drop info sock_fd i used =>
      have fewer := Table.occupancy_clear (-1) info.sockfd i used
      have counted : lost [.close .SocketListen (info.sockfd i)] = 1 := rfl
      simp only [NetServerInfo.connected] at balance fewer ⊢
      omega
  | _ => simpa [lost, Syscall.uncounted] using balance

theorem Transition.connected_le {answer : Answer} {before after : NetServer}
    {calls log : List Syscall} (transition : Transition answer before calls after)
    (placed : before.WellPlaced)
    (balance : before.info.connAmount = before.info.connected + lost log)
    (most : before.info.connected ≤ MAX_CONNECT - 1) :
    after.info.connected ≤ MAX_CONNECT - 1 := by
  have balanceAfter := transition.balance placed balance
  rw [lost_append] at balanceAfter
  cases transition with
  | accept answered positive isSet room stored =>
      simp only [MAX_CONNECT] at balanceAfter room ⊢
      omega
  | refuse => exact most
  | request quiet => exact most
  | @drop info sock_fd i used =>
      have counted : lost [.close .SocketListen (info.sockfd i)] = 1 := rfl
      simp only at balance balanceAfter most ⊢
      omega
  | _ =>
      simp only [lost, List.countP_cons, List.countP_nil, Syscall.uncounted] at balance balanceAfter most ⊢
      omega

structure Accounted (server : NetServer) (log : List Syscall) : Prop where
  placed : server.WellPlaced
  balance : server.info.connAmount = server.info.connected + lost log
  most : server.info.connected ≤ MAX_CONNECT - 1

theorem accounted_of_run {nEventCallback : Bool} {inputs : List (Answer ⊕ Api)}
    {server : NetServer} {log : List Syscall}
    (run : machine.Run (NetServerInit nEventCallback) inputs server log) :
    Accounted server log := by
  refine run.invariant Accounted ?_ ?_
  · have empty : (NetServerInit nEventCallback).info.connected = 0 :=
      Table.occupancy_eq_zero_iff.mpr fun _ => rfl
    exact ⟨wellPlaced_init _, by rw [empty]; rfl, by rw [empty]; omega⟩
  · intro server log input next calls accounted stepped
    have placed := wellPlaced_of_step stepped accounted.placed
    rcases machine_step_cases stepped with
      ⟨answer, -, transition⟩ | ⟨call, serRun, -, rfl, rfl⟩
    · exact ⟨placed, transition.balance accounted.placed accounted.balance,
        transition.connected_le accounted.placed accounted.balance accounted.most⟩
    · exact ⟨placed, by simpa [NetServerInfo.connected] using accounted.balance, accounted.most⟩

/-- From an exact counter, a step loses no client, now or in the closing loop
it enters, just when the clients fit. -/
theorem Transition.fit_iff {answer : Answer} {before after : NetServer}
    {calls log : List Syscall} (transition : Transition answer before calls after)
    (placed : before.WellPlaced)
    (balance : before.info.connAmount = before.info.connected + lost log) :
    lost log + before.pending = 0 ∧ ClientsFit before log (.inl answer) ↔
      lost (log ++ calls) + after.pending = 0 := by
  rw [lost_append]
  cases transition with
  | @rest info next serRun calls outside quiet =>
      rw [lost_eq_zero_of_quiet quiet]
      cases next <;> first | exact False.elim outside | simp [NetServer.pending, ClientsFit]
  | request quiet =>
      rw [lost_eq_zero_of_quiet quiet]
      simp [NetServer.pending, ClientsFit]
  | watch running => cases answer <;> simp [NetServer.pending, ClientsFit, running]
  | stop answered stopped =>
      subst answered
      simp [NetServer.pending, ClientsFit, stopped]
  | unready answered failed =>
      subst answered
      simp only [NetServer.pending, ClientsFit, lost_nil]
      have excluded := fun isSet => not_lt.mpr (failed isSet)
      tauto
  | zero answered =>
      subst answered
      simp [NetServer.pending, ClientsFit, lost, Syscall.uncounted]
  | @accept info sock_fd maxsock fdset newfd sockfd answered positive isSet room stored =>
      subst answered
      have counted : lost [.accept newfd] = 0 := rfl
      simp only [NetServer.pending, ClientsFit, MAX_CONNECT] at balance room ⊢
      constructor
      · rintro ⟨clean, -⟩
        omega
      · intro clean
        exact ⟨by omega, fun _ _ => by omega⟩
  | @refuse info sock_fd maxsock fdset newfd answered positive isSet full =>
      subst answered
      have counted : lost [.accept newfd, .close .CheckNewSocket newfd] = 1 := rfl
      simp only [NetServer.pending, ClientsFit, MAX_CONNECT] at balance full ⊢
      constructor
      · rintro ⟨clean, fits⟩
        have few := fits isSet positive
        omega
      · intro clean
        omega
  | @drop info sock_fd i used =>
      have fewer := Table.occupancy_clear (-1) info.sockfd i used
      have counted : lost [.close .SocketListen (info.sockfd i)] = 1 := rfl
      simp only [NetServer.pending, ClientsFit, NetServerInfo.connected] at fewer ⊢
      omega
  | @«return» info sock_fd i finished =>
      have empty : info.connected = 0 := Table.occupancy_eq_zero_iff.mpr fun j =>
        placed j (lt_of_lt_of_le j.isLt finished)
      simp [NetServer.pending, ClientsFit, empty]
  | _ => simp [NetServer.pending, ClientsFit, lost, Syscall.uncounted]

theorem meets_clientsFit_iff {nEventCallback : Bool} {inputs : List (Answer ⊕ Api)}
    {server : NetServer} {log : List Syscall}
    (run : machine.Run (NetServerInit nEventCallback) inputs server log) :
    machine.Meets ClientsFit (NetServerInit nEventCallback) inputs ↔
      lost log + server.pending = 0 := by
  induction run with
  | refl => simp [NetServer.pending, NetServerInit]
  | @snoc inputs server log input next calls before stepped inductionHypothesis =>
      rw [Machine.meets_snoc_iff before, inductionHypothesis]
      obtain ⟨placed, balance, -⟩ := accounted_of_run before
      rcases machine_step_cases stepped with
        ⟨answer, rfl, transition⟩ | ⟨call, serRun, rfl, rfl, rfl⟩
      · exact transition.fit_iff placed balance
      · obtain ⟨info, pc⟩ := server
        cases pc <;> simp [NetServer.pending, ClientsFit, NetServerInfo.connected]

theorem Accounted.nine_of_refused {server after : NetServer} {log calls : List Syscall}
    {newfd fd : Int} (accounted : Accounted server log) (clean : lost log = 0)
    (stepped : machine.step server (.inl (.accept newfd)) = some (after, calls))
    (refused : .close .CheckNewSocket fd ∈ calls) :
    fd = newfd ∧ server.info.connected = MAX_CONNECT - 1 := by
  obtain ⟨placed, balance, most⟩ := accounted
  rcases machine_step_cases stepped with ⟨answer, same, transition⟩ | ⟨call, _, same, _⟩
  · obtain rfl : Answer.accept newfd = answer := by simpa using same
    cases transition with
    | rest outside quiet => exact False.elim (quiet _ refused)
    | request quiet => exact False.elim (quiet _ refused)
    | @refuse info sock_fd maxsock fdset newfd' answered positive isSet full =>
        obtain rfl : newfd = newfd' := by simpa using answered
        simp only [MAX_CONNECT] at balance full most ⊢
        exact ⟨by simpa using refused, by omega⟩
    | _ => simp at refused
  · cases same

/-- At the top of the loop of `SocketListen` the counter is exact if and only
if the clients fitted in the run so far; and then `CheckNewSocket` closes a
fresh client only when nine others are connected. -/
theorem connAmount_exact_iff (nEventCallback : Bool) (inputs : List (Answer ⊕ Api))
    (server : NetServer) (log : List Syscall)
    (run : machine.Run (NetServerInit nEventCallback) inputs server log) :
    (∀ sock_fd maxsock, server.pc = .SocketListen sock_fd maxsock →
      (server.info.connAmount = server.info.connected ↔
        machine.Meets ClientsFit (NetServerInit nEventCallback) inputs)) ∧
    (machine.Meets ClientsFit (NetServerInit nEventCallback) inputs →
      ∀ newfd after calls fd,
        machine.step server (.inl (.accept newfd)) = some (after, calls) →
        .close .CheckNewSocket fd ∈ calls →
        fd = newfd ∧ server.info.connected = MAX_CONNECT - 1) := by
  have accounted := accounted_of_run run
  refine ⟨fun sock_fd maxsock top => ?_, fun met newfd after calls fd stepped refused => ?_⟩
  · have settled : server.pending = 0 := by rw [NetServer.pending, top]
    rw [meets_clientsFit_iff run, settled, accounted.balance]
    omega
  · have clean : lost log = 0 := by
      have total := (meets_clientsFit_iff run).mp met
      omega
    exact accounted.nine_of_refused clean stepped refused

def visit : List (Answer ⊕ Api) :=
  [.inr .NetServerStart, .inl (.socket 3 true), .inl .proceed, .inl (.select {3})] ++
    List.replicate 11 (.inl .proceed) ++
    [.inl (.accept 4), .inl .proceed, .inl (.select {4}), .inl .proceed, .inl .proceed,
      .inl (.recv [] 0)] ++
    List.replicate 9 (.inl .proceed) ++ [.inl (.accept (-1))]

theorem connAmount_exact_visit :
    ∃ server log, machine.Run (NetServerInit true) visit server log ∧
      server.info.connAmount = 0 ∧ machine.Meets ClientsFit (NetServerInit true) visit := by
  obtain ⟨server, log, run, seen⟩ := machine.exists_run_of_exec
    (fun result => (result.1.pc, result.1.info.connAmount, result.1.info.connected))
    (NetServerInit true) visit (.SocketListen 3 4, 0, 0) (by decide +kernel)
  simp only [Prod.mk.injEq] at seen
  obtain ⟨top, amount, connected⟩ := seen
  exact ⟨server, log, run, amount,
    ((connAmount_exact_iff true visit server log run).1 3 4 top).mp (by rw [amount, connected]; rfl)⟩

/-- Client 4 connects and the server is stopped, with the client connected. -/
def strandedRound : List (Answer ⊕ Api) :=
  [.inr .NetServerStart, .inl (.socket 3 true), .inl .proceed, .inl (.select {3})] ++
    List.replicate 11 (.inl .proceed) ++ [.inl (.accept 4), .inr .NetServerStop] ++
    List.replicate 13 (.inl .proceed)

/-- After nine such rounds the counter is 9 with no client connected, and the
next client is turned away. -/
theorem connAmount_drifts :
    ∃ top check log later, machine.Run (NetServerInit true)
        ((List.replicate 9 strandedRound).flatten ++
          [.inr .NetServerStart, .inl (.socket 3 true)]) top log ∧
      top.pc = .SocketListen 3 3 ∧ top.info.connAmount = 9 ∧ top.info.connected = 0 ∧
      machine.Run top ([.inl .proceed, .inl (.select {3})] ++
        List.replicate 11 (.inl .proceed)) check later ∧
      check.info.connected = 0 ∧
      (machine.step check (.inl (.accept 4))).map Prod.snd =
        some [.accept 4, .close .CheckNewSocket 4] := by
  obtain ⟨check, whole, run, seen⟩ := machine.exists_run_of_exec
    (fun result => (result.1.info.connected,
      (machine.step result.1 (.inl (.accept 4))).map Prod.snd))
    (NetServerInit true)
    (((List.replicate 9 strandedRound).flatten ++
      [.inr .NetServerStart, .inl (.socket 3 true)]) ++
      ([.inl .proceed, .inl (.select {3})] ++ List.replicate 11 (.inl .proceed)))
    (0, some [.accept 4, .close .CheckNewSocket 4]) (by decide +kernel)
  obtain ⟨top, log, later, toTop, toCheck, -⟩ := run.split
  obtain ⟨top', log', run', seen'⟩ := machine.exists_run_of_exec
    (fun result => (result.1.pc, result.1.info.connAmount, result.1.info.connected))
    (NetServerInit true)
    ((List.replicate 9 strandedRound).flatten ++
      [.inr .NetServerStart, .inl (.socket 3 true)])
    (.SocketListen 3 3, 9, 0) (by decide +kernel)
  obtain ⟨rfl, rfl⟩ := toTop.deterministic run'
  simp only [Prod.mk.injEq] at seen seen'
  exact ⟨top, check, log, later, toTop, seen'.1, seen'.2.1, seen'.2.2, toCheck, seen.1, seen.2⟩

end WifiIot.Server
