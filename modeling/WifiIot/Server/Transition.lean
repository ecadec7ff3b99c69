import WifiIot.Server.Basic

/-!
# What a step of the server task can do

`Transition` lists the steps by their effect on the table of clients.  Every
invariant of the server is proved from it, never from the step function.
-/

namespace WifiIot.Server

/-- The task is outside `SocketListen`. -/
def Pc.Outside : Pc → Prop
  | .NetServerTask | .returned _ | .exited => True
  | _ => False

/-- The largest descriptor `SocketListen` has seen, while its loop runs. -/
def Pc.maxsock? : Pc → Option Int
  | .SocketListen _ maxsock | .select _ maxsock _ | .scan _ maxsock _ _
  | .ReadHandle _ maxsock _ _ _ | .CheckNewSocket _ maxsock _ => some maxsock
  | _ => none

/-- A socket call that neither opens nor closes a client. -/
def Syscall.Quiet : Syscall → Prop
  | .listen _ | .unlisten _ | .recv .. | .send .. => True
  | _ => False

/-- The steps of the server task; `calls` are the socket calls it makes. -/
inductive Transition (answer : Answer) :
    NetServer → List Syscall → NetServer → Prop where
  | rest {info next serRun calls} : next.Outside → (∀ call ∈ calls, call.Quiet) →
      Transition answer ⟨info, .NetServerTask⟩ calls ⟨{ info with serRun := serRun }, next⟩
  | listen {info sock_fd} :
      Transition answer ⟨info, .NetServerTask⟩ [.listen sock_fd]
        ⟨info, .SocketListen sock_fd sock_fd⟩
  | watch {info sock_fd maxsock} : info.serRun = true →
      Transition answer ⟨info, .SocketListen sock_fd maxsock⟩ []
        ⟨info, .select sock_fd maxsock (watched info sock_fd)⟩
  | stop {info sock_fd maxsock} : answer = .proceed → info.serRun = false →
      Transition answer ⟨info, .SocketListen sock_fd maxsock⟩ [] ⟨info, .closing sock_fd 0⟩
  | timeout {info sock_fd maxsock fdset} :
      Transition answer ⟨info, .select sock_fd maxsock fdset⟩ []
        ⟨info, .SocketListen sock_fd maxsock⟩
  | ready {info sock_fd maxsock fdset selected} :
      Transition answer ⟨info, .select sock_fd maxsock fdset⟩ []
        ⟨info, .scan sock_fd maxsock selected 0⟩
  | skip {info sock_fd maxsock fdset i} :
      Transition answer ⟨info, .scan sock_fd maxsock fdset i⟩ []
        ⟨info, .scan sock_fd maxsock fdset (i + 1)⟩
  | enter {info sock_fd maxsock fdset} {i : Fin MAX_CONNECT} : info.sockfd i ≠ -1 →
      Transition answer ⟨info, .scan sock_fd maxsock fdset i⟩ []
        ⟨info, .ReadHandle sock_fd maxsock fdset i (info.sockfd i)⟩
  | scanned {info sock_fd maxsock fdset i} :
      Transition answer ⟨info, .scan sock_fd maxsock fdset i⟩ []
        ⟨info, .CheckNewSocket sock_fd maxsock fdset⟩
  | disconnect {info sock_fd maxsock fdset rest i fd} :
      Transition answer ⟨info, .ReadHandle sock_fd maxsock fdset i fd⟩ [.close .ReadHandle fd]
        ⟨{ info with
            sockfd := Function.update info.sockfd i (-1)
            connAmount := info.connAmount - 1 }, .scan sock_fd maxsock rest (i + 1)⟩
  | promote {info sock_fd maxsock fdset i fd chunk} : info.sockfd 0 = -1 →
      IsSpecialSocket (cString chunk) = true →
      Transition answer ⟨info, .ReadHandle sock_fd maxsock fdset i fd⟩ [.recv fd chunk true]
        ⟨{ info with sockfd := Function.update (Function.update info.sockfd i (-1)) 0 fd },
          .scan sock_fd maxsock fdset (i + 1)⟩
  | request {info sock_fd maxsock fdset i fd calls} : (∀ call ∈ calls, call.Quiet) →
      Transition answer ⟨info, .ReadHandle sock_fd maxsock fdset i fd⟩ calls
        ⟨info, .scan sock_fd maxsock fdset (i + 1)⟩
  | unready {info sock_fd maxsock fdset newfd} : answer = .accept newfd →
      (sock_fd ∈ fdset → newfd ≤ 0) →
      Transition answer ⟨info, .CheckNewSocket sock_fd maxsock fdset⟩ []
        ⟨info, .SocketListen sock_fd maxsock⟩
  | zero {info sock_fd maxsock fdset} : answer = .accept 0 →
      Transition answer ⟨info, .CheckNewSocket sock_fd maxsock fdset⟩ [.accept 0]
        ⟨info, .SocketListen sock_fd maxsock⟩
  | accept {info : NetServerInfo} {sock_fd maxsock fdset newfd sockfd} : answer = .accept newfd → 0 < newfd →
      sock_fd ∈ fdset → info.connAmount + 1 < (MAX_CONNECT : Int) →
      (match firstVacant info.sockfd with
        | some i => sockfd = Function.update info.sockfd i newfd
        | none => sockfd = info.sockfd) →
      Transition answer ⟨info, .CheckNewSocket sock_fd maxsock fdset⟩ [.accept newfd]
        ⟨{ info with sockfd := sockfd, connAmount := info.connAmount + 1 },
          .SocketListen sock_fd (max maxsock newfd)⟩
  | refuse {info : NetServerInfo} {sock_fd maxsock fdset newfd} : answer = .accept newfd → 0 < newfd →
      sock_fd ∈ fdset → (MAX_CONNECT : Int) ≤ info.connAmount + 1 →
      Transition answer ⟨info, .CheckNewSocket sock_fd maxsock fdset⟩
        [.accept newfd, .close .CheckNewSocket newfd]
        ⟨{ info with connAmount := info.connAmount + 1 }, .SocketListen sock_fd maxsock⟩
  | drop {info sock_fd} {i : Fin MAX_CONNECT} : info.sockfd i ≠ -1 →
      Transition answer ⟨info, .closing sock_fd i⟩ [.close .SocketListen (info.sockfd i)]
        ⟨{ info with sockfd := Function.update info.sockfd i (-1) }, .closing sock_fd (i + 1)⟩
  | pass {info sock_fd} {i : Fin MAX_CONNECT} : info.sockfd i = -1 →
      Transition answer ⟨info, .closing sock_fd i⟩ [] ⟨info, .closing sock_fd (i + 1)⟩
  | «return» {info sock_fd i} : MAX_CONNECT ≤ i →
      Transition answer ⟨info, .closing sock_fd i⟩ [] ⟨info, .returned sock_fd⟩
  | leave {info sock_fd} :
      Transition answer ⟨info, .returned sock_fd⟩ [.unlisten sock_fd] ⟨info, .NetServerTask⟩

section Steps

variable {info next : NetServerInfo} {sock_fd maxsock : Int} {fdset : Finset Int}
  {answer : Answer} {after : NetServer} {calls : List Syscall}

theorem taskStep_transition (stepped : taskStep info answer = some (after, calls)) :
    Transition answer ⟨info, .NetServerTask⟩ calls after := by
  cases answer with
  | proceed =>
      simp only [taskStep] at stepped
      split at stepped
      · cases stepped
        exact .rest trivial (by simp)
      · split at stepped
        · cases stepped
          exact .rest trivial (by simp)
        · cases stepped
  | socket sockfd setup =>
      simp only [taskStep] at stepped
      split at stepped
      · cases stepped
      · split at stepped
        · cases stepped
          exact .rest trivial (by simp)
        · split at stepped
          · cases stepped
            exact .rest trivial (by simp [Syscall.Quiet])
          · cases stepped
            exact .listen
  | select ready => cases stepped
  | recv chunk result => cases stepped
  | accept newfd => cases stepped

theorem selectStep_transition {ready : Finset Int}
    (stepped : selectStep info sock_fd maxsock fdset ready = (after, calls)) :
    Transition answer ⟨info, .select sock_fd maxsock fdset⟩ calls after := by
  simp only [selectStep] at stepped
  split at stepped
  · cases stepped
    exact .timeout
  · cases stepped
    exact .ready

theorem scanStep_transition {i : Nat}
    (stepped : scanStep info sock_fd maxsock fdset i = (after, calls)) :
    Transition answer ⟨info, .scan sock_fd maxsock fdset i⟩ calls after := by
  simp only [scanStep] at stepped
  split at stepped
  · rename_i inside
    split at stepped
    · rename_i ready
      cases stepped
      exact .enter (i := ⟨i, inside⟩) ready.1
    · cases stepped
      exact .skip
  · cases stepped
    exact .scanned

theorem closingStep_transition {i : Nat}
    (stepped : closingStep info sock_fd i = (after, calls)) :
    Transition answer ⟨info, .closing sock_fd i⟩ calls after := by
  simp only [closingStep] at stepped
  split at stepped
  · rename_i inside
    split at stepped
    · rename_i used
      cases stepped
      exact .drop (i := ⟨i, inside⟩) used
    · rename_i unused
      cases stepped
      exact .pass (i := ⟨i, inside⟩) (not_not.mp unused)
  · rename_i outside
    cases stepped
    exact .return (not_lt.mp outside)

theorem ReadHandle_transition {i : Fin MAX_CONNECT} {fd result : Int} {chunk : List UInt8}
    {rest : Finset Int}
    (handled : ReadHandle info i fd chunk result fdset = some (next, rest, calls)) :
    Transition answer ⟨info, .ReadHandle sock_fd maxsock fdset i fd⟩ calls
      ⟨next, .scan sock_fd maxsock rest (i + 1)⟩ := by
  simp only [ReadHandle] at handled
  split at handled
  · split at handled
    · cases handled
    · rename_i connAmount defined
      cases handled
      rw [int32_eq_some defined]
      exact .disconnect
  · split at handled
    · rename_i special
      cases handled
      exact .promote special.1 special.2
    · cases handled
      exact .request (by simp [Syscall.Quiet, SendRequest])

theorem CheckNewSocket_transition {newfd maxsock' : Int}
    (checked : CheckNewSocket info sock_fd fdset maxsock newfd = some (next, maxsock', calls)) :
    Transition (.accept newfd) ⟨info, .CheckNewSocket sock_fd maxsock fdset⟩ calls
      ⟨next, .SocketListen sock_fd maxsock'⟩ := by
  simp only [CheckNewSocket] at checked
  split at checked
  · rename_i unset
    cases checked
    exact .unready rfl fun isSet => absurd isSet unset
  · rename_i isSet
    split at checked
    · rename_i failed
      cases checked
      split
      · rename_i zero
        subst newfd
        exact .zero rfl
      · exact .unready rfl fun _ => failed
    · rename_i positive
      split at checked
      · cases checked
      · rename_i connAmount defined
        rw [int32_eq_some defined] at checked
        split at checked
        · rename_i room
          cases checked
          have largest : (if newfd > maxsock then newfd else maxsock) = max maxsock newfd := by
            rw [max_def]
            split <;> split <;> omega
          rw [largest]
          refine .accept rfl (by omega) (not_not.mp isSet) room ?_
          cases firstVacant info.sockfd <;> rfl
        · rename_i full
          cases checked
          exact .refuse rfl (by omega) (not_not.mp isSet) (by omega)

end Steps

theorem threadStep_transition {server after : NetServer} {answer : Answer}
    {calls : List Syscall} (stepped : threadStep server answer = some (after, calls)) :
    Transition answer server calls after := by
  obtain ⟨info, pc⟩ := server
  cases pc with
  | NetServerTask => exact taskStep_transition stepped
  | SocketListen sock_fd maxsock =>
      cases answer <;> simp only [threadStep, reduceCtorEq] at stepped
      split at stepped
      · rename_i running
        cases stepped
        exact .watch running
      · rename_i stopped
        cases stepped
        exact .stop rfl (by simpa using stopped)
  | select sock_fd maxsock fdset =>
      cases answer <;> simp only [threadStep, reduceCtorEq, Option.some.injEq] at stepped
      exact selectStep_transition stepped
  | scan sock_fd maxsock fdset i =>
      cases answer <;> simp only [threadStep, reduceCtorEq, Option.some.injEq] at stepped
      exact scanStep_transition stepped
  | ReadHandle sock_fd maxsock fdset i fd =>
      cases answer <;> simp only [threadStep, reduceCtorEq] at stepped
      split at stepped
      · cases stepped
      · rename_i handled
        cases stepped
        exact ReadHandle_transition handled
  | CheckNewSocket sock_fd maxsock fdset =>
      cases answer <;> simp only [threadStep, reduceCtorEq] at stepped
      split at stepped
      · cases stepped
      · rename_i checked
        cases stepped
        exact CheckNewSocket_transition checked
  | closing sock_fd i =>
      cases answer <;> simp only [threadStep, reduceCtorEq, Option.some.injEq] at stepped
      exact closingStep_transition stepped
  | returned sock_fd =>
      cases answer <;> simp only [threadStep, reduceCtorEq] at stepped
      cases stepped
      exact .leave
  | exited => cases answer <;> cases stepped

theorem machine_step_cases {server after : NetServer} {input : Answer ⊕ Api}
    {calls : List Syscall} (stepped : machine.step server input = some (after, calls)) :
    (∃ answer, input = .inl answer ∧ Transition answer server calls after) ∨
      (∃ call serRun, input = .inr call ∧ calls = [] ∧
        after = { server with info := { server.info with serRun := serRun } }) := by
  cases input with
  | inl answer => exact .inl ⟨answer, rfl, threadStep_transition stepped⟩
  | inr call =>
      cases call with
      | NetServerStart =>
          cases stepped
          exact .inr ⟨.NetServerStart, true, rfl, rfl, rfl⟩
      | NetServerStop =>
          cases stepped
          exact .inr ⟨.NetServerStop, false, rfl, rfl, rfl⟩

/-! ## Where the task stands and what the table holds there -/

/-- `ReadHandle` works on a connected client, the closing loop leaves vacant
entries behind, and outside `SocketListen` all entries are vacant. -/
def NetServer.WellPlaced (server : NetServer) : Prop :=
  match server.pc with
  | .ReadHandle _ _ _ i fd => server.info.sockfd i = fd ∧ fd ≠ -1
  | .closing _ i => ∀ j : Fin MAX_CONNECT, j.val < i → server.info.sockfd j = -1
  | .NetServerTask | .returned _ | .exited => ∀ j, server.info.sockfd j = -1
  | _ => True

theorem wellPlaced_init (nEventCallback : Bool) : (NetServerInit nEventCallback).WellPlaced :=
  fun _ => rfl

theorem Transition.wellPlaced {answer : Answer} {before after : NetServer}
    {calls : List Syscall} (transition : Transition answer before calls after)
    (placed : before.WellPlaced) : after.WellPlaced := by
  cases transition with
  | @rest info next serRun calls outside quiet =>
      cases next <;> first | exact placed | exact False.elim outside
  | stop answered stopped => exact fun j impossible => absurd impossible (Nat.not_lt_zero _)
  | enter used => exact ⟨rfl, used⟩
  | @drop info sock_fd i used =>
      intro j bound
      by_cases same : j = i
      · simp [same]
      · have earlier : j.val < i.val := by
          have different : j.val ≠ i.val := fun equal => same (Fin.ext equal)
          omega
        simpa [same] using placed j earlier
  | @pass info sock_fd i unused =>
      intro j bound
      by_cases same : j = i
      · simpa [same] using unused
      · have different : j.val ≠ i.val := fun equal => same (Fin.ext equal)
        exact placed j (by omega)
  | «return» finished => exact fun j => placed j (lt_of_lt_of_le j.isLt finished)
  | leave => exact placed
  | _ => trivial

theorem wellPlaced_of_step {server after : NetServer} {input : Answer ⊕ Api}
    {calls : List Syscall} (stepped : machine.step server input = some (after, calls))
    (placed : server.WellPlaced) : after.WellPlaced := by
  rcases machine_step_cases stepped with
    ⟨answer, -, transition⟩ | ⟨call, serRun, -, -, rfl⟩
  · exact transition.wellPlaced placed
  · exact placed

theorem firstVacant_eq_some {sockfd : Fin MAX_CONNECT → Int} {i : Fin MAX_CONNECT}
    (found : firstVacant sockfd = some i) : 1 ≤ i.val ∧ sockfd i = -1 := by
  simpa using List.find?_some found

theorem exists_firstVacant {info : NetServerInfo} (room : info.connected < MAX_CONNECT - 1) :
    ∃ i, firstVacant info.sockfd = some i := by
  have candidates : (Finset.univ.erase (0 : Fin MAX_CONNECT)).card = MAX_CONNECT - 1 := by
    simp
  obtain ⟨i, candidate, vacant⟩ := Table.exists_vacant (by rw [candidates]; exact room)
  cases found : firstVacant info.sockfd with
  | some first => exact ⟨first, rfl⟩
  | none =>
      have refused := List.find?_eq_none.mp found i (List.mem_finRange i)
      have nonzero : i.val ≠ 0 := fun zero =>
        Finset.ne_of_mem_erase candidate (Fin.ext zero)
      simp only [decide_eq_true_eq] at refused
      exact absurd ⟨Nat.one_le_iff_ne_zero.mpr nonzero, vacant⟩ refused

end WifiIot.Server
