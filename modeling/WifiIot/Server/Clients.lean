import Mathlib.Data.List.TakeWhile
import WifiIot.Server.Accounting

/-!
# No client of the server is lost or duplicated

The socket calls of the task, read as a ledger of client descriptors, are
disciplined, and `sockfd[]` holds what the ledger says is open.  The operating
system is assumed to accept under positive descriptors that are not open.
-/

namespace WifiIot.Server

open Ledger

def Syscall.entry : Syscall → Option (Entry Int)
  | .accept newfd => some (.acquired newfd)
  | .close _ fd => some (.released fd)
  | _ => none

def ledger (log : List Syscall) : List (Entry Int) := log.filterMap Syscall.entry

@[simp]
theorem ledger_append (first second : List Syscall) :
    ledger (first ++ second) = ledger first ++ ledger second :=
  List.filterMap_append ..

theorem ledger_eq_nil_of_quiet {calls : List Syscall} (quiet : ∀ call ∈ calls, call.Quiet) :
    ledger calls = [] := by
  apply List.filterMap_eq_nil_iff.mpr
  intro call membership
  have silent := quiet call membership
  cases call <;> simp [Syscall.entry, Syscall.Quiet] at silent ⊢

/-- `accept` returns an error or a positive descriptor that is not open. -/
def AcceptFresh (server : NetServer) (log : List Syscall) (input : Answer ⊕ Api) : Prop :=
  match server.pc, input with
  | .CheckNewSocket _ _ _, .inl (.accept newfd) =>
      newfd < 0 ∨ 0 < newfd ∧ newfd ∉ held (ledger log)
  | _, _ => True

instance (server : NetServer) (log : List Syscall) (input : Answer ⊕ Api) :
    Decidable (AcceptFresh server log input) := by
  unfold AcceptFresh
  split <;> infer_instance

theorem isSpecialSocket_iff (msg : List UInt8) :
    IsSpecialSocket msg = true ↔ specialHeader <+: msg := by
  unfold IsSpecialSocket
  constructor
  · intro special
    split at special
    · cases special
    · rename_i long
      refine (List.prefix_iff_eq_take.mpr (List.ext_getElem? fun i => ?_))
      have agree := List.all_eq_true.mp special
      by_cases inside : i < specialHeader.length
      · have same : msg[i]? = specialHeader[i]? := by
          simpa using agree i (List.mem_range.mpr inside)
        rw [List.getElem?_take_of_lt inside, same]
      · rw [List.getElem?_eq_none (by omega),
          List.getElem?_eq_none (by rw [List.length_take]; omega)]
  · rintro ⟨rest, rfl⟩
    rw [if_neg (by simp)]
    apply List.all_eq_true.mpr
    intro i inside
    have bound := List.mem_range.mp inside
    simp [List.getElem?_append_left bound]

/-- A chunk that starts with the special header was received from the
descriptor while entry 0 was vacant, and the descriptor was not closed since. -/
def Promoted (fd : Int) (log : List Syscall) : Prop :=
  ∃ before chunk after, log = before ++ .recv fd chunk true :: after ∧
    specialHeader <+: chunk ∧ fd ∈ held (ledger before) ∧
    ∀ caller, .close caller fd ∉ after

theorem Promoted.append {fd : Int} {log calls : List Syscall} (promoted : Promoted fd log)
    (kept : ∀ caller, .close caller fd ∉ calls) : Promoted fd (log ++ calls) := by
  obtain ⟨before, chunk, after, rfl, special, opened, unclosed⟩ := promoted
  refine ⟨before, chunk, after ++ calls, by simp, special, opened, fun caller membership => ?_⟩
  rcases List.mem_append.mp membership with earlier | now
  · exact unclosed caller earlier
  · exact kept caller now

structure Tracked (server : NetServer) (log : List Syscall) : Prop where
  disciplined : Disciplined (ledger log)
  table : Table.Represents (-1) server.info.sockfd (held (ledger log))
  bounded : ∀ maxsock, server.pc.maxsock? = some maxsock →
    ∀ i, server.info.sockfd i ≠ -1 → server.info.sockfd i ≤ maxsock
  control : server.info.sockfd 0 ≠ -1 → Promoted (server.info.sockfd 0) log

theorem tracked_init (nEventCallback : Bool) : Tracked (NetServerInit nEventCallback) [] where
  disciplined := .nil
  table := .empty fun _ => rfl
  bounded _ none := by cases none
  control used := absurd rfl used

theorem unclosed_of_quiet {calls : List Syscall} (quiet : ∀ call ∈ calls, call.Quiet)
    (caller : Caller) (fd : Int) : .close caller fd ∉ calls :=
  fun closed => quiet _ closed

namespace Tracked

variable {server after : NetServer} {log calls : List Syscall}

theorem idle (tracked : Tracked server log)
    (same : after.info.sockfd = server.info.sockfd) (quiet : ledger calls = [])
    (unclosed : ∀ caller fd, .close caller fd ∉ calls)
    (bounded : ∀ maxsock, after.pc.maxsock? = some maxsock →
      ∀ i, server.info.sockfd i ≠ -1 → server.info.sockfd i ≤ maxsock) :
    Tracked after (log ++ calls) where
  disciplined := by simpa [quiet] using tracked.disciplined
  table := by simpa [quiet, same] using tracked.table
  bounded := by simpa [same] using bounded
  control used := by
    rw [same] at used ⊢
    exact (tracked.control used).append fun caller => unclosed caller _

theorem closed (tracked : Tracked server log) {i : Fin MAX_CONNECT} {caller : Caller}
    (used : server.info.sockfd i ≠ -1)
    (cleared : after.info.sockfd = Function.update server.info.sockfd i (-1))
    (inherited : ∀ maxsock, after.pc.maxsock? = some maxsock →
      server.pc.maxsock? = some maxsock) :
    Tracked after (log ++ [.close caller (server.info.sockfd i)]) := by
  have entry : ledger [.close caller (server.info.sockfd i)] =
      [.released (server.info.sockfd i)] := rfl
  constructor
  · rw [ledger_append, entry]
    exact tracked.disciplined.release (tracked.table.mem used)
  · rw [ledger_append, entry, held_append_released, cleared]
    exact tracked.table.clear used
  · intro maxsock inLoop j
    rw [cleared]
    by_cases same : j = i
    · simp [same]
    · rw [Function.update_of_ne same]
      exact tracked.bounded maxsock (inherited maxsock inLoop) j
  · intro control
    have other : (0 : Fin MAX_CONNECT) ≠ i := by
      rintro rfl
      exact control (by rw [cleared, Function.update_self])
    rw [cleared, Function.update_of_ne other] at control ⊢
    apply (tracked.control control).append
    intro closer membership
    have same : server.info.sockfd 0 = server.info.sockfd i := by
      exact (by simpa using membership : _ ∧ _).2
    exact other (tracked.table.distinct 0 i same control)

theorem moved (tracked : Tracked server log) {i : Fin MAX_CONNECT} {chunk : List UInt8}
    (used : server.info.sockfd i ≠ -1) (vacant : server.info.sockfd 0 = -1)
    (special : specialHeader <+: chunk)
    (stored : after.info.sockfd = Function.update
      (Function.update server.info.sockfd i (-1)) 0 (server.info.sockfd i))
    (inherited : ∀ maxsock, after.pc.maxsock? = some maxsock →
      server.pc.maxsock? = some maxsock) :
    Tracked after (log ++ [.recv (server.info.sockfd i) chunk true]) := by
  have entry : ledger [.recv (server.info.sockfd i) chunk true] = [] := rfl
  constructor
  · simpa [entry] using tracked.disciplined
  · rw [ledger_append, entry, List.append_nil, stored]
    exact tracked.table.move used vacant
  · intro maxsock inLoop j
    have bounded := tracked.bounded maxsock (inherited maxsock inLoop)
    rw [stored]
    by_cases zero : j = 0
    · subst j
      simpa using bounded i
    · rw [Function.update_of_ne zero]
      by_cases same : j = i
      · simp [same]
      · rw [Function.update_of_ne same]
        exact bounded j
  · intro _
    rw [stored, Function.update_self]
    exact ⟨log, chunk, [], rfl, special, tracked.table.mem used, by simp⟩

theorem accepted (tracked : Tracked server log) {i : Fin MAX_CONNECT} {newfd maxsock : Int}
    (vacant : server.info.sockfd i = -1) (ordinary : 1 ≤ i.val) (positive : 0 < newfd)
    (fresh : newfd ∉ held (ledger log))
    (inLoop : server.pc.maxsock? = some maxsock)
    (stored : after.info.sockfd = Function.update server.info.sockfd i newfd)
    (raised : after.pc.maxsock? = some (max maxsock newfd)) :
    Tracked after (log ++ [.accept newfd]) := by
  have entry : ledger [.accept newfd] = [.acquired newfd] := rfl
  constructor
  · rw [ledger_append, entry]
    exact tracked.disciplined.acquire fresh
  · rw [ledger_append, entry, held_append_acquired, stored]
    exact tracked.table.store vacant (by omega) fresh
  · intro limit inLoop' j used
    obtain rfl : max maxsock newfd = limit := by
      rw [raised] at inLoop'
      exact Option.some.inj inLoop'
    rw [stored] at used ⊢
    by_cases same : j = i
    · subst j
      simp
    · rw [Function.update_of_ne same] at used ⊢
      exact le_max_of_le_left (tracked.bounded maxsock inLoop j used)
  · have other : (0 : Fin MAX_CONNECT) ≠ i := by
      rintro rfl
      exact absurd ordinary (by simp)
    rw [stored, Function.update_of_ne other]
    exact fun used => (tracked.control used).append (by simp)

theorem refused (tracked : Tracked server log) {newfd : Int}
    (fresh : newfd ∉ held (ledger log))
    (same : after.info.sockfd = server.info.sockfd)
    (inherited : ∀ maxsock, after.pc.maxsock? = some maxsock →
      server.pc.maxsock? = some maxsock) :
    Tracked after (log ++ [.accept newfd, .close .CheckNewSocket newfd]) := by
  have entries : ledger (log ++ [.accept newfd, .close .CheckNewSocket newfd]) =
      (ledger log ++ [.acquired newfd]) ++ [.released newfd] := by
    rw [ledger_append, List.append_assoc]
    rfl
  constructor
  · rw [entries]
    exact (tracked.disciplined.acquire fresh).release (by simp)
  · rw [entries, held_append_released, held_append_acquired, Finset.erase_insert fresh, same]
    exact tracked.table
  · intro maxsock inLoop
    rw [same]
    exact tracked.bounded maxsock (inherited maxsock inLoop)
  · rw [same]
    refine fun used => (tracked.control used).append fun caller membership => ?_
    have reused : server.info.sockfd 0 = newfd := (by simpa using membership : _ ∧ _).2
    exact fresh (reused ▸ tracked.table.mem used)

end Tracked

/-- One step of the task keeps the table tracked. -/
theorem Transition.tracked {answer : Answer} {before after : NetServer}
    {calls log : List Syscall} (transition : Transition answer before calls after)
    (accounted : Accounted before log)
    (fresh : AcceptFresh before log (.inl answer))
    (tracked : Tracked before log) : Tracked after (log ++ calls) := by
  cases transition with
  | @rest info next serRun calls outside quiet =>
      refine tracked.idle rfl (ledger_eq_nil_of_quiet quiet) (unclosed_of_quiet quiet) ?_
      intro maxsock inLoop
      cases next <;> first | exact False.elim outside | cases inLoop
  | listen =>
      refine tracked.idle rfl rfl (by simp) fun maxsock _ i used => ?_
      exact absurd (accounted.placed i) used
  | request quiet =>
      exact tracked.idle rfl (ledger_eq_nil_of_quiet quiet) (unclosed_of_quiet quiet)
        tracked.bounded
  | @disconnect info sock_fd maxsock fdset rest i fd =>
      obtain ⟨rfl, used⟩ : info.sockfd i = fd ∧ fd ≠ -1 := accounted.placed
      exact tracked.closed used rfl fun _ inLoop => inLoop
  | @promote info sock_fd maxsock fdset i fd chunk vacant special =>
      obtain ⟨rfl, used⟩ : info.sockfd i = fd ∧ fd ≠ -1 := accounted.placed
      have header := ((isSpecialSocket_iff _).mp special).trans (List.takeWhile_prefix _)
      exact tracked.moved used vacant header rfl fun _ inLoop => inLoop
  | zero answered =>
      subst answered
      simp [AcceptFresh] at fresh
  | @accept info sock_fd maxsock fdset newfd sockfd answered positive isSet room stored =>
      subst answered
      have unheld : newfd ∉ held (ledger log) := by
        rcases fresh with negative | ⟨-, unheld⟩
        · omega
        · exact unheld
      have fits : info.connected < MAX_CONNECT - 1 := by
        have balance := accounted.balance
        simp only [MAX_CONNECT] at balance room ⊢
        omega
      obtain ⟨i, found⟩ := exists_firstVacant fits
      rw [found] at stored
      obtain ⟨ordinary, vacant⟩ := firstVacant_eq_some found
      exact tracked.accepted vacant ordinary positive unheld rfl stored rfl
  | refuse answered positive isSet full =>
      subst answered
      rcases fresh with negative | ⟨-, unheld⟩
      · omega
      · exact tracked.refused unheld rfl fun _ inLoop => inLoop
  | drop used => exact tracked.closed used rfl fun _ inLoop => by cases inLoop
  | stop => exact tracked.idle rfl rfl (by simp) fun _ inLoop => by cases inLoop
  | pass => exact tracked.idle rfl rfl (by simp) fun _ inLoop => by cases inLoop
  | «return» => exact tracked.idle rfl rfl (by simp) fun _ inLoop => by cases inLoop
  | leave => exact tracked.idle rfl rfl (by simp) fun _ inLoop => by cases inLoop
  | _ => exact tracked.idle rfl rfl (by simp) tracked.bounded

theorem tracked_of_run {nEventCallback : Bool} {inputs : List (Answer ⊕ Api)}
    {server : NetServer} {log : List Syscall}
    (run : machine.Run (NetServerInit nEventCallback) inputs server log)
    (fresh : machine.Meets AcceptFresh (NetServerInit nEventCallback) inputs) :
    Tracked server log := by
  induction run with
  | refl => exact tracked_init _
  | snoc before stepped inductionHypothesis =>
      obtain ⟨earlier, now⟩ := (Machine.meets_snoc_iff before _).mp fresh
      have tracked := inductionHypothesis earlier
      rcases machine_step_cases stepped with
        ⟨answer, rfl, transition⟩ | ⟨call, serRun, -, rfl, rfl⟩
      · exact transition.tracked (accounted_of_run before) now tracked
      · exact tracked.idle rfl rfl (by simp) tracked.bounded

/-- At the top of the loop the entries of `sockfd[]` are pairwise distinct and
are the clients accepted and not closed, `maxsock` bounds them, and entry 0
went through the handshake.  When `SocketListen` has returned, all entries are
vacant and every client it accepted was closed once. -/
theorem no_client_lost (nEventCallback : Bool) (inputs : List (Answer ⊕ Api))
    (server : NetServer) (log : List Syscall)
    (run : machine.Run (NetServerInit nEventCallback) inputs server log)
    (fresh : machine.Meets AcceptFresh (NetServerInit nEventCallback) inputs) :
    (∀ sock_fd maxsock, server.pc = .SocketListen sock_fd maxsock →
      (∀ i j, server.info.sockfd i = server.info.sockfd j →
        server.info.sockfd i ≠ -1 → i = j) ∧
      (∀ fd, fd ∈ held (ledger log) ↔ fd ≠ -1 ∧ ∃ i, server.info.sockfd i = fd) ∧
      (∀ i, server.info.sockfd i ≠ -1 → server.info.sockfd i ≤ maxsock) ∧
      (server.info.sockfd 0 ≠ -1 → Promoted (server.info.sockfd 0) log)) ∧
    (∀ sock_fd, server.pc = .returned sock_fd →
      (∀ i, server.info.sockfd i = -1) ∧ Disciplined (ledger log) ∧
      ∀ fd, (ledger log).count (.acquired fd) = (ledger log).count (.released fd)) := by
  have tracked := tracked_of_run run fresh
  refine ⟨fun sock_fd maxsock top => ?_, fun sock_fd returned => ?_⟩
  · exact ⟨tracked.table.distinct, tracked.table.mem_iff,
      tracked.bounded maxsock (by rw [top]; rfl), tracked.control⟩
  · have vacant : ∀ i, server.info.sockfd i = -1 := by
      have placed := (accounted_of_run run).placed
      rw [NetServer.WellPlaced, returned] at placed
      exact placed
    have empty : held (ledger log) = ∅ := by
      apply Finset.eq_empty_of_forall_notMem
      intro fd membership
      obtain ⟨used, i, rfl⟩ := (tracked.table.mem_iff fd).mp membership
      exact used (vacant i)
    exact ⟨vacant, tracked.disciplined, tracked.disciplined.balanced empty⟩

/-- Client 4 connects and sends the handshake, client 5 connects in the same
round, and the server is stopped. -/
def session : List (Answer ⊕ Api) :=
  [.inr .NetServerStart, .inl (.socket 3 true), .inl .proceed, .inl (.select {3})] ++
    List.replicate 11 (.inl .proceed) ++
    [.inl (.accept 4), .inl .proceed, .inl (.select {3, 4}), .inl .proceed, .inl .proceed,
      .inl (.recv [0xff, 0x55, 0xaa, 0x55] 0)] ++
    List.replicate 9 (.inl .proceed) ++ [.inl (.accept 5)]

theorem no_client_lost_session :
    ∃ server log, machine.Run (NetServerInit true) session server log ∧
      server.info.sockfd 0 = 4 ∧ server.info.sockfd 1 = 5 ∧ Promoted 4 log ∧
      held (ledger log) = {4, 5} := by
  obtain ⟨server, log, run, seen⟩ := machine.exists_run_of_exec
    (fun result => (result.1.pc, result.1.info.sockfd 0, result.1.info.sockfd 1,
      held (ledger result.2)))
    (NetServerInit true) session (.SocketListen 3 5, 4, 5, {4, 5}) (by decide +kernel)
  simp only [Prod.mk.injEq] at seen
  obtain ⟨top, control, second, opened⟩ := seen
  have fresh : machine.Meets AcceptFresh (NetServerInit true) session :=
    Machine.meets_of_meetsFrom (fun server log input => decide (AcceptFresh server log input))
      (fun _ _ _ passed => of_decide_eq_true passed) (by decide +kernel)
  have promoted := ((no_client_lost true session server log run fresh).1 3 5 top).2.2.2
  rw [control] at promoted
  exact ⟨server, log, run, control, second, promoted (by decide), opened⟩

end WifiIot.Server
