import Mathlib.Algebra.Group.Int.Defs
import Mathlib.Data.Fin.VecNotation
import Mathlib.Data.Int.Order.Basic
import Mathlib.Logic.Function.Basic
import WifiIot.Machine.Run
import WifiIot.Resource.Ledger
import WifiIot.Resource.Table

/-!
# The TCP server of the network service

`NetServerTask` serves one listening socket and up to nine clients, whose
descriptors it keeps in `sockfd[]`; entry 0 is reserved for the client that
sent the handshake.  The model is the task as a machine: one step per blocking
call and per round of a loop, with the answers of the operating system as
inputs.  `NetServerStart` and `NetServerStop` are called from other tasks at
any time.

Source: `astronauts_game/common/netcfg/src/network_server.c`.
-/

namespace WifiIot.Server

abbrev MAX_CONNECT : Nat := 10
def BUF_SHORT_SIZE : Nat := 256
def REQUEST_OK : Int := 200
def REQUEST_ERR : Int := 401

/-- Signed `int` arithmetic is undefined outside 32 bits. -/
def int32 (value : Int) : Option Int :=
  if -2 ^ 31 ≤ value ∧ value < 2 ^ 31 then some value else none

theorem int32_eq_some {value result : Int} (defined : int32 value = some result) :
    result = value := by
  unfold int32 at defined
  split at defined
  · exact (Option.some.inj defined).symm
  · cases defined

/-- The globals of the server.  `g_call` says whether a callback is registered. -/
structure NetServerInfo where
  sockfd : Fin MAX_CONNECT → Int
  connAmount : Int
  isActive : Bool
  serRun : Bool
  g_call : Bool

/-- The functions of the server task that close a client. -/
inductive Caller where
  | ReadHandle
  | CheckNewSocket
  | SocketListen
  deriving DecidableEq

/-- The calls into the socket library.  `recv` also says whether entry 0 was
vacant when the chunk was handled. -/
inductive Syscall where
  | listen (sock_fd : Int)
  | unlisten (sock_fd : Int)
  | accept (newfd : Int)
  | recv (fd : Int) (chunk : List UInt8) (controlVacant : Bool)
  | send (fd : Int) (code : Int) (errmsg : String)
  | close (caller : Caller) (fd : Int)
  deriving DecidableEq

def cString (buffer : List UInt8) : List UInt8 := buffer.takeWhile (· ≠ 0)

def specialHeader : List UInt8 := [0xff, 0x55, 0xaa, 0x55]

/-- The comparison loop runs over `strlen(buf)` bytes. -/
def IsSpecialSocket (msg : List UInt8) : Bool :=
  if msg.length < specialHeader.length then
    false
  else
    (List.range specialHeader.length).all fun i => msg[i]? == specialHeader[i]?

def SendRequest (fd code : Int) : Syscall :=
  .send fd code (if code = REQUEST_OK then "" else "explain params error!")

/-- `chunk` is what `recv` delivers, empty for an error or a closed connection;
`answer` is what the callback returns. -/
def ReadHandle (info : NetServerInfo) (i : Fin MAX_CONNECT) (fd : Int) (chunk : List UInt8)
    (answer : Int) (fdSet : Finset Int) :
    Option (NetServerInfo × Finset Int × List Syscall) :=
  let recvbuf := chunk.take (BUF_SHORT_SIZE - 1)
  if recvbuf.length = 0 then
    match int32 (info.connAmount - 1) with
    | none => none
    | some connAmount =>
        some ({ info with
          sockfd := Function.update info.sockfd i (-1)
          connAmount := connAmount }, fdSet.erase fd, [.close .ReadHandle fd])
  else if info.sockfd 0 = -1 ∧ IsSpecialSocket (cString recvbuf) = true then
    some ({ info with
      sockfd := Function.update (Function.update info.sockfd i (-1)) 0 fd },
      fdSet, [.recv fd recvbuf true])
  else
    let errcode := if info.g_call then answer else -1
    let code := if errcode = -1 then REQUEST_ERR else REQUEST_OK
    some (info, fdSet, [.recv fd recvbuf (info.sockfd 0 = -1), SendRequest fd code])

abbrev NetServerInfo.special (info : NetServerInfo) : Int := info.sockfd 0

/-- The first vacant entry from 1 on. -/
def firstVacant (sockfd : Fin MAX_CONNECT → Int) : Option (Fin MAX_CONNECT) :=
  (List.finRange MAX_CONNECT).find? fun i => 1 ≤ i.val ∧ sockfd i = -1

/-- `newfd` is what `accept` returns; it is not looked at when the listening
socket is not ready. -/
def CheckNewSocket (info : NetServerInfo) (sockFd : Int) (fdSet : Finset Int) (maxFd newfd : Int) :
    Option (NetServerInfo × Int × List Syscall) :=
  if sockFd ∉ fdSet then
    some (info, maxFd, [])
  else if newfd ≤ 0 then
    -- Descriptor 0 exists, but is taken for an error.
    some (info, maxFd, if newfd = 0 then [.accept newfd] else [])
  else
    match int32 (info.connAmount + 1) with
    | none => none
    | some connAmount =>
        if connAmount < MAX_CONNECT then
          let sockfd := match firstVacant info.sockfd with
            | some i => Function.update info.sockfd i newfd
            | none => info.sockfd
          some ({ info with sockfd := sockfd, connAmount := connAmount },
            if newfd > maxFd then newfd else maxFd, [.accept newfd])
        else
          some ({ info with connAmount := connAmount }, maxFd,
            [.accept newfd, .close .CheckNewSocket newfd])

/-- The descriptors `SocketListen` hands to `select`. -/
def watched (info : NetServerInfo) (sock_fd : Int) : Finset Int :=
  insert sock_fd ((Finset.univ.filter fun i => info.sockfd i ≠ -1).image info.sockfd)

/-- Where the server task stands, with the local variables it holds there. -/
inductive Pc where
  | NetServerTask
  | SocketListen (sock_fd maxsock : Int)
  | select (sock_fd maxsock : Int) (fdset : Finset Int)
  | scan (sock_fd maxsock : Int) (fdset : Finset Int) (i : Nat)
  | ReadHandle (sock_fd maxsock : Int) (fdset : Finset Int) (i : Fin MAX_CONNECT) (fd : Int)
  | CheckNewSocket (sock_fd maxsock : Int) (fdset : Finset Int)
  | closing (sock_fd : Int) (i : Nat)
  | returned (sock_fd : Int)
  | exited
  deriving DecidableEq

structure NetServer where
  info : NetServerInfo
  pc : Pc

/-- What the server task waits for: nothing, or the answer of a call.  `setup`
says whether `memset_s`, `bind` and `listen` all succeed. -/
inductive Answer where
  | proceed
  | socket (sockfd : Int) (setup : Bool)
  | select (ready : Finset Int)
  | recv (chunk : List UInt8) (answer : Int)
  | accept (newfd : Int)

inductive Api where
  | NetServerStart
  | NetServerStop
  deriving DecidableEq

/-- `NetServerTask`, with `StartServer` up to the call of `SocketListen`. -/
def taskStep (info : NetServerInfo) : Answer → Option (NetServer × List Syscall)
  | .proceed =>
      if info.isActive = false then some (⟨info, .exited⟩, [])
      else if info.serRun = false then some (⟨info, .NetServerTask⟩, [])
      else none
  | .socket sockfd setup =>
      if info.isActive = false ∨ info.serRun = false then none
      else if sockfd < 0 then some (⟨{ info with serRun := false }, .NetServerTask⟩, [])
      else if setup = false then
        some (⟨{ info with serRun := false }, .NetServerTask⟩, [.unlisten sockfd])
      else some (⟨info, .SocketListen sockfd sockfd⟩, [.listen sockfd])
  | _ => none

/-- `select` looks at descriptors up to `maxsock` only. -/
def selectStep (info : NetServerInfo) (sock_fd maxsock : Int) (fdset ready : Finset Int) :
    NetServer × List Syscall :=
  let selected := (fdset ∩ ready).filter (· < maxsock + 1)
  if selected = ∅ then (⟨info, .SocketListen sock_fd maxsock⟩, [])
  else (⟨info, .scan sock_fd maxsock selected 0⟩, [])

def scanStep (info : NetServerInfo) (sock_fd maxsock : Int) (fdset : Finset Int) (i : Nat) :
    NetServer × List Syscall :=
  if inside : i < MAX_CONNECT then
    let fd := info.sockfd ⟨i, inside⟩
    if fd ≠ -1 ∧ fd ∈ fdset then (⟨info, .ReadHandle sock_fd maxsock fdset ⟨i, inside⟩ fd⟩, [])
    else (⟨info, .scan sock_fd maxsock fdset (i + 1)⟩, [])
  else (⟨info, .CheckNewSocket sock_fd maxsock fdset⟩, [])

def closingStep (info : NetServerInfo) (sock_fd : Int) (i : Nat) : NetServer × List Syscall :=
  if inside : i < MAX_CONNECT then
    let fd := info.sockfd ⟨i, inside⟩
    if fd ≠ -1 then
      (⟨{ info with sockfd := Function.update info.sockfd ⟨i, inside⟩ (-1) },
        .closing sock_fd (i + 1)⟩, [.close .SocketListen fd])
    else (⟨info, .closing sock_fd (i + 1)⟩, [])
  else (⟨info, .returned sock_fd⟩, [])

def threadStep (server : NetServer) (answer : Answer) : Option (NetServer × List Syscall) :=
  let info := server.info
  match server.pc, answer with
  | .NetServerTask, answer => taskStep info answer
  | .SocketListen sock_fd maxsock, .proceed =>
      if info.serRun then
        some (⟨info, .select sock_fd maxsock (watched info sock_fd)⟩, [])
      else some (⟨info, .closing sock_fd 0⟩, [])
  | .select sock_fd maxsock fdset, .select ready =>
      some (selectStep info sock_fd maxsock fdset ready)
  | .scan sock_fd maxsock fdset i, .proceed => some (scanStep info sock_fd maxsock fdset i)
  | .ReadHandle sock_fd maxsock fdset i fd, .recv chunk answer =>
      match ReadHandle info i fd chunk answer fdset with
      | none => none
      | some (info, fdset, calls) =>
          some (⟨info, .scan sock_fd maxsock fdset (i.val + 1)⟩, calls)
  | .CheckNewSocket sock_fd maxsock fdset, .accept newfd =>
      match CheckNewSocket info sock_fd fdset maxsock newfd with
      | none => none
      | some (info, maxsock, calls) => some (⟨info, .SocketListen sock_fd maxsock⟩, calls)
  | .closing sock_fd i, .proceed => some (closingStep info sock_fd i)
  | .returned sock_fd, .proceed => some (⟨info, .NetServerTask⟩, [.unlisten sock_fd])
  | _, _ => none

def apiStep (server : NetServer) : Api → Option (NetServer × List Syscall)
  | .NetServerStart => some ({ server with info := { server.info with serRun := true } }, [])
  | .NetServerStop => some ({ server with info := { server.info with serRun := false } }, [])

/-- The server task and the tasks that start and stop it. -/
def machine : Machine NetServer (Answer ⊕ Api) Syscall :=
  Machine.interleave ⟨threadStep⟩ ⟨apiStep⟩

/-- The state that `NetServerInit` leaves to the task it creates. -/
def NetServerInit (nEventCallback : Bool) : NetServer where
  info :=
    { sockfd := fun _ => -1
      connAmount := 0
      isActive := true
      serRun := false
      g_call := nEventCallback }
  pc := .NetServerTask

/-- How many clients are in `sockfd[]`. -/
def NetServerInfo.connected (info : NetServerInfo) : Nat := Table.occupancy (-1) info.sockfd

end WifiIot.Server
