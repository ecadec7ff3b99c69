import WifiIot.Machine.Run

/-!
# The network configuration task and the Wi-Fi driver

`NetCfgTask` provisions the device over a soft AP: `NetCfgSocket` accepts
clients one by one, `NetCfgGetSocketValue` takes the credentials from a client
and waits in `NetCfgConnect` for the station to connect.  The Wi-Fi driver
calls back into the same globals from its own task.

The model has one step per access of the task to `g_netManager` and per call
that may block or fail; a callback runs between two such steps.

Source: `astronauts_game/common/netcfg/src/network_config.c`, `wifi_sta.c` and
`softap.c`.
-/

namespace WifiIot.NetConfig

inductive NET_MODE_TYPE where
  | NET_MODE_IDLE
  | NET_MODE_CONFIG
  | NET_MODE_STA
  deriving DecidableEq

inductive NET_STA_TYPE where
  | NET_STA_NULL
  | NET_STA_CONFIG
  | NET_STA_CONNECTTING
  | NET_STA_CONNECTTED
  | NET_STA_DISTCONNECT
  deriving DecidableEq

inductive NET_EVENT_TYPE where
  | NET_EVENT_CONFIG
  | NET_EVENT_CONFIG_FAIL
  | NET_EVENT_CONNECTTING
  | NET_EVENT_CONN_FAILED
  | NET_EVENT_CONNECTTED
  | NET_EVENT_DISTCONNECT
  deriving DecidableEq

export NET_MODE_TYPE (NET_MODE_IDLE NET_MODE_CONFIG NET_MODE_STA)
export NET_STA_TYPE (NET_STA_NULL NET_STA_CONFIG NET_STA_CONNECTTING NET_STA_CONNECTTED
  NET_STA_DISTCONNECT)
export NET_EVENT_TYPE (NET_EVENT_CONFIG NET_EVENT_CONFIG_FAIL NET_EVENT_CONNECTTING
  NET_EVENT_CONN_FAILED NET_EVENT_CONNECTTED NET_EVENT_DISTCONNECT)

def CONNECT_TIMEOUT : Nat := 20
def TEST_CONNECT_RETRY_COUNT : Nat := 5
def REQUEST_OK : Int := 200
def REQUEST_ERR : Int := 401
def WIFI_STATE_NOT_AVALIABLE : Int := 0
def WIFI_STATE_AVALIABLE : Int := 1

/-- `g_netManager`; `gEventCall` says whether the application registered a callback. -/
structure NetManagerInfo where
  mode : NET_MODE_TYPE
  status : NET_STA_TYPE
  netRun : Bool
  gEventCall : Bool
  deriving DecidableEq

/-- The globals of `wifi_sta.c`; `wifiChange` says whether `g_wifiChange` is set. -/
structure WifiSta where
  wifiChange : Bool
  connectRetryCount : Nat
  deriving DecidableEq

/-- What the two parties do that others can see, and what the task stores in
`g_netManager`. -/
inductive Action where
  | gEventCall (event : NET_EVENT_TYPE)
  | status (stored : NET_STA_TYPE)
  | mode (stored : NET_MODE_TYPE)
  | NetCfgConnectStatus (s : Int)
  | WifiConnectionChangedHandler (state : Int)
  | SoftApStart
  | SoftApStop
  | socket (sockfd : Int)
  | accept (newfd : Int)
  | close (fd : Int)
  | NetCfgGetSocketValue (retval : Int)
  | WifiStaStart
  | WifiStaStop
  | SendLocalIp (code : Int)
  | NetServerStart
  deriving DecidableEq

namespace NetManagerInfo

/-- The call of the application in `SET_NET_EVENT`. -/
def notify (manager : NetManagerInfo) (event : NET_EVENT_TYPE) : List Action :=
  if manager.gEventCall then [.gEventCall event] else []

def NetCfgConnectStatus (manager : NetManagerInfo) (s : Int) : NetManagerInfo × List Action :=
  if s = 1 ∧ manager.status ≠ NET_STA_CONNECTTED then
    ({ manager with status := NET_STA_CONNECTTED }, manager.notify NET_EVENT_CONNECTTED)
  else if s = 0 then
    ({ manager with status := NET_STA_DISTCONNECT, mode := NET_MODE_IDLE },
      manager.notify NET_EVENT_DISTCONNECT)
  else (manager, [])

end NetManagerInfo

/-- The uses of `SET_NET_EVENT` in the task. -/
inductive Site where
  | config
  | configFail
  | connectting
  | connFailed
  | connectted
  deriving DecidableEq

namespace Site

def status : Site → NET_STA_TYPE
  | .config => NET_STA_CONFIG
  | .configFail => NET_STA_NULL
  | .connectting => NET_STA_CONNECTTING
  | .connFailed => NET_STA_NULL
  | .connectted => NET_STA_CONNECTTED

def event : Site → NET_EVENT_TYPE
  | .config => NET_EVENT_CONFIG
  | .configFail => NET_EVENT_CONFIG_FAIL
  | .connectting => NET_EVENT_CONNECTTING
  | .connFailed => NET_EVENT_CONN_FAILED
  | .connectted => NET_EVENT_CONNECTTED

end Site

inductive Pc where
  /-- `while (g_netManager.netRun)`. -/
  | NetCfgTask
  /-- The first comparison of `netCfgMode` with the mode. -/
  | sameMode
  /-- The second comparison. -/
  | newMode
  /-- `netCfgMode = g_netManager.mode`, and the switch. -/
  | loadMode
  | exited
  /-- The call of the application in `SET_NET_EVENT`. -/
  | notify (site : Site)
  /-- The store of the status in `SET_NET_EVENT`. -/
  | store (site : Site)
  | SoftApStart
  | socket
  /-- `while (g_netManager.mode == NET_MODE_CONFIG)` in `NetCfgSocket`. -/
  | NetCfgSocket
  | accept
  /-- The test of the mode in `NetCfgGetSocketValue`. -/
  | NetCfgGetSocketValue
  | recvfrom
  | WifiStaStart
  | WifiStaConnect
  /-- `while (g_netManager.status != NET_STA_CONNECTTED)` in `NetCfgConnect`. -/
  | poll (timecnt : Nat)
  | WifiStaStop
  | SendLocalIp (result : Int)
  | closeClient (retval : Int)
  /-- `g_netManager.mode = NET_MODE_STA`. -/
  | setMode
  | closeSocket
  deriving DecidableEq

/-- The task with its local variables, and the globals of both parties. -/
structure NetCfg where
  pc : Pc
  netCfgMode : NET_MODE_TYPE
  sockfd : Int
  newfd : Int
  manager : NetManagerInfo
  wifiSta : WifiSta
  hotspotActive : Bool
  deriving DecidableEq

/-- What the task waits for.  `setup` says whether `bind` and `listen` succeed;
`recvfrom none` is an error or a closed connection, and `recvfrom (some parsed)`
a message of which `parsed` says whether `ParseWifiInfo` accepts it. -/
inductive Answer where
  | proceed
  | SoftApStart (started : Bool)
  | socket (sockfd : Int) (setup : Bool)
  | accept (newfd : Int)
  | recvfrom (message : Option Bool)
  | WifiStaStart (started : Bool)
  | WifiStaConnect (connecting : Bool)
  deriving DecidableEq

/-- Where the task goes on after a `SET_NET_EVENT`. -/
def Site.next : Site → Pc
  | .config => .SoftApStart
  | .configFail => .NetCfgTask
  | .connectting => .WifiStaStart
  | .connFailed => .WifiStaStop
  | .connectted => .SendLocalIp 0

/-- A failed `accept` is not noticed. -/
def accepted (newfd : Int) : List Action := if newfd < 0 then [] else [.accept newfd]

/-- The switch of `NetCfgTask`. -/
def switch (netCfgMode : NET_MODE_TYPE) : Pc :=
  match netCfgMode with
  | .NET_MODE_CONFIG => .notify .config
  | _ => .NetCfgTask

/-- What a client is sent; the server starts after a success. -/
def reply (result : Int) : List Action :=
  if result ≠ -1 then [.SendLocalIp REQUEST_OK, .NetServerStart] else [.SendLocalIp REQUEST_ERR]

/-- The steps of `SET_NET_EVENT`. -/
def SET_NET_EVENT (cfg : NetCfg) : Answer → Option (NetCfg × List Action)
  | .proceed =>
      match cfg.pc with
      | .notify site => some ({ cfg with pc := .store site }, cfg.manager.notify site.event)
      | .store site =>
          some ({ cfg with manager := { cfg.manager with status := site.status }, pc := site.next },
            [.status site.status])
      | _ => none
  | _ => none

/-- The steps of `NetCfgConnect`, with `wait` set. -/
def NetCfgConnect (cfg : NetCfg) (answer : Answer) : Option (NetCfg × List Action) :=
  match cfg.pc, answer with
  | .WifiStaStart, .WifiStaStart started =>
      some ({ cfg with
        wifiSta := { cfg.wifiSta with wifiChange := true }
        pc := if started then .WifiStaConnect else .notify .connFailed }, [.WifiStaStart])
  | .WifiStaConnect, .WifiStaConnect connecting =>
      some ({ cfg with pc := if connecting then .poll 0 else .notify .connFailed }, [])
  | .poll timecnt, .proceed =>
      if cfg.manager.status = NET_STA_CONNECTTED then
        some ({ cfg with pc := .notify .connectted }, [])
      else if timecnt + 1 > CONNECT_TIMEOUT then
        some ({ cfg with pc := .notify .connFailed }, [])
      else some ({ cfg with pc := .poll (timecnt + 1) }, [])
  | _, _ => none

/-- The steps of `NetCfgGetSocketValue`. -/
def NetCfgGetSocketValue (cfg : NetCfg) (answer : Answer) : Option (NetCfg × List Action) :=
  match cfg.pc, answer with
  | .NetCfgGetSocketValue, .proceed =>
      if cfg.manager.mode ≠ NET_MODE_CONFIG then
        some ({ cfg with pc := .closeClient (-1) }, [.NetCfgGetSocketValue (-1)])
      else some ({ cfg with pc := .recvfrom }, [])
  | .recvfrom, .recvfrom none =>
      some ({ cfg with pc := .closeClient (-1) }, [.NetCfgGetSocketValue (-1)])
  | .recvfrom, .recvfrom (some parsed) =>
      some ({ cfg with pc := if parsed then .notify .connectting else .NetCfgGetSocketValue }, [])
  | .WifiStaStop, .proceed => some ({ cfg with pc := .SendLocalIp (-1) }, [.WifiStaStop])
  | .SendLocalIp result, .proceed =>
      some ({ cfg with pc := .closeClient result },
        reply result ++ [.NetCfgGetSocketValue result])
  | _, _ => none

/-- The steps of `NetCfgSocket`. -/
def NetCfgSocket (cfg : NetCfg) (answer : Answer) : Option (NetCfg × List Action) :=
  match cfg.pc, answer with
  | .socket, .socket sockfd setup =>
      if sockfd < 0 then some ({ cfg with pc := .notify .configFail }, [])
      else if setup = false then
        some ({ cfg with pc := .notify .configFail }, [.socket sockfd, .close sockfd])
      else some ({ cfg with sockfd := sockfd, pc := .NetCfgSocket }, [.socket sockfd])
  | .NetCfgSocket, .proceed =>
      some ({ cfg with
        pc := if cfg.manager.mode = NET_MODE_CONFIG then .accept else .closeSocket }, [])
  | .accept, .accept newfd =>
      some ({ cfg with newfd := newfd, pc := .NetCfgGetSocketValue }, accepted newfd)
  | .closeClient retval, .proceed =>
      some ({ cfg with pc := if retval = 0 then .setMode else .NetCfgSocket }, [.close cfg.newfd])
  | .setMode, .proceed =>
      some ({ cfg with
        manager := { cfg.manager with mode := NET_MODE_STA }
        pc := .NetCfgSocket }, [.mode NET_MODE_STA])
  | _, _ => none

/-- The steps of `NetCfgStartConfig` around `NetCfgSocket`. -/
def NetCfgStartConfig (cfg : NetCfg) (answer : Answer) : Option (NetCfg × List Action) :=
  match cfg.pc, answer with
  | .SoftApStart, .SoftApStart started =>
      -- The station is stopped before; an active hotspot is an error.
      if cfg.hotspotActive = false ∧ started = true then
        some ({ cfg with hotspotActive := true, pc := .socket }, [.WifiStaStop, .SoftApStart])
      else some ({ cfg with pc := .notify .configFail }, [.WifiStaStop])
  | .closeSocket, .proceed =>
      some ({ cfg with hotspotActive := false, pc := .NetCfgTask }, [.close cfg.sockfd, .SoftApStop])
  | _, _ => none

/-- The steps of `NetCfgTask`. -/
def NetCfgTask (cfg : NetCfg) (answer : Answer) : Option (NetCfg × List Action) :=
  match cfg.pc, answer with
  | .NetCfgTask, .proceed =>
      some ({ cfg with pc := if cfg.manager.netRun then .sameMode else .exited }, [])
  | .sameMode, .proceed =>
      some ({ cfg with
        pc := if cfg.netCfgMode = cfg.manager.mode ∧ cfg.netCfgMode ≠ NET_MODE_STA then .NetCfgTask
          else .newMode }, [])
  | .newMode, .proceed =>
      some ({ cfg with
        pc := if cfg.netCfgMode ≠ cfg.manager.mode then .loadMode else switch cfg.netCfgMode }, [])
  | .loadMode, .proceed =>
      some ({ cfg with netCfgMode := cfg.manager.mode, pc := switch cfg.manager.mode }, [])
  | _, _ => none

def taskStep (cfg : NetCfg) (answer : Answer) : Option (NetCfg × List Action) :=
  match cfg.pc with
  | .NetCfgTask | .sameMode | .newMode | .loadMode | .exited => NetCfgTask cfg answer
  | .notify _ | .store _ => SET_NET_EVENT cfg answer
  | .SoftApStart | .closeSocket => NetCfgStartConfig cfg answer
  | .socket | .NetCfgSocket | .accept | .closeClient _ | .setMode => NetCfgSocket cfg answer
  | .NetCfgGetSocketValue | .recvfrom | .WifiStaStop | .SendLocalIp _ =>
      NetCfgGetSocketValue cfg answer
  | .WifiStaStart | .WifiStaConnect | .poll _ => NetCfgConnect cfg answer

def callbackStep (cfg : NetCfg) (s : Int) : NetCfg × List Action :=
  let (manager, actions) := cfg.manager.NetCfgConnectStatus s
  ({ cfg with manager := manager }, .NetCfgConnectStatus s :: actions)

def WifiConnectionChangedHandler (cfg : NetCfg) (state : Int) : NetCfg × List Action :=
  let call (cfg : NetCfg) := if cfg.wifiSta.wifiChange then callbackStep cfg state else (cfg, [])
  if state = WIFI_STATE_AVALIABLE then
    call { cfg with wifiSta := { cfg.wifiSta with connectRetryCount := 0 } }
  else if state = WIFI_STATE_NOT_AVALIABLE ∧
      cfg.wifiSta.connectRetryCount < TEST_CONNECT_RETRY_COUNT then
    let connectRetryCount := cfg.wifiSta.connectRetryCount + 1
    ({ cfg with wifiSta := { cfg.wifiSta with connectRetryCount := connectRetryCount } }, [])
  else call cfg

inductive Callback where
  | disconnected
  | connected
  deriving DecidableEq

/-- The argument of `NetCfgConnectStatus`. -/
def Callback.s : Callback → Int
  | .disconnected => 0
  | .connected => 1

def task : Machine NetCfg Answer Action := ⟨taskStep⟩

/-- The task and a driver that delivers callbacks in any order. -/
def linkMachine : Machine NetCfg (Answer ⊕ Callback) Action :=
  task.interleave ⟨fun cfg callback => some (callbackStep cfg callback.s)⟩

/-- The task and a driver that reports changes of the connection in any order. -/
def wifiMachine : Machine NetCfg (Answer ⊕ Int) Action :=
  task.interleave ⟨fun cfg state =>
    let (next, actions) := WifiConnectionChangedHandler cfg state
    some (next, .WifiConnectionChangedHandler state :: actions)⟩

/-- The state that `NetCfgStart` leaves to the task it creates. -/
def NetCfgStart (nEventCallback : Bool) : NetCfg where
  pc := .NetCfgTask
  netCfgMode := NET_MODE_IDLE
  sockfd := 0
  newfd := 0
  manager :=
    { mode := NET_MODE_CONFIG
      status := NET_STA_NULL
      netRun := true
      gEventCall := nEventCallback }
  wifiSta := { wifiChange := false, connectRetryCount := 0 }
  hotspotActive := false

/-- The task up to the poll of the first attempt. -/
def firstAttempt : List Answer :=
  List.replicate 6 .proceed ++
    [.SoftApStart true, .socket 3 true, .proceed, .accept 4, .proceed, .recvfrom (some true),
      .proceed, .proceed, .WifiStaStart true, .WifiStaConnect true]

end WifiIot.NetConfig
