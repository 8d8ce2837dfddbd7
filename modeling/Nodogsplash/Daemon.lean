import Nodogsplash.Foundation.Execution
import Nodogsplash.StateFile
import Nodogsplash.Http

/-! # The daemon

The commands of `ndsctl`, the start of `main_loop`, and the events the daemon
handles afterwards. -/

namespace Nodogsplash

/-! ## ndsctl -/

/-- The commands of `ndsctl_handler` that leave the daemon running. `status`,
`clients` and `json` print after updating the counters. -/
inductive NdsctlCommand
  | status
  | clients
  | json
  | block (mac : String)
  | unblock (mac : String)
  | allow (mac : String)
  | unallow (mac : String)
  | trust (mac : String)
  | untrust (mac : String)
  | auth (target : String)
  | deauth (target : String)
  | debuglevel (level : String)
  deriving DecidableEq

namespace Gateway

/-- The id under which `ndsctl_auth` and `ndsctl_deauth` know their client; 0
stands for no client. -/
def ndsctlId (gateway : Gateway) (target : String) : BitVec 32 :=
  match gateway.clients.findByAny target target target with
  | some node => node.client.id
  | none => 0

/-- `ndsctl_auth`. -/
def ndsctlAuth (gateway : Gateway) (target : String) : Int × Gateway :=
  let id := gateway.ndsctlId target
  if id ≠ 0 then gateway.authClientAuth id (some "ndsctl_auth") else (-1, gateway)

/-- `ndsctl_deauth`. -/
def ndsctlDeauth (gateway : Gateway) (target : String) : Int × Gateway :=
  let id := gateway.ndsctlId target
  if id ≠ 0 then gateway.authClientDeauth id (some "ndsctl_deauth") else (-1, gateway)

/-- `ndsctl_handler` on a command, with the result that decides between `Yes`
and `No`. The flags are those of `iptables_fw_counters_update`. -/
def ndsctlHandler (gateway : Gateway) (outgoingRead incomingRead : Bool) :
    NdsctlCommand → Int × Gateway
  | .status => (0, (iptablesFwCountersUpdate outgoingRead incomingRead gateway).2)
  | .clients => (0, (iptablesFwCountersUpdate outgoingRead incomingRead gateway).2)
  | .json => (0, (iptablesFwCountersUpdate outgoingRead incomingRead gateway).2)
  | .block mac => gateway.authClientBlock mac
  | .unblock mac => gateway.authClientUnblock mac
  | .allow mac => gateway.authClientAllow mac
  | .unallow mac => gateway.authClientUnallow mac
  | .trust mac => gateway.authClientTrust mac
  | .untrust mac => gateway.authClientUntrust mac
  | .auth target => gateway.ndsctlAuth target
  | .deauth target => gateway.ndsctlDeauth target
  | .debuglevel _ => (0, gateway)

end Gateway

/-! ## Start -/

/-- What the daemon finds when it starts: its configuration, the tables and
commands of the system, the values `rand16` returns, the state file and the
time. `fuel` bounds the calls of `iptables_fw_destroy_mention`. -/
structure Environment where
  config : Config
  kernel : Kernel
  tables : Tables
  tcExitCode : Nat → BitVec 32
  random : Nat → BitVec 16
  stateFile : StateFile
  clock : Int
  fuel : Nat

def Environment.firewall (environment : Environment) : Firewall where
  kernel := environment.kernel
  tables := environment.tables
  issued := 0
  markop := .setMark
  markmask := none

/-- `iptables_fw_destroy` and `iptables_fw_init`, if the latter returns 0. -/
def resetFirewall (fuel : Nat) (config : Config) (firewall : Firewall)
    (traffic : TrafficControl) : Option (Firewall × TrafficControl) := do
  let (firewall, traffic) ← iptablesFwDestroy fuel config firewall traffic
  let (rc, firewall, traffic) := iptablesFwInit config firewall traffic
  if rc = 0 then some (firewall, traffic) else none

/-- `main_loop` up to the import of the state file. -/
def initialGateway (environment : Environment) : Option Gateway := do
  let (firewall, traffic) ← resetFirewall environment.fuel environment.config
    environment.firewall ⟨environment.tcExitCode, []⟩
  let marks ← environment.config.marks.accept
  return {
    config := environment.config
    marks := marks
    clients := .init
    firewall := firewall
    traffic := traffic
    authenticatedSinceStart := 0
    scripts := []
    changes := []
    random := environment.random
    drawn := 0
    clock := environment.clock }

/-- The import of the state file in `main_loop` and its recovery. -/
def restoreState (fuel : Nat) (stateFile : StateFile) (gateway : Gateway) : Option Gateway :=
  let (result, gateway) := gateway.stateFileImport stateFile
  if result < 0 then do
    let (firewall, traffic) ← resetFirewall fuel gateway.config gateway.firewall gateway.traffic
    return { gateway with firewall, traffic, clients := gateway.clients.flush }
  else some gateway

/-- `main_loop` until its threads run; it exits if the firewall cannot be
initialized. -/
def mainLoop (environment : Environment) : Option Gateway :=
  (initialGateway environment).bind (restoreState environment.fuel environment.stateFile)

/-! ## Events -/

/-- One thing the daemon handles, or the kernel counting bytes on a rule. -/
inductive Event
  | request (request : Request)
  | ndsctl (outgoingRead incomingRead : Bool) (command : NdsctlCommand)
  | refresh (outgoingRead incomingRead : Bool)
  | deauthAll
  | traffic (table : Table) (chain : Chain) (number bytes : Nat)

namespace Gateway

def countBytes (gateway : Gateway) (table : Table) (chain : Chain) (number bytes : Nat) :
    Gateway :=
  let entries := (gateway.firewall.tables.chain table chain).getD []
  { gateway with
    firewall.tables := gateway.firewall.tables.setChain table chain
      (entries.modify number fun entry => { entry with bytes := entry.bytes + bytes }) }

def handle (gateway : Gateway) : Event → Gateway
  | .request request => (gateway.libmicrohttpdCb request).2
  | .ndsctl outgoingRead incomingRead command =>
      (gateway.ndsctlHandler outgoingRead incomingRead command).2
  | .refresh outgoingRead incomingRead => fwRefreshClientList outgoingRead incomingRead gateway
  | .deauthAll => authClientDeauthAll gateway
  | .traffic table chain number bytes => gateway.countBytes table chain number bytes

/-- An event together with the time at which it happens. -/
def step (gateway : Gateway) (event : Int × Event) : Gateway :=
  { gateway with clock := event.1 }.handle event.2

end Gateway

/-- Runs of the daemon, one event after the other. -/
abbrev DaemonRun : Gateway → List (Int × Event) → Gateway → Prop :=
  Execution.Run (Execution.ofFunction Gateway.step)

end Nodogsplash
