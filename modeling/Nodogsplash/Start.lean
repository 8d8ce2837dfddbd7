import Nodogsplash.Frame
import Nodogsplash.Initialization

/-! # The states the daemon starts in

What is known of the firewall and the client list when `main_loop` starts its
threads, after the import of the state file or after its recovery. -/

namespace Nodogsplash

/-! ## Removal keeps the kernel -/

theorem iptablesFwDestroyMention_kernel {fuel : Nat} {firewall after : Firewall} {table : Table}
    {chain : Chain} {mention : String}
    (returned : iptablesFwDestroyMention fuel firewall table chain mention = some after) :
    after.kernel = firewall.kernel := by
  induction fuel generalizing firewall with
  | zero => cases returned
  | succ fuel induction =>
      rw [iptablesFwDestroyMention] at returned
      split at returned
      · cases returned
        rfl
      · exact (induction returned).trans (iptablesDoCommand_kernel _ _)

theorem iptablesFwDestroyMentions_kernel {fuel : Nat} {firewall after : Firewall}
    {table : Table} {places : List (Chain × Chain)}
    (returned : iptablesFwDestroyMentions fuel table places firewall = some after) :
    after.kernel = firewall.kernel := by
  induction places generalizing firewall with
  | nil =>
      cases returned
      rfl
  | cons place places induction =>
      rcases place with ⟨chain, mention⟩
      rcases Option.bind_eq_some_iff.mp returned with ⟨middle, first, rest⟩
      exact (induction rest).trans (iptablesFwDestroyMention_kernel first)

theorem destroyTable_kernel {fuel : Nat} {table : Table} {mentions : List (Chain × Chain)}
    {chains : List Chain} {firewall after : Firewall}
    (returned : destroyTable fuel table mentions chains firewall = some after) :
    after.kernel = firewall.kernel := by
  rcases Option.map_eq_some_iff.mp returned with ⟨middle, mentioned, rfl⟩
  exact (iptablesDoCommands_kernel _ _).trans (iptablesFwDestroyMentions_kernel mentioned)

theorem iptablesFwDestroy_kernel {fuel : Nat} {config : Config} {firewall after : Firewall}
    {traffic final : TrafficControl}
    (returned : iptablesFwDestroy fuel config firewall traffic = some (after, final)) :
    after.kernel = firewall.kernel := by
  rcases Option.bind_eq_some_iff.mp returned with ⟨mangle, first, rest⟩
  rcases Option.bind_eq_some_iff.mp rest with ⟨nat, second, rest⟩
  rcases Option.bind_eq_some_iff.mp rest with ⟨filter, third, last⟩
  cases last
  have natKernel : nat.kernel = mangle.kernel := by
    split at second
    · cases second
      rfl
    · exact destroyTable_kernel second
  rw [destroyTable_kernel third, natKernel, destroyTable_kernel first]

theorem resetFirewall_initialized {fuel : Nat} {config : Config} {firewall after : Firewall}
    {traffic final : TrafficControl}
    (reset : resetFirewall fuel config firewall traffic = some (after, final)) :
    ∃ destroyed before, destroyed.kernel = firewall.kernel ∧
      Initialized config destroyed before after := by
  rcases Option.bind_eq_some_iff.mp reset with ⟨⟨destroyed, traffic⟩, returned, rest⟩
  simp only at rest
  split at rest
  · rename_i succeeded
    cases rest
    rcases iptablesFwInit_initialized succeeded with ⟨before, initialized⟩
    exact ⟨destroyed, before, iptablesFwDestroy_kernel returned, initialized⟩
  · cases rest

/-! ## Start -/

/-- The gateway just after its firewall has been initialized: no client, and
marks that have been accepted. -/
structure Gateway.Fresh (gateway : Gateway) (kernel : Kernel) : Prop where
  nodes : gateway.clients.nodes = []
  marks : gateway.marks.toMarks = gateway.config.marks
  initialized : ∃ destroyed before, destroyed.kernel = kernel ∧
    Initialized gateway.config destroyed before gateway.firewall

theorem initialGateway_fresh {environment : Environment} {gateway : Gateway}
    (started : initialGateway environment = some gateway) :
    gateway.Fresh environment.kernel ∧ gateway.clients = .init ∧
      gateway.config = environment.config := by
  rcases Option.bind_eq_some_iff.mp started with ⟨⟨firewall, traffic⟩, reset, rest⟩
  rcases Option.bind_eq_some_iff.mp rest with ⟨marks, accepted, equal⟩
  cases equal
  rcases resetFirewall_initialized reset with ⟨destroyed, before, kernel, initialized⟩
  exact ⟨⟨rfl, Marks.accept_toMarks accepted, destroyed, before, kernel, initialized⟩, rfl, rfl⟩

/-- The daemon starts with what the import made of a fresh gateway, or fresh
again after a failed import. -/
theorem mainLoop_cases {environment : Environment} {gateway : Gateway}
    (started : mainLoop environment = some gateway) :
    ∃ initial, initialGateway environment = some initial ∧
      initial.Fresh environment.kernel ∧
      ((0 ≤ (initial.stateFileImport environment.stateFile).1 ∧
          gateway = (initial.stateFileImport environment.stateFile).2) ∨
        ((initial.stateFileImport environment.stateFile).1 < 0 ∧
          gateway.Fresh environment.kernel ∧
          (initial.stateFileImport environment.stateFile).2.config.SameSettings gateway.config ∧
          gateway.clients =
            (initial.stateFileImport environment.stateFile).2.clients.flush)) := by
  rcases Option.bind_eq_some_iff.mp started with ⟨initial, found, restored⟩
  have fresh := (initialGateway_fresh found).1
  refine ⟨initial, found, fresh, ?_⟩
  have follows := (Gateway.stateFileImport_transitions initial environment.stateFile).follows
  rw [restoreState] at restored
  simp only at restored
  split at restored
  · rename_i failed
    right
    rcases Option.bind_eq_some_iff.mp restored with ⟨⟨firewall, traffic⟩, reset, equal⟩
    cases equal
    rcases resetFirewall_initialized reset with ⟨destroyed, before, kernel, initialized⟩
    rcases fresh.initialized with ⟨firstDestroyed, firstBefore, firstKernel, first⟩
    refine ⟨failed, ⟨ClientList.nodes_flush _, ?_, destroyed, before, ?_, initialized⟩,
      .refl _, rfl⟩
    · rw [follows.marks, fresh.marks]
      exact follows.settings.marks.symm
    · rw [kernel, follows.firewall.kernel, first.kernel, firstKernel]
  · rename_i succeeded
    left
    cases restored
    exact ⟨by omega, rfl⟩

def Gateway.ValidAddresses (gateway : Gateway) : Prop :=
  ∀ node ∈ gateway.clients.nodes,
    checkMacFormat node.client.mac = true ∧ checkIpFormat node.client.ip = true

theorem Gateway.ValidAddresses.transitions {permits : Permissions} {gateway next : Gateway}
    (valid : gateway.ValidAddresses) (transitions : Transitions permits gateway next) :
    next.ValidAddresses := by
  induction transitions with
  | refl => exact valid
  | tail _ transition induction =>
      intro node member
      rcases transition.source_of_mem member with ⟨source, inList, _, mac, ip⟩ | added
      · rw [← mac, ← ip]
        exact induction source inList
      · exact added

theorem validAddresses_of_started {environment : Environment} {gateway : Gateway}
    (started : mainLoop environment = some gateway) : gateway.ValidAddresses := by
  have empty {gateway : Gateway} (none : gateway.clients.nodes = []) :
      gateway.ValidAddresses := by
    intro node member
    rw [none] at member
    cases member
  rcases mainLoop_cases started with ⟨initial, _, fresh, ⟨_, rfl⟩ | ⟨_, recovered, _⟩⟩
  · exact (empty fresh.nodes).transitions
      (Gateway.stateFileImport_transitions initial environment.stateFile)
  · exact empty recovered.nodes

/-! ## A default installation -/

/-- The built-in defaults, with empty rulesets. -/
def defaultConfig : Config where
  maxclients := 20
  gwName := "NoDogSplash"
  gwInterface := "br-lan"
  gwIprange := "0.0.0.0/0"
  gwAddress := "192.168.42.1:2050"
  gwHttpName := "192.168.42.1:2050"
  gwHttpNamePort := "192.168.42.1:2050"
  gwPort := 2050
  splashpage := "splash.html"
  redirectURL := none
  authdir := "nodogsplash_auth"
  denydir := "nodogsplash_deny"
  sessionTimeout := 0
  sessionTimeoutBlock := 0
  sessionLimitBlock := 0
  preauthIdleTimeout := 10
  authIdleTimeout := 120
  setMss := true
  mssValue := 0
  trafficControl := false
  downloadLimit := 0
  uploadLimit := 0
  uploadIfb := 0
  macmechanism := .block
  rulesets name :=
    { emptyrulesetpolicy := match name with
        | .trustedUsers => .accept
        | .trustedUsersToRouter => .accept
        | .usersToRouter => .reject
        | .authenticatedUsers => .passthrough
        | .preauthenticatedUsers => .reject
      rules := [] }
  trustedmaclist := []
  blockedmaclist := []
  allowedmaclist := []
  fwMarkAuthenticated := 0x30000
  fwMarkBlocked := 0x10000
  fwMarkTrusted := 0x20000
  ip6 := false
  binauth := none

/-- A kernel with all extensions, on which iptables decides alone. -/
def willingKernel : Kernel where
  orMark := true
  markMask := true
  iptablesVersion := 10807
  exitCode _ := 0
  stray text := text

def bareTables : Tables where
  mangle := [⟨.prerouting, []⟩, ⟨.input, []⟩, ⟨.forward, []⟩, ⟨.postrouting, []⟩]
  nat := [⟨.prerouting, []⟩, ⟨.input, []⟩, ⟨.postrouting, []⟩]
  filter := [⟨.input, []⟩, ⟨.forward, []⟩]

/-- A system on which the daemon has not run before. -/
def defaultEnvironment : Environment where
  config := defaultConfig
  kernel := willingKernel
  tables := bareTables
  tcExitCode _ := 0
  random number := BitVec.ofNat 16 number
  stateFile := .missing
  clock := 1000
  fuel := 4

/-- A request of a new client for a page of the gateway. -/
def defaultRequest (url : String) (argument : String → Option String) : Request where
  method := "GET"
  url := url
  ip := some "192.168.42.10"
  neighbour := some "00:16:3e:00:00:01"
  headers := [("Host", some "192.168.42.1:2050")]
  arguments := []
  argument := argument
  script := ⟨.exited 0, ""⟩

def requestFrom (ip mac : String) : Request :=
  { defaultRequest "/" fun _ => none with ip := some ip, neighbour := some mac }

theorem initialGateway_default : (initialGateway defaultEnvironment).isSome = true := by
  decide +kernel

def defaultGateway : Gateway := (initialGateway defaultEnvironment).get initialGateway_default

theorem initialGateway_defaultGateway :
    initialGateway defaultEnvironment = some defaultGateway :=
  Option.some_get initialGateway_default |>.symm

theorem mainLoop_defaultGateway : mainLoop defaultEnvironment = some defaultGateway := by
  rw [mainLoop, initialGateway_defaultGateway]
  rfl

def defaultClient (id : BitVec 32) (mac ip : String) : Client where
  ip := ip
  mac := mac
  token := "deadbeef"
  fwConnectionState := preauthenticatedState
  sessionStart := 0
  sessionEnd := 0
  counters := ⟨0, 0, 1000⟩
  downloadLimit := 0
  uploadLimit := 0
  id := id

end Nodogsplash
