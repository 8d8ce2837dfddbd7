import Nodogsplash.ClientList

/-! # The state of the daemon and the operations on clients

Everything the threads of the daemon share, with the functions of
`client_list.c`, `fw_iptables.c` and `auth.c` that change it. Each function
runs inside one critical section. -/

namespace Nodogsplash

/-- The arguments of one run of the BinAuth script by `binauth_action`. -/
structure ScriptCall where
  reason : String
  mac : String
  counters : Counters
  sessionStart : Int
  sessionEnd : Int
  deriving DecidableEq

/-- A change of state that `auth_change_state` carried out. -/
structure Change where
  address : Nat
  mac : String
  state : BitVec 32
  newState : BitVec 32
  reason : Option String
  deriving DecidableEq

/-- The variables of the daemon: its configuration, the `FW_MARK_*` values, the
client list, the firewall and traffic control, the count of authentications,
the scripts run and the changes of state made so far, the values `rand16` is
going to return, and the time. -/
structure Gateway where
  config : Config
  marks : AcceptedMarks
  clients : ClientList
  firewall : Firewall
  traffic : TrafficControl
  authenticatedSinceStart : Nat
  scripts : List ScriptCall
  changes : List Change
  random : Nat → BitVec 16
  drawn : Nat
  clock : Int

namespace Gateway

/-! ## Adding and resetting clients -/

/-- `%04hx`. -/
def hex16 (value : BitVec 16) : String :=
  String.ofList (([12, 8, 4, 0] : List Nat).map fun shift =>
    hexDigit (value.toNat / 2 ^ shift % 16))

def drawToken (gateway : Gateway) : String × Gateway :=
  (hex16 (gateway.random gateway.drawn) ++ hex16 (gateway.random (gateway.drawn + 1)),
    { gateway with drawn := gateway.drawn + 2 })

/-- `client_reset` with its new token. -/
def resetFields (now : Int) (token : String) (client : Client) : Client :=
  { client with
    counters := { incoming := 0, outgoing := 0, lastUpdated := now }
    sessionStart := 0
    sessionEnd := 0
    token := token }

/-- The state `_client_list_append` gives to a client. -/
def classify (config : Config) (marks : Marks) (mac : String) : BitVec 32 :=
  if config.isBlockedMac mac then marks.blocked
  else if config.isAllowedMac mac || config.isTrustedMac mac then marks.trusted
  else preauthenticatedState

theorem preauthenticated_ne_authenticated (marks : AcceptedMarks) :
    preauthenticatedState ≠ marks.authenticated :=
  fun equal => marks.authenticated_ne_zero equal.symm

theorem classify_cases (config : Config) (marks : Marks) (mac : String) :
    classify config marks mac = marks.blocked ∨ classify config marks mac = marks.trusted ∨
      classify config marks mac = preauthenticatedState := by
  rw [classify]
  split
  · exact .inl rfl
  · split
    · exact .inr (.inl rfl)
    · exact .inr (.inr rfl)

theorem classify_ne_authenticated (config : Config) (marks : AcceptedMarks) (mac : String) :
    classify config marks.toMarks mac ≠ marks.authenticated := by
  rcases classify_cases config marks.toMarks mac with equal | equal | equal
  · rw [equal]
    exact Ne.symm marks.authenticated_ne_blocked
  · rw [equal]
    exact marks.trusted_ne_authenticated
  · rw [equal]
    exact preauthenticated_ne_authenticated marks

/-- The client `_client_list_append` allocates. -/
def newClient (gateway : Gateway) (mac ip token : String) : Client :=
  resetFields gateway.clock token
    { ip := ip, mac := mac, token := "", sessionStart := 0, sessionEnd := 0,
      counters := ⟨0, 0, 0⟩, downloadLimit := 0, uploadLimit := 0
      fwConnectionState := classify gateway.config gateway.marks.toMarks mac
      id := gateway.clients.clientId }

/-- `_client_list_append`. -/
def clientListAppend (gateway : Gateway) (mac ip : String) : Option Node × Gateway :=
  if gateway.clients.clientCount ≥ gateway.config.maxclients then (none, gateway)
  else
    let draw := gateway.drawToken
    let client := gateway.newClient mac ip draw.1
    (some ⟨gateway.clients.created, client⟩,
      { draw.2 with clients := gateway.clients.push client })

/-- `client_list_add_client`. -/
def clientListAddClient (gateway : Gateway) (mac ip : String) : Option Node × Gateway :=
  if !checkMacFormat mac then (none, gateway)
  else if !checkIpFormat ip then (none, gateway)
  else
    match gateway.clients.find mac ip with
    | some node => (some node, gateway)
    | none => gateway.clientListAppend mac ip

/-- `client_list_delete`. -/
def clientListDelete (gateway : Gateway) (address : Nat) : Gateway :=
  { gateway with clients := gateway.clients.delete address }

def modifyClient (gateway : Gateway) (address : Nat) (change : Client → Client) : Gateway :=
  { gateway with clients := gateway.clients.modify address change }

/-- `client_reset`. -/
def clientReset (gateway : Gateway) (address : Nat) : Gateway :=
  let draw := gateway.drawToken
  draw.2.modifyClient address (resetFields gateway.clock draw.1)

/-! ## MAC lists and their rules -/

/-- The six operations share one shape: edit a MAC list, and run the iptables
command if that returns 0. -/
def editMacList (gateway : Gateway) (edited : Int × Config)
    (command : Firewall → BitVec 32 × Firewall) : Int × Gateway :=
  let result := if edited.1 = 0 then command gateway.firewall else (-1, gateway.firewall)
  (if result.1 = 0 then 0 else -1, { gateway with config := edited.2, firewall := result.2 })

/-- `auth_client_trust`. -/
def authClientTrust (gateway : Gateway) (mac : String) : Int × Gateway :=
  gateway.editMacList (gateway.config.addToTrustedMacList mac) fun firewall =>
    iptablesTrustMac firewall gateway.marks.toMarks mac

/-- `auth_client_untrust`. -/
def authClientUntrust (gateway : Gateway) (mac : String) : Int × Gateway :=
  gateway.editMacList (gateway.config.removeFromTrustedMacList mac) fun firewall =>
    iptablesUntrustMac firewall gateway.marks.toMarks mac

/-- `auth_client_allow`. -/
def authClientAllow (gateway : Gateway) (mac : String) : Int × Gateway :=
  gateway.editMacList (gateway.config.addToAllowedMacList mac) fun firewall =>
    iptablesAllowMac firewall mac

/-- `auth_client_unallow`. -/
def authClientUnallow (gateway : Gateway) (mac : String) : Int × Gateway :=
  gateway.editMacList (gateway.config.removeFromAllowedMacList mac) fun firewall =>
    iptablesUnallowMac firewall mac

/-- `auth_client_block`. -/
def authClientBlock (gateway : Gateway) (mac : String) : Int × Gateway :=
  gateway.editMacList (gateway.config.addToBlockedMacList mac) fun firewall =>
    iptablesBlockMac firewall gateway.marks.toMarks mac

/-- `auth_client_unblock`. -/
def authClientUnblock (gateway : Gateway) (mac : String) : Int × Gateway :=
  gateway.editMacList (gateway.config.removeFromBlockedMacList mac) fun firewall =>
    iptablesUnblockMac firewall gateway.marks.toMarks mac

/-! ## Changes of state -/

def shapingLimits (config : Config) (client : Client) : Int × Int :=
  if client.downloadLimit > 0 ∧ client.uploadLimit > 0 then
    (client.downloadLimit, client.uploadLimit)
  else (config.downloadLimit, config.uploadLimit)

/-- `iptables_fw_authenticate`. -/
def iptablesFwAuthenticate (gateway : Gateway) (client : Client) : BitVec 32 × Gateway :=
  let marks := gateway.marks.toMarks
  let markop := gateway.firewall.markop
  let limits := shapingLimits gateway.config client
  let rules := iptablesDoCommands gateway.firewall
    (.append .mangle .outgoing (outgoingRule markop marks client.ip client.mac) ::
      (incomingRules markop marks client.ip).map (.append .mangle .incoming))
  let shaping :=
    if gateway.config.trafficControl then
      tcAttachClient gateway.config gateway.config.gwInterface limits.1
        gateway.config.uploadIfbname limits.2 client.id.toInt client.ip gateway.traffic
    else (0, gateway.traffic)
  (rules.1 ||| shaping.1, { gateway with firewall := rules.2, traffic := shaping.2 })

theorem iptablesFwAuthenticate_firewall (gateway : Gateway) (client : Client) :
    (gateway.iptablesFwAuthenticate client).2.firewall =
      (iptablesDoCommands gateway.firewall
        (.append .mangle .outgoing
            (outgoingRule gateway.firewall.markop gateway.marks.toMarks client.ip client.mac) ::
          (incomingRules gateway.firewall.markop gateway.marks.toMarks client.ip).map
            (.append .mangle .incoming))).2 := rfl

/-- `iptables_fw_deauthenticate`. -/
def iptablesFwDeauthenticate (gateway : Gateway) (client : Client) : BitVec 32 × Gateway :=
  let marks := gateway.marks.toMarks
  let markop := gateway.firewall.markop
  let limits := shapingLimits gateway.config client
  let rules := iptablesDoCommands gateway.firewall
    (.delete .mangle .outgoing (outgoingRule markop marks client.ip client.mac) ::
      (incomingRules markop marks client.ip).map (.delete .mangle .incoming))
  let shaping :=
    if gateway.config.trafficControl then
      tcDetachClient gateway.config.gwInterface limits.1
        gateway.config.uploadIfbname limits.2 client.id.toInt gateway.traffic
    else (0, gateway.traffic)
  (rules.1 ||| shaping.1, { gateway with firewall := rules.2, traffic := shaping.2 })

theorem iptablesFwDeauthenticate_firewall (gateway : Gateway) (client : Client) :
    (gateway.iptablesFwDeauthenticate client).2.firewall =
      (iptablesDoCommands gateway.firewall
        (.delete .mangle .outgoing
            (outgoingRule gateway.firewall.markop gateway.marks.toMarks client.ip client.mac) ::
          (incomingRules gateway.firewall.markop gateway.marks.toMarks client.ip).map
            (.delete .mangle .incoming))).2 := rfl

/-- `binauth_action`. -/
def binauthAction (gateway : Gateway) (client : Client) (reason : Option String) : Gateway :=
  { gateway with
    scripts := gateway.scripts ++ gateway.config.binauth.toList.map fun _ =>
      { reason := reason.getD "unknown", mac := client.mac, counters := client.counters,
        sessionStart := client.sessionStart, sessionEnd := client.sessionEnd } }

def record (gateway : Gateway) (node : Node) (newState : BitVec 32) (reason : Option String) :
    Gateway :=
  { gateway with
    changes := gateway.changes ++
      [⟨node.address, node.client.mac, node.client.fwConnectionState, newState, reason⟩] }

/-- Assign `fw_connection_state`. -/
def setState (gateway : Gateway) (node : Node) (newState : BitVec 32) : Gateway :=
  gateway.modifyClient node.address fun client => { client with fwConnectionState := newState }

/-- `auth_change_state` from preauthenticated to authenticated. -/
def enterAuthenticated (gateway : Gateway) (node : Node) (reason : Option String) : Gateway :=
  let gateway := (gateway.iptablesFwAuthenticate node.client).2
  let gateway := gateway.binauthAction node.client reason
  let newState := gateway.marks.authenticated
  (gateway.setState node newState).record node newState reason

/-- `auth_change_state` from authenticated to preauthenticated. -/
def leaveAuthenticated (gateway : Gateway) (node : Node) (reason : Option String) : Gateway :=
  let gateway := (gateway.iptablesFwDeauthenticate node.client).2
  let gateway := gateway.binauthAction node.client reason
  let gateway := gateway.clientReset node.address
  (gateway.setState node preauthenticatedState).record node preauthenticatedState reason

/-- `auth_change_state` from authenticated to blocked. -/
def leaveBlocked (gateway : Gateway) (node : Node) (reason : Option String) : Gateway :=
  let gateway := (gateway.iptablesFwDeauthenticate node.client).2
  let gateway := gateway.binauthAction node.client reason
  let gateway := (gateway.authClientBlock node.client.mac).2
  (gateway.clientListDelete node.address).record node gateway.marks.blocked reason

section

variable (gateway : Gateway) (node : Node) (reason : Option String)

theorem enterAuthenticated_config :
    (gateway.enterAuthenticated node reason).config = gateway.config := by
  simp only [enterAuthenticated, record, setState, modifyClient, binauthAction,
    iptablesFwAuthenticate]

theorem enterAuthenticated_marks :
    (gateway.enterAuthenticated node reason).marks = gateway.marks := by
  simp only [enterAuthenticated, record, setState, modifyClient, binauthAction,
    iptablesFwAuthenticate]

theorem enterAuthenticated_firewall :
    (gateway.enterAuthenticated node reason).firewall =
      (gateway.iptablesFwAuthenticate node.client).2.firewall := by
  simp only [enterAuthenticated, record, setState, modifyClient, binauthAction,
    iptablesFwAuthenticate]

theorem enterAuthenticated_clients :
    (gateway.enterAuthenticated node reason).clients =
      gateway.clients.modify node.address fun client =>
        { client with fwConnectionState := gateway.marks.authenticated } := by
  simp only [enterAuthenticated, record, setState, modifyClient, binauthAction,
    iptablesFwAuthenticate]

theorem enterAuthenticated_changes :
    (gateway.enterAuthenticated node reason).changes = gateway.changes ++
      [⟨node.address, node.client.mac, node.client.fwConnectionState,
        gateway.marks.authenticated, reason⟩] := by
  simp only [enterAuthenticated, record, setState, modifyClient, binauthAction,
    iptablesFwAuthenticate]

theorem leaveAuthenticated_config :
    (gateway.leaveAuthenticated node reason).config = gateway.config := by
  simp only [leaveAuthenticated, record, setState, clientReset, modifyClient,
    drawToken, binauthAction, iptablesFwDeauthenticate]

theorem leaveAuthenticated_marks :
    (gateway.leaveAuthenticated node reason).marks = gateway.marks := by
  simp only [leaveAuthenticated, record, setState, clientReset, modifyClient,
    drawToken, binauthAction, iptablesFwDeauthenticate]

theorem leaveAuthenticated_firewall :
    (gateway.leaveAuthenticated node reason).firewall =
      (gateway.iptablesFwDeauthenticate node.client).2.firewall := by
  simp only [leaveAuthenticated, record, setState, clientReset, modifyClient,
    drawToken, binauthAction, iptablesFwDeauthenticate]

theorem leaveAuthenticated_clients :
    (gateway.leaveAuthenticated node reason).clients =
      (gateway.clients.modify node.address
        (resetFields gateway.clock gateway.drawToken.1)).modify node.address fun client =>
          { client with fwConnectionState := preauthenticatedState } := by
  simp only [leaveAuthenticated, record, setState, clientReset, modifyClient,
    drawToken, binauthAction, iptablesFwDeauthenticate]

theorem leaveAuthenticated_changes :
    (gateway.leaveAuthenticated node reason).changes = gateway.changes ++
      [⟨node.address, node.client.mac, node.client.fwConnectionState, preauthenticatedState,
        reason⟩] := by
  simp only [leaveAuthenticated, record, setState, clientReset, modifyClient,
    drawToken, binauthAction, iptablesFwDeauthenticate]

/-- The list edit and the iptables command of `auth_client_block` come after
the deauthentication rules are gone. -/
theorem leaveBlocked_config :
    (gateway.leaveBlocked node reason).config =
      (gateway.config.addToBlockedMacList node.client.mac).2 := by
  simp only [leaveBlocked, record, clientListDelete, authClientBlock, editMacList,
    binauthAction, iptablesFwDeauthenticate]

theorem leaveBlocked_marks :
    (gateway.leaveBlocked node reason).marks = gateway.marks := by
  simp only [leaveBlocked, record, clientListDelete, authClientBlock, editMacList,
    binauthAction, iptablesFwDeauthenticate]

theorem leaveBlocked_firewall :
    (gateway.leaveBlocked node reason).firewall =
      ((gateway.iptablesFwDeauthenticate node.client).2.authClientBlock
        node.client.mac).2.firewall := by
  simp only [leaveBlocked, record, clientListDelete, authClientBlock, editMacList,
    binauthAction, iptablesFwDeauthenticate]
  rfl

theorem leaveBlocked_clients :
    (gateway.leaveBlocked node reason).clients =
      gateway.clients.delete node.address := by
  simp only [leaveBlocked, record, clientListDelete, authClientBlock, editMacList,
    binauthAction, iptablesFwDeauthenticate]

theorem leaveBlocked_changes :
    (gateway.leaveBlocked node reason).changes = gateway.changes ++
      [⟨node.address, node.client.mac, node.client.fwConnectionState, gateway.marks.blocked,
        reason⟩] := by
  simp only [leaveBlocked, record, clientListDelete, authClientBlock, editMacList,
    binauthAction, iptablesFwDeauthenticate]

end

/-- `auth_change_state`. All targets not listed are refused, and so are all
changes from the states blocked and trusted. -/
def authChangeState (gateway : Gateway) (node : Node) (newState : BitVec 32)
    (reason : Option String) : Int × Gateway :=
  let marks := gateway.marks
  let state := node.client.fwConnectionState
  if state = newState then (-1, gateway)
  else if state = preauthenticatedState then
    if newState = marks.authenticated then (0, gateway.enterAuthenticated node reason)
    else (-1, gateway)
  else if state = marks.authenticated then
    if newState = preauthenticatedState then (0, gateway.leaveAuthenticated node reason)
    else if newState = marks.blocked then (0, gateway.leaveBlocked node reason)
    else (-1, gateway)
  else (-1, gateway)

/-- `auth_client_deauth`. -/
def authClientDeauth (gateway : Gateway) (id : BitVec 32) (reason : Option String) :
    Int × Gateway :=
  match gateway.clients.findById id with
  | none => (-1, gateway)
  | some node => gateway.authChangeState node preauthenticatedState reason

/-- `auth_client_auth_nolock`, which is also the critical section of
`auth_client_auth`. -/
def authClientAuth (gateway : Gateway) (id : BitVec 32) (reason : Option String) :
    Int × Gateway :=
  match gateway.clients.findById id with
  | none => (-1, gateway)
  | some node =>
      let (rc, gateway) := gateway.authChangeState node gateway.marks.authenticated reason
      (rc, { gateway with
        authenticatedSinceStart := gateway.authenticatedSinceStart + if rc = 0 then 1 else 0 })

/-! ## Byte counters -/

def sourceColumn (rule : Rule) : String :=
  (rule.conditions.findSome? fun
    | .source address => some address
    | _ => none).getD "0.0.0.0/0"

def destinationColumn (rule : Rule) : String :=
  (rule.conditions.findSome? fun
    | .destination address => some address
    | _ => none).getD "0.0.0.0/0"

/-- `%15[0-9.]`. -/
def scanAddress (text : String) : String :=
  String.ofList ((text.toList.take 15).takeWhile fun char => char.isDigit || char = '.')

/-- One listed rule in `iptables_fw_counters_update`: if its address is that of
a client, `raise` its counters. -/
def readCounter (column : Rule → String) (raise : Nat → Counters → Counters)
    (gateway : Gateway) (entry : Entry) : Gateway :=
  let ip := scanAddress (column entry.rule)
  if gateway.config.ip6 || !checkIpFormat ip then gateway
  else
    match gateway.clients.findByIp ip with
    | none => gateway
    | some node =>
        gateway.modifyClient node.address fun client =>
          { client with counters := raise entry.bytes client.counters }

def listedEntries (gateway : Gateway) (chain : Chain) (wanted : Target → Bool) : List Entry :=
  ((gateway.firewall.tables.chain .mangle chain).getD []).filter fun entry =>
    wanted entry.rule.target

def raiseOutgoing (now : Int) (bytes : Nat) (counters : Counters) : Counters :=
  if counters.outgoing < bytes then { counters with outgoing := bytes, lastUpdated := now }
  else counters

def raiseIncoming (bytes : Nat) (counters : Counters) : Counters :=
  if counters.incoming < bytes then { counters with incoming := bytes } else counters

/-- `iptables_fw_counters_update`, and whether it returns 0; the two flags say
whether `popen` gives it the two listings. -/
def iptablesFwCountersUpdate (outgoingRead incomingRead : Bool) (gateway : Gateway) :
    Bool × Gateway :=
  if !outgoingRead then (false, gateway)
  else
    let marked := gateway.listedEntries .outgoing fun
      | .mark _ _ => true
      | _ => false
    let gateway := marked.foldl (readCounter sourceColumn (raiseOutgoing gateway.clock)) gateway
    if !incomingRead then (false, gateway)
    else
      let accepted := gateway.listedEntries .incoming fun target => decide (target = .accept)
      (true, accepted.foldl (readCounter destinationColumn raiseIncoming) gateway)

/-! ## Passes over the client list -/

/-- What `fw_refresh_client_list` does with one client. -/
def refreshClient (gateway : Gateway) (node : Node) : Gateway :=
  let config := gateway.config
  let now := gateway.clock
  let preauthIdleTimeoutSecs := toInt32 (60 * config.preauthIdleTimeout)
  let authIdleTimeoutSecs := toInt32 (60 * config.authIdleTimeout)
  let client := node.client
  let connState := client.fwConnectionState
  let lastUpdated := client.counters.lastUpdated
  if client.sessionEnd > 0 ∧ client.sessionEnd ≤ now then
    if config.sessionTimeoutBlock > 0 then
      (gateway.authChangeState node gateway.marks.blocked (some "timeout_deauth_block")).2
    else
      (gateway.authChangeState node preauthenticatedState (some "timeout_deauth")).2
  else if config.sessionLimitBlock > 0 ∧
      client.counters.incoming / 1000 > toUInt64 (toInt32 (config.sessionLimitBlock * 1000)) then
    (gateway.authChangeState node gateway.marks.blocked (some "limitout_deauth_block")).2
  else if preauthIdleTimeoutSecs > 0 ∧ connState = preauthenticatedState ∧
      lastUpdated + preauthIdleTimeoutSecs ≤ now then
    gateway.clientListDelete node.address
  else if authIdleTimeoutSecs > 0 ∧ connState = gateway.marks.authenticated ∧
      lastUpdated + authIdleTimeoutSecs ≤ now then
    (gateway.authChangeState node preauthenticatedState (some "idle_deauth")).2
  else gateway

/-- The loop over the list of `fw_refresh_client_list` and
`auth_client_deauth_all`: every element is looked up again by its id. The
element visited next is never the one that is freed, since the lookup finds
the current element or one before it. -/
def forEachClient (visit : Gateway → Node → Gateway) (gateway : Gateway) : Gateway :=
  gateway.clients.nodes.foldl
    (fun gateway node =>
      match gateway.clients.findById node.client.id with
      | none => gateway
      | some found => visit gateway found)
    gateway

/-- `fw_refresh_client_list`. -/
def fwRefreshClientList (outgoingRead incomingRead : Bool) (gateway : Gateway) : Gateway :=
  let (updated, gateway) := iptablesFwCountersUpdate outgoingRead incomingRead gateway
  if updated then forEachClient refreshClient gateway else gateway

/-- `auth_client_deauth_all`. -/
def authClientDeauthAll (gateway : Gateway) : Gateway :=
  forEachClient (fun gateway node =>
    (gateway.authChangeState node preauthenticatedState (some "shutdown_deauth")).2) gateway

end Gateway

end Nodogsplash
