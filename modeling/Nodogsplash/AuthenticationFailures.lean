import Nodogsplash.TrafficObjects

/-! # Authentication when commands fail

`iptables_fw_authenticate` joins the results of its commands. What
`auth_client_auth` makes of the joined result. -/

namespace Nodogsplash

/-- The commands of `tc_attach_client`. -/
def tcAttachCommands (config : Config) (downDev : String) (downloadLimit : Int) (upDev : String)
    (uploadLimit idx : Int) (ip : String) : List TcCommand :=
  let dlimit := min downloadLimit config.downloadLimit
  let ulimit := min uploadLimit config.uploadLimit
  let id := tcId idx
  (if dlimit > 0 then tcAttachDevice downDev dlimit id "dst" "sport" ip else []) ++
    if ulimit > 0 then tcAttachDevice upDev ulimit id "src" "dport" ip else []

namespace Gateway

/-! ## The commands for one client -/

/-- The iptables commands of `iptables_fw_authenticate`. -/
def authenticateCommands (gateway : Gateway) (client : Client) : List Command :=
  let markop := gateway.firewall.markop
  let marks := gateway.marks.toMarks
  .append .mangle .outgoing (outgoingRule markop marks client.ip client.mac) ::
    (incomingRules markop marks client.ip).map (.append .mangle .incoming)

def attachCommands (gateway : Gateway) (client : Client) : List TcCommand :=
  let limits := shapingLimits gateway.config client
  if gateway.config.trafficControl then
    tcAttachCommands gateway.config gateway.config.gwInterface limits.1
      gateway.config.uploadIfbname limits.2 client.id.toInt client.ip
  else []

/-- Each of the commands succeeds. -/
structure AcceptsClient (gateway : Gateway) (client : Client) : Prop where
  iptables : gateway.firewall.AcceptsAll (gateway.authenticateCommands client)
  tc : gateway.traffic.AcceptsAll (gateway.attachCommands client)

structure Installed (gateway next : Gateway) (client : Client) : Prop where
  outgoing : next.firewall.tables.rules .mangle .outgoing =
    gateway.firewall.tables.rules .mangle .outgoing ++
      [outgoingRule gateway.firewall.markop gateway.marks.toMarks client.ip client.mac]
  incoming : next.firewall.tables.rules .mangle .incoming =
    gateway.firewall.tables.rules .mangle .incoming ++
      incomingRules gateway.firewall.markop gateway.marks.toMarks client.ip
  shaped : next.traffic.commands = gateway.traffic.commands ++ gateway.attachCommands client ∧
    gateway.traffic.AcceptsAll (gateway.attachCommands client)

/-- Success means that the client is authenticated with all its rules; a failed
command means that nothing is recorded and a later call can succeed. -/
structure AllOrNothing (gateway : Gateway) (id : BitVec 32) (reason : Option String) : Prop where
  succeeded : (gateway.authClientAuth id reason).1 = 0 →
    ∃ node, gateway.clients.findById id = some node ∧
      gateway.Installed (gateway.authClientAuth id reason).2 node.client ∧
      { node with client :=
          { node.client with fwConnectionState := gateway.marks.authenticated } } ∈
        (gateway.authClientAuth id reason).2.clients.nodes
  failed : ∀ node, gateway.clients.findById id = some node →
    node.client.fwConnectionState = preauthenticatedState → ¬ gateway.AcceptsClient node.client →
    (gateway.authClientAuth id reason).1 ≠ 0 ∧
      (gateway.authClientAuth id reason).2.clients = gateway.clients ∧
      (gateway.authClientAuth id reason).2.authenticatedSinceStart =
        gateway.authenticatedSinceStart ∧
      ∀ firewall traffic, let later := { (gateway.authClientAuth id reason).2 with
          firewall := firewall, traffic := traffic }
        later.AcceptsClient node.client → (later.authClientAuth id reason).1 = 0

/-- `iptables_fw_authenticate` runs the two sequences of commands. -/
theorem iptablesFwAuthenticate_eq (gateway : Gateway) (client : Client) :
    gateway.iptablesFwAuthenticate client =
      let rules := iptablesDoCommands gateway.firewall (gateway.authenticateCommands client)
      let shaping := gateway.traffic.executeAll (gateway.attachCommands client)
      (rules.1 ||| shaping.1, { gateway with firewall := rules.2, traffic := shaping.2 }) := by
  rw [iptablesFwAuthenticate, attachCommands]
  by_cases control : gateway.config.trafficControl = true
  · simp only [if_pos control]
    rfl
  · simp only [if_neg control]
    rfl

/-- Its result, which `auth_change_state` drops, tells whether all commands
succeeded. -/
theorem iptablesFwAuthenticate_eq_zero_iff (gateway : Gateway) (client : Client) :
    (gateway.iptablesFwAuthenticate client).1 = 0 ↔ gateway.AcceptsClient client := by
  rw [iptablesFwAuthenticate_eq, joinedCode_eq_zero, iptablesDoCommands_eq_zero_iff,
    TrafficControl.executeAll_eq_zero_iff]
  exact ⟨fun ⟨iptables, tc⟩ => ⟨iptables, tc⟩, fun accepts => ⟨accepts.iptables, accepts.tc⟩⟩

theorem authClientAuth_of_none {gateway : Gateway} {id : BitVec 32} (reason : Option String)
    (absent : ∀ node, gateway.clients.findById id = some node →
      node.client.fwConnectionState ≠ preauthenticatedState) :
    (gateway.authClientAuth id reason).1 ≠ 0 := by
  rw [authClientAuth]
  cases found : gateway.clients.findById id with
  | none => exact show (-1 : Int) ≠ 0 by decide
  | some node =>
      have refused : gateway.authChangeState node gateway.marks.authenticated reason =
          (-1, gateway) := by
        rcases gateway.authChangeState_cases node gateway.marks.authenticated reason with
          ⟨state, _⟩ | ⟨_, target, _⟩ | ⟨_, target, _⟩ | refused
        · exact absurd state (absent node found)
        · exact absurd target.symm (preauthenticated_ne_authenticated gateway.marks)
        · exact absurd target gateway.marks.authenticated_ne_blocked
        · exact refused
      simp only [refused]
      decide

theorem authClientAuth_of_preauthenticated {gateway : Gateway} {id : BitVec 32} {node : Node}
    (reason : Option String) (found : gateway.clients.findById id = some node)
    (state : node.client.fwConnectionState = preauthenticatedState) :
    gateway.authClientAuth id reason = (0, { gateway.enterAuthenticated node reason with
      authenticatedSinceStart :=
        (gateway.enterAuthenticated node reason).authenticatedSinceStart + 1 }) := by
  simp only [authClientAuth, found, authChangeState_of_preauthenticated gateway reason state]
  rfl

/-- Commands that all succeed put the rules and the shaping in place. -/
theorem AcceptsClient.installed {gateway : Gateway} {node : Node}
    (accepts : gateway.AcceptsClient node.client) (reason : Option String) :
    gateway.Installed (gateway.enterAuthenticated node reason) node.client := by
  have succeeded := (iptablesDoCommands_eq_zero_iff _ _).mpr accepts.iptables
  have traffic : (gateway.enterAuthenticated node reason).traffic =
      (gateway.iptablesFwAuthenticate node.client).2.traffic := rfl
  have outgoing := rules_iptablesDoCommands succeeded .mangle .outgoing
  have incoming := rules_iptablesDoCommands succeeded .mangle .incoming
  constructor
  · rw [enterAuthenticated_firewall, iptablesFwAuthenticate_eq, outgoing]
    simp [authenticateCommands, incomingRules, Command.effect, Command.place]
  · rw [enterAuthenticated_firewall, iptablesFwAuthenticate_eq, incoming]
    simp [authenticateCommands, incomingRules, Command.effect, Command.place]
  · rw [traffic, iptablesFwAuthenticate_eq, commands_executeAll]
    exact ⟨rfl, accepts.tc⟩

/-- Authenticating a client is all or nothing exactly when the id is not that of
a preauthenticated client or all commands succeed. -/
theorem authentication_all_or_nothing_iff (gateway : Gateway) (id : BitVec 32)
    (reason : Option String) :
    gateway.AllOrNothing id reason ↔ ∀ node, gateway.clients.findById id = some node →
      node.client.fwConnectionState = preauthenticatedState →
        gateway.AcceptsClient node.client := by
  constructor
  · intro holds node found state
    by_contra refused
    have code := (holds.failed node found state refused).1
    rw [authClientAuth_of_preauthenticated reason found state] at code
    exact code rfl
  · intro accepts
    constructor
    · intro code
      by_contra missing
      refine authClientAuth_of_none reason (fun node found state => missing ?_) code
      rw [authClientAuth_of_preauthenticated reason found state]
      have installed := (accepts node found state).installed reason
      refine ⟨node, found, ⟨installed.outgoing, installed.incoming, installed.shaped⟩, ?_⟩
      dsimp only
      rw [enterAuthenticated_clients]
      exact ClientList.mem_modify.mpr
        (.inl ⟨node, (ClientList.mem_of_findById found).1, rfl, rfl⟩)
    · exact fun node found state refused => absurd (accepts node found state) refused

end Gateway

/-- One client has been added, and another program holds the lock of iptables. -/
def lockedOutGateway : Gateway :=
  let added := (defaultGateway.clientListAddClient "00:16:3e:00:00:01" "192.168.42.10").2
  { added with firewall.kernel.exitCode := fun _ => 4 }

/-- None of its rules is there, and the client is authenticated. -/
theorem failed_rules_authenticated :
    let result := lockedOutGateway.authClientAuth 1 (some "ndsctl_auth")
    result.1 = 0 ∧ result.2.firewall.tables.rules .mangle .outgoing = [] ∧
      result.2.clients.nodes.map (·.client.fwConnectionState) =
        [result.2.marks.authenticated] ∧
      result.2.authenticatedSinceStart = 1 ∧
      ¬ lockedOutGateway.AllOrNothing 1 (some "ndsctl_auth") := by
  intro result
  have code : result.1 = 0 := by decide +kernel
  have empty : result.2.firewall.tables.rules .mangle .outgoing = [] := by decide +kernel
  refine ⟨code, empty, by decide +kernel, by decide +kernel, fun holds => ?_⟩
  rcases holds.succeeded code with ⟨node, _, installed, _⟩
  have lengths := congrArg List.length (empty.symm.trans installed.outgoing)
  rw [List.length_append, List.length_singleton, List.length_nil] at lengths
  omega

end Nodogsplash
