import Nodogsplash.Start

/-! # The rules of authenticated clients

The chains `ndsOUT` and `ndsINC` hold the rules of the authenticated clients on
the list, each once, and no others. -/

namespace Nodogsplash

open Relation (ReflTransGen)

def outgoingRulesOf (markop : MarkOp) (marks : Marks) (client : Client) : List Rule :=
  if client.fwConnectionState = marks.authenticated then
    [outgoingRule markop marks client.ip client.mac]
  else []

def incomingRulesOf (markop : MarkOp) (marks : Marks) (client : Client) : List Rule :=
  if client.fwConnectionState = marks.authenticated then incomingRules markop marks client.ip
  else []

namespace Gateway

structure RulesAgree (gateway : Gateway) : Prop where
  outgoing : (gateway.firewall.tables.rules .mangle .outgoing).Perm
    (gateway.clients.nodes.flatMap fun node =>
      outgoingRulesOf gateway.firewall.markop gateway.marks.toMarks node.client)
  incoming : (gateway.firewall.tables.rules .mangle .incoming).Perm
    (gateway.clients.nodes.flatMap fun node =>
      incomingRulesOf gateway.firewall.markop gateway.marks.toMarks node.client)

/-- What makes the commands of the daemon succeed when iptables is willing. -/
structure Ready (gateway : Gateway) : Prop where
  exits : ∀ number, gateway.firewall.kernel.exitCode number = 0
  chains : ∀ name ∈ [Chain.outgoing, .incoming, .blocked, .trusted],
    (gateway.firewall.tables.chain .mangle name).isSome = true
  markop : gateway.firewall.markop = .orMark → gateway.firewall.kernel.orMark = true
  macs : ∀ node ∈ gateway.clients.nodes, checkMacFormat node.client.mac = true

theorem Ready.transition {permits : Permissions} {gateway next : Gateway} (ready : gateway.Ready)
    (transition : Transition permits gateway next) : next.Ready where
  exits := by
    rw [transition.follows.firewall.kernel]
    exact ready.exits
  chains := fun name member =>
    transition.follows.firewall.chains .mangle name (ready.chains name member)
  markop := by
    rw [transition.follows.firewall.kernel, transition.follows.firewall.markop]
    exact ready.markop
  macs := by
    intro node member
    rcases transition.source_of_mem member with ⟨source, inList, _, mac, _⟩ | ⟨valid, _⟩
    · rw [← mac]
      exact ready.macs source inList
    · exact valid

theorem Ready.transitions {permits : Permissions} {gateway next : Gateway} (ready : gateway.Ready)
    (transitions : Transitions permits gateway next) : next.Ready := by
  induction transitions with
  | refl => exact ready
  | tail _ transition induction => exact induction.transition transition

theorem Ready.supports {gateway : Gateway} (ready : gateway.Ready) :
    gateway.firewall.markop.supported gateway.firewall.kernel = true := by
  cases chosen : gateway.firewall.markop with
  | setMark => rfl
  | orMark => exact ready.markop chosen

/-! ## The rules of one client -/

theorem rules_iptablesFwAuthenticate {gateway : Gateway} (ready : gateway.Ready)
    (client : Client) (valid : checkMacFormat client.mac = true) :
    let markop := gateway.firewall.markop
    let marks := gateway.marks.toMarks
    let tables := (gateway.iptablesFwAuthenticate client).2.firewall.tables
    tables.rules .mangle .outgoing = gateway.firewall.tables.rules .mangle .outgoing ++
        [outgoingRule markop marks client.ip client.mac] ∧
      tables.rules .mangle .incoming = gateway.firewall.tables.rules .mangle .incoming ++
        incomingRules markop marks client.ip := by
  intro markop marks tables
  let outgoing := [outgoingRule markop marks client.ip client.mac]
  let incoming := incomingRules markop marks client.ip
  have commands : tables = (iptablesDoCommands gateway.firewall
      (outgoing.map (.append .mangle .outgoing) ++
        incoming.map (.append .mangle .incoming))).2.tables := by
    simp only [tables, iptablesFwAuthenticate_firewall]
    rfl
  have first : (iptablesDoCommands gateway.firewall
      (outgoing.map (.append .mangle .outgoing))).1 = 0 := by
    apply iptablesDoCommands_append_succeeds ready.exits (ready.chains .outgoing (by simp))
    · intro rule member
      rw [List.mem_singleton.mp member]
      simpa [outgoingRule, Kernel.supports, Target.supported, Match.supported,
        ready.supports, markop, checkMacFormat] using valid
    · intro rule member chain
      rw [List.mem_singleton.mp member]
      simp [outgoingRule]
  have second : (iptablesDoCommands (iptablesDoCommands gateway.firewall
      (outgoing.map (.append .mangle .outgoing))).2
        (incoming.map (.append .mangle .incoming))).1 = 0 := by
    apply iptablesDoCommands_append_succeeds
    · simpa using ready.exits
    · exact isSome_iptablesDoCommands (by simp [outgoing]) (ready.chains .incoming (by simp))
    · intro rule member
      rcases List.mem_cons.mp member with rfl | last
      · simp [Kernel.supports, Target.supported, Match.supported, ready.supports, markop]
      · rw [List.mem_singleton.mp last]
        simp [Kernel.supports, Target.supported, Match.supported]
    · intro rule member chain
      rcases List.mem_cons.mp member with rfl | last
      · simp
      · rw [List.mem_singleton.mp last]
        simp
  have succeeded : (iptablesDoCommands gateway.firewall
      (outgoing.map (.append .mangle .outgoing) ++
        incoming.map (.append .mangle .incoming))).1 = 0 := by
    rw [iptablesDoCommands_append, joinedCode_eq_zero]
    exact ⟨first, second⟩
  rw [commands, rules_iptablesDoCommands succeeded, rules_iptablesDoCommands succeeded,
    List.foldl_append, List.foldl_append, foldl_effect_append]
  constructor
  · rw [foldl_effect_of_ne]
    intro command member
    rcases List.mem_map.mp member with ⟨rule, _, rfl⟩
    simp [Command.place]
  · rw [foldl_effect_append, foldl_effect_of_ne]
    intro command member
    rcases List.mem_map.mp member with ⟨rule, _, rfl⟩
    simp [Command.place]

theorem rules_iptablesFwDeauthenticate {gateway : Gateway} (ready : gateway.Ready)
    {client : Client}
    (outgoingPresent :
      [outgoingRule gateway.firewall.markop gateway.marks.toMarks client.ip client.mac].Subperm
        (gateway.firewall.tables.rules .mangle .outgoing))
    (incomingPresent :
      (incomingRules gateway.firewall.markop gateway.marks.toMarks client.ip).Subperm
        (gateway.firewall.tables.rules .mangle .incoming)) :
    let markop := gateway.firewall.markop
    let marks := gateway.marks.toMarks
    let tables := (gateway.iptablesFwDeauthenticate client).2.firewall.tables
    tables.rules .mangle .outgoing = (gateway.firewall.tables.rules .mangle .outgoing).diff
        [outgoingRule markop marks client.ip client.mac] ∧
      tables.rules .mangle .incoming = (gateway.firewall.tables.rules .mangle .incoming).diff
        (incomingRules markop marks client.ip) := by
  intro markop marks tables
  let outgoing := [outgoingRule markop marks client.ip client.mac]
  let incoming := incomingRules markop marks client.ip
  have commands : tables = (iptablesDoCommands gateway.firewall
      (outgoing.map (.delete .mangle .outgoing) ++
        incoming.map (.delete .mangle .incoming))).2.tables := by
    simp only [tables, iptablesFwDeauthenticate_firewall]
    rfl
  have first : (iptablesDoCommands gateway.firewall
      (outgoing.map (.delete .mangle .outgoing))).1 = 0 :=
    iptablesDoCommands_delete_succeeds ready.exits outgoingPresent
  have unchanged : (iptablesDoCommands gateway.firewall
      (outgoing.map (.delete .mangle .outgoing))).2.tables.rules .mangle .incoming =
        gateway.firewall.tables.rules .mangle .incoming := by
    rw [rules_iptablesDoCommands first, foldl_effect_of_ne]
    intro command member
    rcases List.mem_map.mp member with ⟨rule, _, rfl⟩
    simp [Command.place]
  have second : (iptablesDoCommands (iptablesDoCommands gateway.firewall
      (outgoing.map (.delete .mangle .outgoing))).2
        (incoming.map (.delete .mangle .incoming))).1 = 0 := by
    apply iptablesDoCommands_delete_succeeds
    · simpa using ready.exits
    · rw [unchanged]
      exact incomingPresent
  have succeeded : (iptablesDoCommands gateway.firewall
      (outgoing.map (.delete .mangle .outgoing) ++
        incoming.map (.delete .mangle .incoming))).1 = 0 := by
    rw [iptablesDoCommands_append, joinedCode_eq_zero]
    exact ⟨first, second⟩
  rw [commands, rules_iptablesDoCommands succeeded, rules_iptablesDoCommands succeeded,
    List.foldl_append, List.foldl_append, foldl_effect_delete]
  constructor
  · rw [foldl_effect_of_ne]
    intro command member
    rcases List.mem_map.mp member with ⟨rule, _, rfl⟩
    simp [Command.place]
  · rw [foldl_effect_delete, foldl_effect_of_ne]
    intro command member
    rcases List.mem_map.mp member with ⟨rule, _, rfl⟩
    simp [Command.place]

/-! ## Agreement -/

theorem outgoingRulesOf_of_ne {markop : MarkOp} {marks : Marks} {client : Client}
    (state : client.fwConnectionState ≠ marks.authenticated) :
    outgoingRulesOf markop marks client = [] := if_neg state

theorem incomingRulesOf_of_ne {markop : MarkOp} {marks : Marks} {client : Client}
    (state : client.fwConnectionState ≠ marks.authenticated) :
    incomingRulesOf markop marks client = [] := if_neg state

theorem outgoingRulesOf_of_eq {markop : MarkOp} {marks : Marks} {client : Client}
    (state : client.fwConnectionState = marks.authenticated) :
    outgoingRulesOf markop marks client = [outgoingRule markop marks client.ip client.mac] :=
  if_pos state

theorem incomingRulesOf_of_eq {markop : MarkOp} {marks : Marks} {client : Client}
    (state : client.fwConnectionState = marks.authenticated) :
    incomingRulesOf markop marks client = incomingRules markop marks client.ip := if_pos state

theorem RulesAgree.of_eq {gateway next : Gateway} (agree : gateway.RulesAgree)
    (rules : ∀ name ∈ [Chain.outgoing, .incoming],
      next.firewall.tables.rules .mangle name = gateway.firewall.tables.rules .mangle name)
    (markop : next.firewall.markop = gateway.firewall.markop)
    (marks : next.marks = gateway.marks)
    (clients : ∀ rulesOf ∈ [outgoingRulesOf gateway.firewall.markop gateway.marks.toMarks,
        incomingRulesOf gateway.firewall.markop gateway.marks.toMarks],
      next.clients.nodes.flatMap (fun node => rulesOf node.client) =
        gateway.clients.nodes.flatMap fun node => rulesOf node.client) : next.RulesAgree where
  outgoing := by
    rw [rules .outgoing (by simp), markop, marks, clients _ List.mem_cons_self]
    exact agree.outgoing
  incoming := by
    rw [rules .incoming (by simp), markop, marks,
      clients _ (List.mem_cons_of_mem _ List.mem_cons_self)]
    exact agree.incoming

theorem RulesAgree.add {gateway next : Gateway} {mac ip : String} {node : Node}
    (agree : gateway.RulesAgree)
    (added : gateway.clientListAppend mac ip = (some node, next)) : next.RulesAgree := by
  rcases clientListAppend_eq added with ⟨_, _, rfl⟩
  have state : (gateway.newClient mac ip gateway.drawToken.1).fwConnectionState ≠
      gateway.marks.authenticated := classify_ne_authenticated _ _ _
  refine agree.of_eq (fun _ _ => rfl) rfl rfl ?_
  intro rulesOf member
  simp only [ClientList.push, List.flatMap_append, List.flatMap_cons, List.flatMap_nil,
    List.append_nil]
  rcases List.mem_cons.mp member with rfl | last
  · rw [outgoingRulesOf_of_ne state, List.append_nil]
  · rw [List.mem_singleton.mp last, incomingRulesOf_of_ne state, List.append_nil]

theorem RulesAgree.assign {gateway : Gateway} (agree : gateway.RulesAgree) {address : Nat}
    {change : Client → Client} (keeps : KeepsState change) :
    (gateway.modifyClient address change).RulesAgree := by
  refine agree.of_eq (fun _ _ => rfl) rfl rfl ?_
  intro rulesOf member
  apply KeyedList.flatMap_update_eq
  intro node _
  rcases List.mem_cons.mp member with rfl | last
  · simp only [outgoingRulesOf, keeps.state, keeps.ip, keeps.mac]
  · rw [List.mem_singleton.mp last]
    simp only [incomingRulesOf, keeps.state, keeps.ip]

theorem RulesAgree.delete {gateway : Gateway} (agree : gateway.RulesAgree) {node : Node}
    (member : node ∈ gateway.clients.nodes)
    (state : node.client.fwConnectionState = preauthenticatedState) :
    (gateway.clientListDelete node.address).RulesAgree := by
  have other : node.client.fwConnectionState ≠ gateway.marks.authenticated :=
    state ▸ preauthenticated_ne_authenticated gateway.marks
  constructor
  · have removed := KeyedList.ledger_remove gateway.clients.distinct member agree.outgoing
    rw [outgoingRulesOf_of_ne other, List.diff_nil] at removed
    simpa only [clientListDelete, ClientList.nodes_delete] using removed
  · have removed := KeyedList.ledger_remove gateway.clients.distinct member agree.incoming
    rw [incomingRulesOf_of_ne other, List.diff_nil] at removed
    simpa only [clientListDelete, ClientList.nodes_delete] using removed

theorem RulesAgree.enterAuthenticated {gateway : Gateway} (agree : gateway.RulesAgree)
    (ready : gateway.Ready) {node : Node} (reason : Option String)
    (member : node ∈ gateway.clients.nodes)
    (state : node.client.fwConnectionState = preauthenticatedState) :
    (gateway.enterAuthenticated node reason).RulesAgree := by
  have other : node.client.fwConnectionState ≠ gateway.marks.authenticated :=
    state ▸ preauthenticated_ne_authenticated gateway.marks
  have rules := rules_iptablesFwAuthenticate ready node.client (ready.macs node member)
  have follows := (enterAuthenticated_follows gateway node reason).firewall.markop
  let change : Node → Node := fun node =>
    { node with client := { node.client with fwConnectionState := gateway.marks.authenticated } }
  constructor
  · have gained := KeyedList.ledger_gain gateway.clients.distinct member change
      agree.outgoing (outgoingRulesOf_of_ne other)
    rw [outgoingRulesOf_of_eq rfl] at gained
    rw [follows, enterAuthenticated_firewall, enterAuthenticated_clients, rules.1,
      enterAuthenticated_marks]
    exact gained
  · have gained := KeyedList.ledger_gain gateway.clients.distinct member change
      agree.incoming (incomingRulesOf_of_ne other)
    rw [incomingRulesOf_of_eq rfl] at gained
    rw [follows, enterAuthenticated_firewall, enterAuthenticated_clients, rules.2,
      enterAuthenticated_marks]
    exact gained

theorem RulesAgree.deauthenticated {gateway : Gateway} (agree : gateway.RulesAgree)
    (ready : gateway.Ready) {node : Node} (member : node ∈ gateway.clients.nodes)
    (state : node.client.fwConnectionState = gateway.marks.authenticated) :
    let markop := gateway.firewall.markop
    let marks := gateway.marks.toMarks
    let tables := (gateway.iptablesFwDeauthenticate node.client).2.firewall.tables
    tables.rules .mangle .outgoing = (gateway.firewall.tables.rules .mangle .outgoing).diff
        (outgoingRulesOf markop marks node.client) ∧
      tables.rules .mangle .incoming = (gateway.firewall.tables.rules .mangle .incoming).diff
        (incomingRulesOf markop marks node.client) := by
  have outgoing := KeyedList.contribution_subperm agree.outgoing member
  have incoming := KeyedList.contribution_subperm agree.incoming member
  intro markop marks tables
  rw [outgoingRulesOf_of_eq state] at outgoing ⊢
  rw [incomingRulesOf_of_eq state] at incoming ⊢
  exact rules_iptablesFwDeauthenticate ready outgoing incoming

theorem RulesAgree.leaveAuthenticated {gateway : Gateway} (agree : gateway.RulesAgree)
    (ready : gateway.Ready) {node : Node} (reason : Option String)
    (member : node ∈ gateway.clients.nodes)
    (state : node.client.fwConnectionState = gateway.marks.authenticated) :
    (gateway.leaveAuthenticated node reason).RulesAgree := by
  have rules := agree.deauthenticated ready member state
  have follows := (leaveAuthenticated_follows gateway node reason).firewall.markop
  let change : Node → Node := fun node =>
    { node with client := { resetFields gateway.clock gateway.drawToken.1 node.client with
      fwConnectionState := preauthenticatedState } }
  have other : (change node).client.fwConnectionState ≠ gateway.marks.authenticated :=
    preauthenticated_ne_authenticated gateway.marks
  have nodes : (gateway.leaveAuthenticated node reason).clients.nodes =
      KeyedList.update Node.address node.address change gateway.clients.nodes := by
    rw [leaveAuthenticated_clients]
    exact KeyedList.update_update Node.address node.address
      (fun node =>
        { node with client := resetFields gateway.clock gateway.drawToken.1 node.client })
      (by intro; rfl) _
  constructor
  · have lost := KeyedList.ledger_lose gateway.clients.distinct member change
      agree.outgoing (outgoingRulesOf_of_ne other)
    rw [follows, leaveAuthenticated_firewall, nodes, rules.1, leaveAuthenticated_marks]
    exact lost
  · have lost := KeyedList.ledger_lose gateway.clients.distinct member change
      agree.incoming (incomingRulesOf_of_ne other)
    rw [follows, leaveAuthenticated_firewall, nodes, rules.2, leaveAuthenticated_marks]
    exact lost

theorem RulesAgree.editMacs {gateway : Gateway} (agree : gateway.RulesAgree) (mac : String)
    (command : MacCommand) : (gateway.editMacs mac command).RulesAgree := by
  have follows := editMacs_follows gateway mac command
  refine agree.of_eq ?_ follows.firewall.markop follows.marks ?_
  · intro name member
    exact Tables.rules_eq_of_chain_eq (gateway.chain_editMacs_of_mem mac command member)
  · intro rulesOf _
    rw [editMacs_clients]

theorem RulesAgree.leaveBlocked {gateway : Gateway} (agree : gateway.RulesAgree)
    (ready : gateway.Ready) {node : Node} (reason : Option String)
    (member : node ∈ gateway.clients.nodes)
    (state : node.client.fwConnectionState = gateway.marks.authenticated) :
    (gateway.leaveBlocked node reason).RulesAgree := by
  have rules := agree.deauthenticated ready member state
  have follows := (leaveBlocked_follows gateway node reason).firewall.markop
  have blocking (name : Chain) (different : name ≠ .blocked) (other : name ≠ .trusted) :
      (gateway.leaveBlocked node reason).firewall.tables.rules .mangle name =
        (gateway.iptablesFwDeauthenticate node.client).2.firewall.tables.rules .mangle name := by
    rw [leaveBlocked_firewall]
    exact Tables.rules_eq_of_chain_eq
      (chain_editMacs _ node.client.mac .block (by simpa using different) (by simpa using other))
  constructor
  · have removed := KeyedList.ledger_remove gateway.clients.distinct member agree.outgoing
    rw [follows, blocking .outgoing (by decide) (by decide), rules.1, leaveBlocked_marks,
      leaveBlocked_clients, ClientList.nodes_delete]
    exact removed
  · have removed := KeyedList.ledger_remove gateway.clients.distinct member agree.incoming
    rw [follows, blocking .incoming (by decide) (by decide), rules.2, leaveBlocked_marks,
      leaveBlocked_clients, ClientList.nodes_delete]
    exact removed

theorem RulesAgree.transition {permits : Permissions} {gateway next : Gateway}
    (agree : gateway.RulesAgree) (ready : gateway.Ready)
    (transition : Transition permits gateway next) : next.RulesAgree := by
  cases transition with
  | clock | authentications => exact agree.of_eq (fun _ _ => rfl) rfl rfl fun _ _ => rfl
  | bytes table chain number bytes =>
      exact agree.of_eq (fun name _ => rules_countBytes gateway table chain number bytes _ name)
        rfl rfl fun _ _ => rfl
  | add _ _ _ added => exact agree.add added
  | delete member state => exact agree.delete member state
  | count raise => exact agree.assign ⟨fun _ => rfl, fun _ => rfl, fun _ => rfl⟩
  | assign keeps => exact agree.assign keeps
  | authenticate reason member state => exact agree.enterAuthenticated ready reason member state
  | deauthenticate reason member state =>
      exact agree.leaveAuthenticated ready reason member state
  | block reason member state => exact agree.leaveBlocked ready reason member state
  | editMacs mac command => exact agree.editMacs mac command

theorem RulesAgree.transitions {permits : Permissions} {gateway next : Gateway}
    (agree : gateway.RulesAgree) (ready : gateway.Ready)
    (transitions : Transitions permits gateway next) : next.RulesAgree := by
  induction transitions with
  | refl => exact agree
  | tail before transition induction =>
      exact induction.transition (ready.transitions before) transition

/-! ## From the start on -/

theorem mangleChains_created (stray : String → String) (config : Config) (markop : MarkOp)
    (markmask : Option (BitVec 32)) {name : Chain}
    (member : name ∈ [Chain.outgoing, .incoming, .blocked, .trusted]) :
    .newChain .mangle name ∈ initCommands stray config markop markmask := by
  simp only [List.mem_cons, List.not_mem_nil, or_false] at member
  rcases member with rfl | rfl | rfl | rfl <;> simp [initCommands, mangleCommands]

theorem Fresh.ready {gateway : Gateway} {kernel : Kernel} (fresh : gateway.Fresh kernel)
    (exits : ∀ number, kernel.exitCode number = 0) : gateway.Ready := by
  rcases fresh.initialized with ⟨destroyed, before, sameKernel, initialized⟩
  refine ⟨?_, ?_, ?_, ?_⟩
  · rw [initialized.kernel, sameKernel]
    exact exits
  · exact fun name member =>
      initialized.chains .mangle name (mangleChains_created _ _ _ _ member)
  · rw [initialized.kernel, initialized.markop]
    exact initialized.masked.markop
  · rw [fresh.nodes]
    intro node member
    cases member

theorem Fresh.rulesAgree {gateway : Gateway} {kernel : Kernel} (fresh : gateway.Fresh kernel) :
    gateway.RulesAgree := by
  rcases fresh.initialized with ⟨destroyed, before, _, initialized⟩
  have outgoing : gateway.firewall.tables.rules .mangle .outgoing = [] := by
    apply initialized.rules_of_created
    rw [commandsOn_initCommands_mangle, commandsOn_outgoing]
    rfl
  have incoming : gateway.firewall.tables.rules .mangle .incoming = [] := by
    apply initialized.rules_of_created
    rw [commandsOn_initCommands_mangle, commandsOn_incoming]
    rfl
  constructor
  · rw [outgoing, fresh.nodes]
    exact .refl []
  · rw [incoming, fresh.nodes]
    exact .refl []

theorem rulesAgree_of_started {environment : Environment} {gateway : Gateway}
    (exits : ∀ number, environment.kernel.exitCode number = 0)
    (started : mainLoop environment = some gateway) : gateway.RulesAgree ∧ gateway.Ready := by
  rcases mainLoop_cases started with ⟨initial, _, fresh, ⟨_, rfl⟩ | ⟨_, recovered, _⟩⟩
  · have imported := stateFileImport_transitions initial environment.stateFile
    exact ⟨fresh.rulesAgree.transitions (fresh.ready exits) imported,
      (fresh.ready exits).transitions imported⟩
  · exact ⟨recovered.rulesAgree, recovered.ready exits⟩

theorem rulesAgree_of_run {environment : Environment} {initial final : Gateway}
    {events : List (Int × Event)} (exits : ∀ number, environment.kernel.exitCode number = 0)
    (started : mainLoop environment = some initial) (run : DaemonRun initial events final) :
    final.RulesAgree ∧ final.Ready := by
  rcases rulesAgree_of_started exits started with ⟨agree, ready⟩
  have transitions := run_transitions run
  exact ⟨agree.transitions ready transitions, ready.transitions transitions⟩

end Gateway

/-- If every iptables command succeeds, then in every state of every run the
per-client rules of `ndsOUT` and `ndsINC` are those of the authenticated
clients on the list, as multisets. -/
theorem authentication_rules_agree {environment : Environment} {initial final : Gateway}
    {events : List (Int × Event)} (exits : ∀ number, environment.kernel.exitCode number = 0)
    (started : mainLoop environment = some initial) (run : DaemonRun initial events final) :
    let authenticated := (final.clients.nodes.map Node.client).filter fun client =>
      decide (client.fwConnectionState = final.marks.authenticated)
    let markop := final.firewall.markop
    let marks := final.marks.toMarks
    (final.firewall.tables.rules .mangle .outgoing).Perm
        (authenticated.map fun client => outgoingRule markop marks client.ip client.mac) ∧
      (final.firewall.tables.rules .mangle .incoming).Perm
        (authenticated.flatMap fun client => incomingRules markop marks client.ip) := by
  intro authenticated markop marks
  have agree := (Gateway.rulesAgree_of_run exits started run).1
  have collected (rulesOf : Client → List Rule) :
      (final.clients.nodes.flatMap fun node =>
          if node.client.fwConnectionState = final.marks.authenticated then rulesOf node.client
          else []) = authenticated.flatMap rulesOf := by
    simp only [authenticated]
    induction final.clients.nodes with
    | nil => rfl
    | cons node nodes induction =>
        by_cases state : node.client.fwConnectionState = final.marks.authenticated <;>
          simp [state, induction]
  constructor
  · have outgoing := agree.outgoing
    simp only [outgoingRulesOf] at outgoing
    rw [collected fun client => [outgoingRule markop marks client.ip client.mac]] at outgoing
    rwa [List.map_eq_flatMap]
  · have incoming := agree.incoming
    simp only [incomingRulesOf] at incoming
    rwa [collected fun client => incomingRules markop marks client.ip] at incoming

/-- A client that asks for the splash page and is then authenticated by
`ndsctl`. -/
theorem authentication_rules_agree_default :
    let final := [(1000, Event.request (defaultRequest "/" fun _ => none)),
      (1001, Event.ndsctl true true (.auth "192.168.42.10"))].foldl Gateway.step defaultGateway
    let authenticated := (final.clients.nodes.map Node.client).filter fun client =>
      decide (client.fwConnectionState = final.marks.authenticated)
    let markop := final.firewall.markop
    let marks := final.marks.toMarks
    (final.firewall.tables.rules .mangle .outgoing).Perm
        (authenticated.map fun client => outgoingRule markop marks client.ip client.mac) ∧
      (final.firewall.tables.rules .mangle .incoming).Perm
        (authenticated.flatMap fun client => incomingRules markop marks client.ip) :=
  authentication_rules_agree (fun _ => rfl) mainLoop_defaultGateway
    ((Execution.run_ofFunction_iff _ _ _ _).mpr rfl)

end Nodogsplash
