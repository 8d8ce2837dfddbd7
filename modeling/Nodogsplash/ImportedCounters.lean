import Nodogsplash.CountedSessions

/-! # Counters after a restart

The counter of a rule starts anew with the rule, the totals of an imported client
do not. When a call of `iptables_fw_counters_update` still counts the traffic of a
client that was imported authenticated and stays so. -/

namespace Nodogsplash

open Relation (ReflTransGen)

/-! ## The entries of one rule -/

/-- The entries of a chain with a rule. -/
def Tables.entriesOf (tables : Tables) (table : Table) (name : Chain) (rule : Rule) :
    List Entry :=
  ((tables.chain table name).getD []).filter fun entry => decide (entry.rule = rule)

theorem Tables.entriesOf_eq_of_chain_eq {tables after : Tables} {table : Table} {name : Chain}
    (same : after.chain table name = tables.chain table name) (rule : Rule) :
    after.entriesOf table name rule = tables.entriesOf table name rule := by
  rw [entriesOf, entriesOf, same]

def Command.Spares (command : Command) (table : Table) (name : Chain) (rule : Rule) : Prop :=
  command.place = (table, name) → ∃ other, other ≠ rule ∧
    (command = .append table name other ∨ command = .delete table name other)

theorem entriesOf_iptablesDoCommand {firewall : Firewall} {command : Command} {table : Table}
    {name : Chain} {rule : Rule} (spares : command.Spares table name rule) :
    (iptablesDoCommand firewall command).2.tables.entriesOf table name rule =
      firewall.tables.entriesOf table name rule := by
  by_cases place : command.place = (table, name)
  · rcases iptablesDoCommand_cases firewall command with ⟨tables, applied, equal⟩ | ⟨_, equal⟩
    · rw [equal]
      rcases spares place with ⟨other, different, rfl | rfl⟩
      · simp only [Tables.apply] at applied
        split at applied
        · cases applied
        · next entries present =>
            split at applied
            · cases applied
              rw [Tables.entriesOf, Tables.entriesOf, Tables.chain_setChain_self present, present]
              simp [different]
            · cases applied
      · simp only [Tables.apply] at applied
        split at applied
        · cases applied
        · next entries present =>
            split at applied
            · cases applied
              rw [Tables.entriesOf, Tables.entriesOf, Tables.chain_setChain_self present, present]
              apply KeyedList.filter_remove
              intro entry equal
              simpa [equal] using different
            · cases applied
    · rw [equal]
  · exact Tables.entriesOf_eq_of_chain_eq (chain_iptablesDoCommand_of_ne firewall place) rule

theorem entriesOf_iptablesDoCommands {firewall : Firewall} {commands : List Command}
    {table : Table} {name : Chain} {rule : Rule}
    (spare : ∀ command ∈ commands, command.Spares table name rule) :
    (iptablesDoCommands firewall commands).2.tables.entriesOf table name rule =
      firewall.tables.entriesOf table name rule := by
  induction commands generalizing firewall with
  | nil => rfl
  | cons command commands induction =>
      rw [iptablesDoCommands_cons]
      exact (induction fun other member => spare other (List.mem_cons_of_mem _ member)).trans
        (entriesOf_iptablesDoCommand (spare command List.mem_cons_self))

namespace Gateway

/-- The rule in `ndsINC` that counts what a client receives. -/
def acceptRule (client : Client) : Rule := ⟨[.destination client.ip], .accept⟩

def incomingBytes (gateway : Gateway) (client : Client) : Nat :=
  largest (gateway.acceptedEntries.filter fun entry => decide (entry.rule = acceptRule client))

theorem outgoingBytes_eq (gateway : Gateway) (client : Client) :
    gateway.outgoingBytes client =
      largest (gateway.firewall.tables.entriesOf .mangle .outgoing (gateway.ownRule client)) := by
  rw [outgoingBytes, markedEntries, listedEntries, List.filter_filter, Tables.entriesOf]
  congr 2
  funext entry
  by_cases own : entry.rule = gateway.ownRule client
  · simp [own, ownRule, outgoingRule]
  · simp [own]

theorem incomingBytes_eq (gateway : Gateway) (client : Client) :
    gateway.incomingBytes client =
      largest (gateway.firewall.tables.entriesOf .mangle .incoming (acceptRule client)) := by
  rw [incomingBytes, acceptedEntries, listedEntries, List.filter_filter, Tables.entriesOf]
  congr 2
  funext entry
  by_cases own : entry.rule = acceptRule client
  · simp [own, acceptRule]
  · simp [own]

/-- The entries of a client's two rules in one state and in another. -/
structure SameEntries (gateway next : Gateway) (client : Client) : Prop where
  outgoing : next.firewall.tables.entriesOf .mangle .outgoing (gateway.ownRule client) =
    gateway.firewall.tables.entriesOf .mangle .outgoing (gateway.ownRule client)
  incoming : next.firewall.tables.entriesOf .mangle .incoming (acceptRule client) =
    gateway.firewall.tables.entriesOf .mangle .incoming (acceptRule client)

theorem sameEntries_of_other {gateway next : Gateway} {client other : Client}
    (different : other.ip ≠ client.ip) {command : Table → Chain → Rule → Command}
    (edits : command = .append ∨ command = .delete)
    (commands : next.firewall.tables = (iptablesDoCommands gateway.firewall
      (command .mangle .outgoing (gateway.ownRule other) ::
        (incomingRules gateway.firewall.markop gateway.marks.toMarks other.ip).map
          (command .mangle .incoming))).2.tables) : gateway.SameEntries next client := by
  have spares {name place : Chain} {rule edited : Rule} (apart : edited ≠ rule) :
      (command .mangle place edited).Spares .mangle name rule := by
    intro same
    rcases edits with rfl | rfl
    · cases same
      exact ⟨edited, apart, .inl rfl⟩
    · cases same
      exact ⟨edited, apart, .inr rfl⟩
  have outgoing : gateway.ownRule other ≠ gateway.ownRule client := by
    simp [ownRule, outgoingRule, different]
  have crossed (edited : Rule) (member : edited ∈
      incomingRules gateway.firewall.markop gateway.marks.toMarks other.ip) :
      edited ≠ gateway.ownRule client ∧ edited ≠ acceptRule client := by
    simp only [incomingRules, List.mem_cons, List.not_mem_nil, or_false] at member
    rcases member with rfl | rfl
    · simp [ownRule, outgoingRule, acceptRule]
    · simp [ownRule, outgoingRule, acceptRule, different]
  constructor
  · rw [commands]
    apply entriesOf_iptablesDoCommands
    intro edit member
    rcases List.mem_cons.mp member with rfl | later
    · exact spares outgoing
    · rcases List.mem_map.mp later with ⟨edited, inRules, rfl⟩
      exact spares (crossed edited inRules).1
  · rw [commands]
    apply entriesOf_iptablesDoCommands
    intro edit member
    rcases List.mem_cons.mp member with rfl | later
    · apply spares
      simp [ownRule, outgoingRule, acceptRule]
    · rcases List.mem_map.mp later with ⟨edited, inRules, rfl⟩
      exact spares (crossed edited inRules).2

theorem sameEntries_of_chains {gateway next : Gateway}
    (same : ∀ name ∈ [Chain.outgoing, .incoming],
      next.firewall.tables.chain .mangle name = gateway.firewall.tables.chain .mangle name)
    (client : Client) : gateway.SameEntries next client where
  outgoing := Tables.entriesOf_eq_of_chain_eq (same .outgoing (by simp)) _
  incoming := Tables.entriesOf_eq_of_chain_eq (same .incoming (by simp)) _

theorem SameEntries.trans {first second third : Gateway} {client : Client}
    (left : first.SameEntries second client) (right : second.SameEntries third client)
    (rule : second.ownRule client = first.ownRule client) : first.SameEntries third client where
  outgoing := (rule ▸ right.outgoing).trans left.outgoing
  incoming := right.incoming.trans left.incoming

/-! ## A client that stays authenticated -/

/-- No two clients share an IP address. -/
def UnsharedIps (gateway : Gateway) : Prop :=
  (gateway.clients.nodes.map fun node => node.client.ip).Nodup

/-- The counters of the rules of a client have not decreased. -/
structure BytesGrow (gateway next : Gateway) (client : Client) : Prop where
  outgoing : gateway.outgoingBytes client ≤ next.outgoingBytes client
  incoming : gateway.incomingBytes client ≤ next.incomingBytes client

theorem ownRule_follows {gateway next : Gateway} (follows : gateway.Follows next)
    (client : Client) : next.ownRule client = gateway.ownRule client := by
  rw [ownRule, ownRule, follows.firewall.markop, follows.marks]

theorem SameEntries.bytesGrow {gateway next : Gateway} {client : Client}
    (same : gateway.SameEntries next client) (follows : gateway.Follows next) :
    gateway.BytesGrow next client where
  outgoing := by
    rw [outgoingBytes_eq, outgoingBytes_eq, ownRule_follows follows, same.outgoing]
  incoming := by rw [incomingBytes_eq, incomingBytes_eq, same.incoming]

theorem BytesGrow.trans {first second third : Gateway} {client : Client}
    (left : first.BytesGrow second client) (right : second.BytesGrow third client) :
    first.BytesGrow third client :=
  ⟨left.outgoing.trans right.outgoing, left.incoming.trans right.incoming⟩

theorem largest_modify_le (keep : Entry → Bool)
    (blind : ∀ entry bytes, keep { entry with bytes := bytes } = keep entry)
    (entries : List Entry) (number bytes : Nat) :
    largest (entries.filter keep) ≤ largest ((entries.modify number fun entry =>
      { entry with bytes := entry.bytes + bytes }).filter keep) := by
  induction entries generalizing number with
  | nil => simp
  | cons entry entries induction =>
      cases number with
      | zero =>
          rw [List.modify_zero_cons, List.filter_cons, List.filter_cons,
            blind entry (entry.bytes + bytes)]
          split
          · rw [largest_cons, largest_cons]
            exact max_le_max (Nat.le_add_right _ _) (le_refl _)
          · exact le_refl _
      | succ number =>
          rw [List.modify_succ_cons, List.filter_cons, List.filter_cons]
          split
          · rw [largest_cons, largest_cons]
            exact max_le_max (le_refl _) (induction number)
          · exact induction number

theorem countBytes_bytesGrow (gateway : Gateway) (table : Table) (chain : Chain)
    (number bytes : Nat) (client : Client) :
    gateway.BytesGrow (gateway.countBytes table chain number bytes) client := by
  have grows (name : Chain) (rule : Rule) :
      largest (gateway.firewall.tables.entriesOf .mangle name rule) ≤ largest
        ((gateway.countBytes table chain number bytes).firewall.tables.entriesOf .mangle name
          rule) := by
    by_cases same : (Table.mangle, name) = (table, chain)
    · cases same
      rw [Tables.entriesOf, Tables.entriesOf, chain_countBytes]
      cases gateway.firewall.tables.chain .mangle chain with
      | none => exact le_refl _
      | some entries =>
          exact largest_modify_le (fun entry => decide (entry.rule = rule))
            (fun _ _ => rfl) entries number bytes
    · rw [Tables.entriesOf, Tables.entriesOf, chain_countBytes_of_ne _ _ _ same]
  constructor
  · rw [outgoingBytes_eq, outgoingBytes_eq]
    exact grows .outgoing _
  · rw [incomingBytes_eq, incomingBytes_eq]
    exact grows .incoming _

/-- An action lowers no counter of a client's rules, unless it changes the state of
a client with that IP address. -/
theorem Action.bytesGrow {permits : Permissions} {gateway next : Gateway}
    (action : Action permits gateway next) {client : Client}
    (unchanged : ∀ node ∈ gateway.clients.nodes, node.client.ip = client.ip →
      next.sessions node.address = gateway.sessions node.address) :
    gateway.BytesGrow next client := by
  have follows := action.transition.follows
  have same (chains : ∀ name ∈ [Chain.outgoing, .incoming],
      next.firewall.tables.chain .mangle name = gateway.firewall.tables.chain .mangle name) :
      gateway.BytesGrow next client :=
    (sameEntries_of_chains chains client).bytesGrow follows
  have others {node : Node} (member : node ∈ gateway.clients.nodes) {change : Change}
      (logged : next.changes = gateway.changes ++ [change]) (own : change.address = node.address) :
      node.client.ip ≠ client.ip := by
    intro shared
    have kept := unchanged node member shared
    rw [sessions_append logged, if_pos own] at kept
    omega
  cases action with
  | clock | authentications | delete | limits => exact same fun _ _ => rfl
  | bytes table chain number bytes => exact countBytes_bytesGrow _ _ _ _ _ _
  | add _ _ _ added =>
      rcases clientListAppend_eq added with ⟨_, _, rfl⟩
      exact same fun _ _ => rfl
  | authenticate reason member =>
      refine (sameEntries_of_other (others member (enterAuthenticated_changes _ _ _) rfl) (.inl rfl)
        ?_).bytesGrow follows
      rw [enterAuthenticated_firewall]
      rfl
  | deauthenticate reason member =>
      refine (sameEntries_of_other (others member (leaveAuthenticated_changes _ _ _) rfl) (.inr rfl)
        ?_).bytesGrow follows
      rw [leaveAuthenticated_firewall]
      rfl
  | @block node reason member _ =>
      have different := others member (leaveBlocked_changes gateway node reason) rfl
      have deauthenticated : gateway.SameEntries
          (gateway.iptablesFwDeauthenticate node.client).2 client :=
        sameEntries_of_other different (.inr rfl) rfl
      have rule : (gateway.iptablesFwDeauthenticate node.client).2.ownRule client =
          gateway.ownRule client := by
        rw [ownRule, iptablesFwDeauthenticate_firewall, iptablesDoCommands_markop]
        rfl
      refine SameEntries.bytesGrow (deauthenticated.trans ?_ rule) follows
      apply sameEntries_of_chains
      intro name member
      rw [leaveBlocked_firewall]
      exact chain_editMacs_of_mem _ node.client.mac .block member
  | editMacs mac command =>
      exact same fun name member => gateway.chain_editMacs_of_mem mac command member

/-- A client that has not changed, but for the times and limits of its session. -/
structure SameClient (node later : Node) : Prop where
  address : later.address = node.address
  ip : later.client.ip = node.client.ip
  mac : later.client.mac = node.client.mac
  state : later.client.fwConnectionState = node.client.fwConnectionState
  counters : later.client.counters = node.client.counters

theorem SameClient.refl (node : Node) : SameClient node node := ⟨rfl, rfl, rfl, rfl, rfl⟩

theorem SameClient.trans {first second third : Node} (left : SameClient first second)
    (right : SameClient second third) : SameClient first third :=
  ⟨right.address.trans left.address, right.ip.trans left.ip, right.mac.trans left.mac,
    right.state.trans left.state, right.counters.trans left.counters⟩

theorem Action.keeps {permits : Permissions} {gateway next : Gateway}
    (action : Action permits gateway next) {node : Node} (member : node ∈ gateway.clients.nodes)
    (state : node.client.fwConnectionState = gateway.marks.authenticated)
    (same : next.sessions node.address = gateway.sessions node.address) :
    ∃ later ∈ next.clients.nodes, SameClient node later := by
  have apart {change : Change} (logged : next.changes = gateway.changes ++ [change]) :
      node.address ≠ change.address := by
    intro own
    rw [sessions_append logged, if_pos own.symm] at same
    omega
  cases action with
  | clock | authentications | bytes => exact ⟨node, member, .refl node⟩
  | add _ _ _ added =>
      rcases clientListAppend_eq added with ⟨_, _, rfl⟩
      exact ⟨node, ClientList.mem_push.mpr (.inl member), .refl node⟩
  | @delete target inList fresh =>
      refine ⟨node, ClientList.mem_delete_iff.mpr ⟨member, ?_⟩, .refl node⟩
      intro own
      rw [ClientList.eq_of_address inList member own.symm, state] at fresh
      exact preauthenticated_ne_authenticated _ fresh.symm
  | limits address now limits =>
      by_cases own : node.address = address
      · subst own
        exact ⟨_, mem_modifyClient member (sessionFields now limits), rfl, rfl, rfl, rfl, rfl⟩
      · exact ⟨node, ClientList.mem_modify.mpr (.inr ⟨member, own⟩), .refl node⟩
  | authenticate reason =>
      refine ⟨node, ?_, .refl node⟩
      rw [enterAuthenticated_clients]
      exact ClientList.mem_modify.mpr (.inr ⟨member, apart (enterAuthenticated_changes _ _ _)⟩)
  | deauthenticate reason =>
      have different := apart (leaveAuthenticated_changes _ _ _)
      refine ⟨node, ?_, .refl node⟩
      rw [leaveAuthenticated_clients]
      exact ClientList.mem_modify.mpr
        (.inr ⟨ClientList.mem_modify.mpr (.inr ⟨member, different⟩), different⟩)
  | block reason =>
      refine ⟨node, ?_, .refl node⟩
      rw [leaveBlocked_clients]
      exact ClientList.mem_delete_iff.mpr ⟨member, apart (leaveBlocked_changes _ _ _)⟩
  | editMacs mac command =>
      refine ⟨node, ?_, .refl node⟩
      rwa [editMacs_clients]

theorem nodup_ips_modify {list : ClientList} (change : Client → Client)
    (keeps : ∀ client, (change client).ip = client.ip) (address : Nat)
    (unshared : (list.nodes.map fun node => node.client.ip).Nodup) :
    ((list.modify address change).nodes.map fun node => node.client.ip).Nodup := by
  have same : ((list.modify address change).nodes.map fun node => node.client.ip) =
      list.nodes.map fun node => node.client.ip := by
    simp only [ClientList.modify, KeyedList.update, List.map_map]
    apply List.map_congr_left
    intro node _
    rw [Function.comp_apply]
    split
    · exact keeps node.client
    · rfl
  rw [same]
  exact unshared

/-- An action that adds no client lets no two clients share an IP address. -/
theorem Action.unshared {permits : Permissions} (closed : ∀ mac, ¬ permits.adds mac)
    {gateway next : Gateway} (action : Action permits gateway next)
    (unshared : gateway.UnsharedIps) : next.UnsharedIps := by
  have removed (address : Nat) :
      ((gateway.clients.delete address).nodes.map fun node => node.client.ip).Nodup := by
    rw [ClientList.nodes_delete]
    exact List.Nodup.sublist ((KeyedList.remove_sublist _ _ _).map _) unshared
  cases action with
  | clock | authentications | bytes => exact unshared
  | add _ _ _ _ permitted => exact absurd permitted (closed _)
  | delete => exact removed _
  | limits address now limits =>
      exact nodup_ips_modify (sessionFields now limits) (fun _ => rfl) address unshared
  | authenticate =>
      rw [UnsharedIps, enterAuthenticated_clients]
      exact nodup_ips_modify _ (by intro; rfl) _ unshared
  | deauthenticate =>
      rw [UnsharedIps, leaveAuthenticated_clients]
      exact nodup_ips_modify _ (by intro; rfl) _ (nodup_ips_modify _ (by intro; rfl) _ unshared)
  | block =>
      rw [UnsharedIps, leaveBlocked_clients]
      exact removed _
  | editMacs mac command =>
      rw [UnsharedIps, editMacs_clients]
      exact unshared

theorem UnsharedIps.eq {gateway : Gateway} (unshared : gateway.UnsharedIps) {first second : Node}
    (left : first ∈ gateway.clients.nodes) (right : second ∈ gateway.clients.nodes)
    (same : first.client.ip = second.client.ip) : first = second :=
  List.inj_on_of_nodup_map unshared left right same

/-- What happens to an authenticated client whose state is not changed. -/
structure Stays (gateway next : Gateway) (node : Node) : Prop where
  follows : gateway.Follows next
  client : ∃ later ∈ next.clients.nodes, SameClient node later
  bytes : gateway.BytesGrow next node.client

theorem Action.stays {permits : Permissions} {gateway next : Gateway}
    (action : Action permits gateway next) (unshared : gateway.UnsharedIps) {node current : Node}
    (member : current ∈ gateway.clients.nodes) (kept : SameClient node current)
    (state : node.client.fwConnectionState = gateway.marks.authenticated)
    (same : next.sessions node.address = gateway.sessions node.address) :
    gateway.Stays next node where
  follows := action.transition.follows
  client := by
    rcases action.keeps member (kept.state.trans state) (kept.address.symm ▸ same) with
      ⟨later, inNext, keptLater⟩
    exact ⟨later, inNext, kept.trans keptLater⟩
  bytes := by
    apply action.bytesGrow
    intro other inList shared
    rw [unshared.eq inList member (shared.trans kept.ip.symm), kept.address]
    exact same

theorem Actions.sessions_le {permits : Permissions} {gateway next : Gateway}
    (actions : Actions permits gateway next) (address : Nat) :
    gateway.sessions address ≤ next.sessions address := by
  induction actions with
  | refl => exact le_refl _
  | tail _ action induction => exact induction.trans (action.sessions_le address)

theorem Actions.stays {permits : Permissions} (closed : ∀ mac, ¬ permits.adds mac)
    {gateway next : Gateway} (actions : Actions permits gateway next)
    (unshared : gateway.UnsharedIps) {node : Node} (member : node ∈ gateway.clients.nodes)
    (state : node.client.fwConnectionState = gateway.marks.authenticated)
    (same : next.sessions node.address = gateway.sessions node.address) :
    gateway.Stays next node := by
  have both : next.UnsharedIps ∧ gateway.Stays next node := by
    induction actions with
    | refl => exact ⟨unshared, .refl _, ⟨node, member, .refl node⟩, le_refl _, le_refl _⟩
    | @tail middle next before action induction =>
        have first := Actions.sessions_le before node.address
        have second := action.sessions_le node.address
        rcases induction (by omega) with ⟨unsharedMiddle, stays⟩
        rcases stays.client with ⟨between, inMiddle, kept⟩
        have later := action.stays unsharedMiddle inMiddle kept
          (by rw [state, stays.follows.marks]) (by omega)
        exact ⟨action.unshared closed unsharedMiddle, stays.follows.trans later.follows,
          later.client, stays.bytes.trans later.bytes⟩
  exact both.2

theorem requestClient_once (gateway : Gateway) (request : Request) :
    (gateway.requestClient request).2 = gateway ∨
      Action (.all .sessions) gateway (gateway.requestClient request).2 := by
  rw [requestClient]
  split
  · exact .inl rfl
  · split
    · next ip mac _ _ =>
        split
        · exact .inl rfl
        · rcases gateway.clientListAddClient_cases mac ip with
            ⟨_, _, equal⟩ | ⟨_, _, validMac, validIp, absent, added, equal⟩ | equal
          · exact .inl (by rw [equal])
          · rw [equal]
            exact .inr (.add validMac validIp absent added trivial)
          · exact .inl (by rw [equal])
    · exact .inl rfl

end Gateway

theorem Threads.meter_stays (threads : Threads) {metering : Metering}
    (uncounted : ∀ outgoingRead incomingRead,
      metering ≠ .take (.counters outgoingRead incomingRead))
    (unshared : threads.gateway.UnsharedIps) {node : Node}
    (member : node ∈ threads.gateway.clients.nodes)
    (state : node.client.fwConnectionState = threads.gateway.marks.authenticated)
    (same : (threads.meter metering).gateway.sessions node.address =
      threads.gateway.sessions node.address) :
    threads.gateway.Stays (threads.meter metering).gateway node := by
  have still : threads.gateway.Stays threads.gateway node :=
    ⟨.refl _, ⟨node, member, .refl node⟩, le_refl _, le_refl _⟩
  cases metering with
  | traffic table chain number bytes =>
      have action : Gateway.Action (.all .sessions) threads.gateway
          (threads.gateway.countBytes table chain number bytes) := .bytes _ _ _ _ _
      exact action.stays unshared member (.refl node) state same
  | take taken =>
      by_cases requested : ∃ request, taken = .webRequest request
      · rcases requested with ⟨request, rfl⟩
        have gateway : (threads.meter (.take (.webRequest request))).gateway = threads.gateway ∨
            (threads.meter (.take (.webRequest request))).gateway =
              (threads.gateway.requestClient request).2 := by
          simp only [meter, take, webRequest]
          split
          · split <;> (next equal => rw [equal]; exact .inr rfl)
          · exact .inl rfl
        rcases gateway with equal | equal
        · rw [equal]
          exact still
        · rw [equal] at same ⊢
          rcases threads.gateway.requestClient_once request with unchanged | action
          · rw [unchanged]
            exact still
          · exact action.stays unshared member (.refl node) state same
      · have permitted : Permitted ⟨.sessions, fun _ => False, fun _ _ => True⟩ taken :=
          ⟨fun _ counted => (by cases counted),
            fun request equal => absurd ⟨request, equal⟩ requested, fun _ _ _ => trivial⟩
        have actions := threads.take_actions
          (fun _ _ equal => uncounted _ _ (congrArg Metering.take equal)) permitted
        exact Gateway.Actions.stays (fun _ => id) actions unshared member state same

namespace Gateway

/-! ## The lines for a client -/

theorem findByIp_of_unshared {gateway : Gateway} (unshared : gateway.UnsharedIps) {node : Node}
    (member : node ∈ gateway.clients.nodes) :
    gateway.clients.findByIp node.client.ip = some node :=
  KeyedList.find?_key (fun node : Node => node.client.ip) unshared member

section

variable {gateway : Gateway} {node : Node} {client : Client}

theorem lineFor_of_column {column : Rule → String} {entry : Entry}
    (unshared : gateway.UnsharedIps) (member : node ∈ gateway.clients.nodes)
    (ipv4 : gateway.config.ip6 = false) (valid : checkIpFormat node.client.ip = true)
    (address : column entry.rule = node.client.ip) :
    gateway.lineFor column entry = some node := by
  simp only [lineFor, address, scanAddress_of_valid valid, ipv4, valid, Bool.not_true,
    Bool.or_self, Bool.false_eq_true, if_false]
  exact findByIp_of_unshared unshared member

theorem linesFor_of_ip6 (column : Rule → String) (entries : List Entry)
    (ip6 : gateway.config.ip6 = true) (node : Node) :
    gateway.linesFor column entries node = [] := by
  rw [linesFor, List.filter_eq_nil_iff]
  intro entry _
  simp [lineFor, ip6]

/-- The lines for a client that shares its address with no other are those of its
rule, if no other rule with its address has counted anything. -/
theorem largest_linesFor {column : Rule → String} {entries : List Entry} (rule : Rule)
    (unshared : gateway.UnsharedIps) (member : node ∈ gateway.clients.nodes)
    (ipv4 : gateway.config.ip6 = false) (valid : checkIpFormat node.client.ip = true)
    (address : column rule = node.client.ip)
    (own : ∀ entry ∈ entries, entry.bytes ≠ 0 →
      gateway.lineFor column entry = some node → entry.rule = rule) :
    largest (gateway.linesFor column entries node) =
      largest (entries.filter fun entry => decide (entry.rule = rule)) := by
  apply largest_filter_congr
  intro entry listed counted
  rw [decide_eq_decide]
  constructor
  · intro found
    exact own entry listed counted (lineFor_eq_of_address member found)
  · intro same
    rw [lineFor_of_column unshared member ipv4 valid (same ▸ address), Option.map_some]

end

end Gateway

/-! ## Gauged runs -/

/-- The threads, and for one client the byte counts of its two rules at the last
successful call of `iptables_fw_counters_update`, and that of its rule in `ndsOUT`
at the last call that read this chain. -/
structure Gauge where
  threads : Threads
  outgoing : Nat
  incoming : Nat
  read : Nat

namespace Gauge

/-- The rules of the client have just been added. -/
def start (gateway : Gateway) : Gauge := ⟨.start gateway, 0, 0, 0⟩

def step (imported : Node) (gauge : Gauge) (metering : Metering) : Gauge :=
  let gateway := gauge.threads.gateway
  let next := gauge.threads.meter metering
  let outgoing := gateway.outgoingBytes imported.client
  match metering with
  | .take (.counters true true) =>
      ⟨next, outgoing, gateway.incomingBytes imported.client, outgoing⟩
  | .take (.counters true false) => { gauge with threads := next, read := outgoing }
  | _ => { gauge with threads := next }

/-- The call counts what it reads for the client: the rules of the client have
counted more than its imported totals, or nothing. -/
structure Counts (imported : Node) (gauge : Gauge) (incomingRead : Bool) : Prop where
  ownOutgoing : ∀ entry ∈ gauge.threads.gateway.markedEntries, entry.bytes ≠ 0 →
    ∀ node ∈ gauge.threads.gateway.lineFor Gateway.sourceColumn entry,
      node.address = imported.address →
        entry.rule = gauge.threads.gateway.ownRule imported.client
  ownIncoming : incomingRead = true → ∀ entry ∈ gauge.threads.gateway.acceptedEntries,
    entry.bytes ≠ 0 → ∀ node ∈ gauge.threads.gateway.lineFor Gateway.destinationColumn entry,
      node.address = imported.address → entry.rule = Gateway.acceptRule imported.client
  outgoing : incomingRead = true →
    gauge.outgoing < gauge.threads.gateway.outgoingBytes imported.client →
      gauge.threads.gateway.config.ip6 = false ∧
        imported.client.counters.outgoing <
          gauge.threads.gateway.outgoingBytes imported.client ∧
        gauge.read < gauge.threads.gateway.outgoingBytes imported.client
  incoming : incomingRead = true →
    gauge.threads.gateway.incomingBytes imported.client ≠ 0 →
      gauge.threads.gateway.config.ip6 = false ∧ imported.client.counters.incoming = 0

/-- No two clients share an IP address, and the calls count. -/
def Permits (imported : Node) (gauge : Gauge) (metering : Metering) : Prop :=
  gauge.threads.gateway.UnsharedIps ∧ ∀ incomingRead,
    metering = .take (.counters true incomingRead) → gauge.Counts imported incomingRead

/-- The imported client as it is now. -/
structure Holds (imported : Node) (gauge : Gauge) (node : Node) : Prop where
  address : node.address = imported.address
  ip : node.client.ip = imported.client.ip
  mac : node.client.mac = imported.client.mac
  state : node.client.fwConnectionState = gauge.threads.gateway.marks.authenticated
  outgoing : node.client.counters.outgoing =
    if gauge.threads.gateway.config.ip6 then imported.client.counters.outgoing
    else max imported.client.counters.outgoing gauge.read
  incoming : node.client.counters.incoming =
    if gauge.threads.gateway.config.ip6 then imported.client.counters.incoming
    else max imported.client.counters.incoming gauge.incoming

/-- The client is there, and no counter is lower than it has been. -/
structure Tracks (imported : Node) (gauge : Gauge) : Prop where
  current : ∃ node ∈ gauge.threads.gateway.clients.nodes, Holds imported gauge node
  read : gauge.read ≤ gauge.threads.gateway.outgoingBytes imported.client
  incoming : gauge.incoming ≤ gauge.threads.gateway.incomingBytes imported.client

theorem outgoingBytes_congr (gateway : Gateway) {client other : Client}
    (ip : client.ip = other.ip) (mac : client.mac = other.mac) :
    gateway.outgoingBytes client = gateway.outgoingBytes other := by
  rw [Gateway.outgoingBytes, Gateway.outgoingBytes, Gateway.ownRule, Gateway.ownRule, ip, mac]

theorem incomingBytes_congr (gateway : Gateway) {client other : Client}
    (ip : client.ip = other.ip) : gateway.incomingBytes client = gateway.incomingBytes other := by
  rw [Gateway.incomingBytes, Gateway.incomingBytes, Gateway.acceptRule, Gateway.acceptRule, ip]

/-- Between the calls nothing but the counters of the rules changes. -/
theorem Tracks.stays {imported : Node} {gauge : Gauge} (tracks : gauge.Tracks imported)
    {next : Threads}
    (stays : ∀ node ∈ gauge.threads.gateway.clients.nodes, Holds imported gauge node →
      gauge.threads.gateway.Stays next.gateway node) :
    Tracks imported { gauge with threads := next } := by
  rcases tracks.current with ⟨node, member, holds⟩
  rcases stays node member holds with ⟨follows, ⟨later, inNext, kept⟩, bytes⟩
  have ip6 := follows.settings.ip6
  have outgoing := bytes.outgoing
  have incoming := bytes.incoming
  rw [outgoingBytes_congr _ holds.ip holds.mac,
    outgoingBytes_congr _ holds.ip holds.mac] at outgoing
  rw [incomingBytes_congr _ holds.ip, incomingBytes_congr _ holds.ip] at incoming
  refine ⟨⟨later, inNext, ?_⟩, tracks.read.trans outgoing, tracks.incoming.trans incoming⟩
  refine ⟨kept.address.trans holds.address, kept.ip.trans holds.ip, kept.mac.trans holds.mac,
    ?_, ?_, ?_⟩
  · rw [kept.state, holds.state, ← follows.marks]
  · rw [kept.counters, holds.outgoing, ip6]
  · rw [kept.counters, holds.incoming, ip6]

section

variable {imported node : Node} {gauge : Gauge} {incomingRead : Bool}

theorem Counts.largest_outgoingLines (counts : gauge.Counts imported incomingRead)
    (unshared : gauge.threads.gateway.UnsharedIps)
    (member : node ∈ gauge.threads.gateway.clients.nodes) (holds : Holds imported gauge node)
    (valid : checkIpFormat imported.client.ip = true) :
    Gateway.largest (gauge.threads.gateway.outgoingLines node) =
      if gauge.threads.gateway.config.ip6 then 0
      else gauge.threads.gateway.outgoingBytes imported.client := by
  split
  · next ip6 =>
      rw [Gateway.outgoingLines, Gateway.linesFor_of_ip6 _ _ ip6]
      rfl
  · next ipv4 =>
      refine Gateway.largest_linesFor (gauge.threads.gateway.ownRule imported.client) unshared
        member (by simpa using ipv4) (holds.ip.symm ▸ valid) holds.ip.symm ?_
      intro entry listed counted line
      exact counts.ownOutgoing entry listed counted node line holds.address

theorem Counts.largest_incomingLines (counts : gauge.Counts imported true)
    (unshared : gauge.threads.gateway.UnsharedIps)
    (member : node ∈ gauge.threads.gateway.clients.nodes) (holds : Holds imported gauge node)
    (valid : checkIpFormat imported.client.ip = true) :
    Gateway.largest (gauge.threads.gateway.incomingLines node) =
      if gauge.threads.gateway.config.ip6 then 0
      else gauge.threads.gateway.incomingBytes imported.client := by
  split
  · next ip6 =>
      rw [Gateway.incomingLines, Gateway.linesFor_of_ip6 _ _ ip6]
      rfl
  · next ipv4 =>
      refine Gateway.largest_linesFor (Gateway.acceptRule imported.client) unshared member
        (by simpa using ipv4) (holds.ip.symm ▸ valid) holds.ip.symm ?_
      intro entry listed counted line
      exact counts.ownIncoming rfl entry listed counted node line holds.address

/-- The client after a call that has read `ndsOUT`. -/
def counted (gauge : Gauge) (incomingRead : Bool) (node : Node) : Node :=
  Gateway.countNode (fun node counters =>
    let counted := Gateway.raiseOutgoing gauge.threads.gateway.clock
      (Gateway.largest (gauge.threads.gateway.outgoingLines node)) counters
    if incomingRead then
      Gateway.raiseIncoming (Gateway.largest (gauge.threads.gateway.incomingLines node)) counted
    else counted) node

theorem mem_counted (member : node ∈ gauge.threads.gateway.clients.nodes) :
    gauge.counted incomingRead node ∈
      (gauge.step imported
        (.take (.counters true incomingRead))).threads.gateway.clients.nodes := by
  have nodes := Gateway.nodes_iptablesFwCountersUpdate incomingRead gauge.threads.gateway
  have after : (gauge.step imported (.take (.counters true incomingRead))).threads.gateway =
      (Gateway.iptablesFwCountersUpdate true incomingRead gauge.threads.gateway).2 := by
    cases incomingRead <;> rfl
  rw [after, nodes]
  exact List.mem_map_of_mem member

theorem counted_outgoing (gauge : Gauge) (incomingRead : Bool) (node : Node) :
    (gauge.counted incomingRead node).client.counters.outgoing =
        max node.client.counters.outgoing
          (Gateway.largest (gauge.threads.gateway.outgoingLines node)) ∧
      (gauge.counted incomingRead node).client.counters.lastUpdated =
        if node.client.counters.outgoing <
          max node.client.counters.outgoing
            (Gateway.largest (gauge.threads.gateway.outgoingLines node))
        then gauge.threads.gateway.clock else node.client.counters.lastUpdated := by
  have raised := Gateway.raiseOutgoing_outgoing gauge.threads.gateway.clock
    (Gateway.largest (gauge.threads.gateway.outgoingLines node)) node.client.counters
  have updated := Gateway.raiseOutgoing_lastUpdated gauge.threads.gateway.clock
    (Gateway.largest (gauge.threads.gateway.outgoingLines node)) node.client.counters
  cases incomingRead with
  | false => exact ⟨raised, updated⟩
  | true =>
      have kept := Gateway.raiseIncoming_outgoing
        (Gateway.largest (gauge.threads.gateway.incomingLines node))
        (Gateway.raiseOutgoing gauge.threads.gateway.clock
          (Gateway.largest (gauge.threads.gateway.outgoingLines node)) node.client.counters)
      exact ⟨kept.1.trans raised, kept.2.trans updated⟩

theorem counted_incoming (gauge : Gauge) (incomingRead : Bool) (node : Node) :
    (gauge.counted incomingRead node).client.counters.incoming =
      if incomingRead then
        max node.client.counters.incoming
          (Gateway.largest (gauge.threads.gateway.incomingLines node))
      else node.client.counters.incoming := by
  cases incomingRead with
  | false => exact Gateway.raiseOutgoing_incoming _ _ _
  | true =>
      refine (Gateway.raiseIncoming_incoming _ _).trans ?_
      rw [Gateway.raiseOutgoing_incoming]
      rfl

theorem Tracks.reads (tracks : gauge.Tracks imported)
    (unshared : gauge.threads.gateway.UnsharedIps) (counts : gauge.Counts imported incomingRead)
    (valid : checkIpFormat imported.client.ip = true) :
    (gauge.step imported (.take (.counters true incomingRead))).Tracks imported := by
  rcases tracks.current with ⟨node, member, holds⟩
  have keeps {β : Type} (part : Gateway → β)
      (same : ∀ (gateway : Gateway) clients,
        part { gateway with clients := clients } = part gateway) :
      part (gauge.step imported (.take (.counters true incomingRead))).threads.gateway =
        part gauge.threads.gateway := by
    refine Eq.trans ?_ (Gateway.iptablesFwCountersUpdate_keeps part same true incomingRead _)
    cases incomingRead <;> rfl
  have ip6 := keeps (fun gateway => gateway.config.ip6) fun _ _ => rfl
  have marks := keeps (fun gateway => gateway.marks) fun _ _ => rfl
  have outgoing := keeps (fun gateway => gateway.outgoingBytes imported.client) fun _ _ => rfl
  have incoming := keeps (fun gateway => gateway.incomingBytes imported.client) fun _ _ => rfl
  have read : (gauge.step imported (.take (.counters true incomingRead))).read =
      gauge.threads.gateway.outgoingBytes imported.client := by
    cases incomingRead <;> rfl
  have total := gauge.counted_outgoing incomingRead node
  have received := gauge.counted_incoming incomingRead node
  rw [counts.largest_outgoingLines unshared member holds valid] at total
  refine ⟨⟨_, mem_counted member, holds.address, holds.ip, holds.mac, ?_, ?_, ?_⟩, ?_, ?_⟩
  · rw [marks]
    exact holds.state
  · rw [total.1, holds.outgoing, ip6, read]
    have grown := tracks.read
    split
    · exact Nat.max_eq_left (Nat.zero_le _)
    · omega
  · cases incomingRead with
    | false =>
        rw [received, if_neg (by simp), holds.incoming, ip6]
        rfl
    | true =>
        have grown := tracks.incoming
        rw [received, if_pos rfl, counts.largest_incomingLines unshared member holds valid,
          holds.incoming, ip6]
        split
        · exact Nat.max_eq_left (Nat.zero_le _)
        · change max (max _ _) _ = max _ (gauge.threads.gateway.incomingBytes imported.client)
          omega
  · rw [read, outgoing]
  · rw [incoming]
    cases incomingRead with
    | false => exact tracks.incoming
    | true => exact le_refl _

end

theorem step_of_uncounted (imported : Node) (gauge : Gauge) {metering : Metering}
    (uncounted : ∀ outgoingRead incomingRead,
      metering ≠ .take (.counters outgoingRead incomingRead)) :
    gauge.step imported metering = { gauge with threads := gauge.threads.meter metering } := by
  cases metering with
  | traffic => rfl
  | take taken =>
      cases taken with
      | counters outgoingRead incomingRead => exact absurd rfl (uncounted _ _)
      | _ => rfl

theorem Tracks.step {imported : Node} {gauge : Gauge} {metering : Metering}
    (tracks : gauge.Tracks imported) (permits : gauge.Permits imported metering)
    (valid : checkIpFormat imported.client.ip = true)
    (same : (gauge.step imported metering).threads.gateway.sessions imported.address =
      gauge.threads.gateway.sessions imported.address) :
    (gauge.step imported metering).Tracks imported := by
  by_cases read : ∃ outgoingRead incomingRead,
      metering = .take (.counters outgoingRead incomingRead)
  · rcases read with ⟨outgoingRead, incomingRead, rfl⟩
    cases outgoingRead with
    | false => exact tracks
    | true => exact tracks.reads permits.1 (permits.2 incomingRead rfl) valid
  · have uncounted (outgoingRead incomingRead : Bool) :
        metering ≠ .take (.counters outgoingRead incomingRead) :=
      fun equal => read ⟨_, _, equal⟩
    rw [step_of_uncounted imported gauge uncounted] at same ⊢
    apply tracks.stays
    intro node member holds
    apply gauge.threads.meter_stays uncounted permits.1 member holds.state
    rw [holds.address]
    exact same

end Gauge

/-! ## Passes after a call -/

namespace Gateway

/-- The client at an address has just been seen to send, and has not been ended
with `idle_deauth` since. -/
structure Active (before : Gateway) (address : Nat) (gateway : Gateway) : Prop where
  clock : gateway.clock = before.clock
  marks : gateway.marks = before.marks
  updated : ∀ node ∈ gateway.clients.nodes, node.address = address →
    node.client.fwConnectionState = gateway.marks.authenticated →
      node.client.counters.lastUpdated = gateway.clock
  logged : ∃ logged, gateway.changes = before.changes ++ logged ∧
    ∀ change ∈ logged, change.address = address → change.reason ≠ some "idle_deauth"

theorem leaveAuthenticated_clock (gateway : Gateway) (node : Node) (reason : Option String) :
    (gateway.leaveAuthenticated node reason).clock = gateway.clock := by
  simp only [leaveAuthenticated, record, setState, clientReset, modifyClient, drawToken,
    binauthAction, iptablesFwDeauthenticate]

theorem leaveBlocked_clock (gateway : Gateway) (node : Node) (reason : Option String) :
    (gateway.leaveBlocked node reason).clock = gateway.clock := by
  simp only [leaveBlocked, record, clientListDelete, authClientBlock, editMacList, binauthAction,
    iptablesFwDeauthenticate]

/-- Ending a session for another reason, or that of another client. -/
theorem Active.authChangeState {before gateway : Gateway} {address : Nat}
    (active : Active before address gateway) {node : Node} {newState : BitVec 32}
    {reason : Option String} (ends : newState ≠ gateway.marks.authenticated)
    (other : node.address = address → reason ≠ some "idle_deauth") :
    Active before address (gateway.authChangeState node newState reason).2 := by
  rcases active.logged with ⟨logged, changes, spared⟩
  have extended (state : BitVec 32) {next : Gateway} (more : next.changes = gateway.changes ++
      [⟨node.address, node.client.mac, node.client.fwConnectionState, state, reason⟩]) :
      ∃ logged, next.changes = before.changes ++ logged ∧
        ∀ change ∈ logged, change.address = address → change.reason ≠ some "idle_deauth" := by
    refine ⟨logged ++ [_], by rw [more, changes, List.append_assoc], ?_⟩
    intro change member
    rcases List.mem_append.mp member with earlier | last
    · exact spared change earlier
    · rw [List.mem_singleton.mp last]
      exact other
  rcases gateway.authChangeState_cases node newState reason with
    ⟨_, target, _⟩ | ⟨_, _, equal⟩ | ⟨_, _, equal⟩ | equal
  · exact absurd target ends
  · rw [equal]
    refine ⟨(leaveAuthenticated_clock _ _ _).trans active.clock,
      (leaveAuthenticated_marks _ _ _).trans active.marks, ?_,
      extended _ (leaveAuthenticated_changes _ _ _)⟩
    intro found member own state
    rw [leaveAuthenticated_clients] at member
    rw [leaveAuthenticated_marks] at state
    rw [leaveAuthenticated_clock]
    rcases ClientList.mem_modify.mp member with ⟨_, _, _, rfl⟩ | ⟨member, different⟩
    · exact absurd state (preauthenticated_ne_authenticated _)
    · rcases ClientList.mem_modify.mp member with ⟨_, _, same, rfl⟩ | ⟨member, _⟩
      · exact absurd same different
      · exact active.updated found member own state
  · rw [equal]
    refine ⟨(leaveBlocked_clock _ _ _).trans active.clock,
      (leaveBlocked_marks _ _ _).trans active.marks, ?_, extended _ (leaveBlocked_changes _ _ _)⟩
    intro found member own state
    rw [leaveBlocked_clients] at member
    rw [leaveBlocked_marks] at state
    rw [leaveBlocked_clock]
    exact active.updated found (ClientList.mem_of_mem_delete member) own state
  · rw [equal]
    exact active

theorem Active.refreshClient {before gateway : Gateway} {address : Nat}
    (active : Active before address gateway) {node : Node}
    (member : node ∈ gateway.clients.nodes) :
    Active before address (gateway.refreshClient node) := by
  have blocked := gateway.marks.authenticated_ne_blocked.symm
  have fresh := preauthenticated_ne_authenticated gateway.marks
  simp only [Gateway.refreshClient]
  split
  · split
    · exact active.authChangeState blocked fun _ => by decide
    · exact active.authChangeState fresh fun _ => by decide
  · split
    · exact active.authChangeState blocked fun _ => by decide
    · split
      · refine ⟨active.clock, active.marks, ?_, active.logged⟩
        intro found inList
        exact active.updated found (ClientList.mem_of_mem_delete inList)
      · split
        · next idle =>
            refine active.authChangeState fresh fun own => ?_
            have updated := active.updated node member own idle.2.1
            omega
        · exact active

theorem Active.pass {gateway : Gateway} {address : Nat}
    (active : Active gateway address gateway) :
    Active gateway address (forEachClient Gateway.refreshClient gateway) := by
  refine List.foldlRecOn _ _ active ?_
  intro current active node _
  split
  · exact active
  · next found lookup => exact active.refreshClient (ClientList.mem_of_findById lookup).1

end Gateway

/-! ## Whole runs -/

theorem Threads.meter_sessions_le (threads : Threads) (metering : Metering) (address : Nat) :
    threads.gateway.sessions address ≤ (threads.meter metering).gateway.sessions address := by
  cases metering with
  | traffic => exact le_refl _
  | take taken =>
      by_cases read : ∃ outgoingRead incomingRead, taken = .counters outgoingRead incomingRead
      · rcases read with ⟨outgoingRead, incomingRead, rfl⟩
        have same := Gateway.iptablesFwCountersUpdate_keeps Gateway.changes (fun _ _ => rfl)
          outgoingRead incomingRead threads.gateway
        exact le_of_eq (by rw [Gateway.sessions, ← same]; rfl)
      · have permitted : Permitted (.all .sessions) taken :=
          ⟨fun _ counted => (by cases counted), fun _ _ _ => trivial, fun _ _ _ => trivial⟩
        exact (threads.take_actions (fun _ _ equal => read ⟨_, _, equal⟩) permitted).sessions_le
          address

namespace Gauge

/-- What is counted for the imported client by a successful call, after which
`fw_refresh_client_list` visits the clients. -/
structure CountsTraffic (imported : Node) (gauge next : Gauge) (old new : Node) : Prop where
  before : old ∈ gauge.threads.gateway.clients.nodes ∧ old.address = imported.address
  after : new ∈ next.threads.gateway.clients.nodes ∧ new.address = imported.address
  outgoing : gauge.outgoing < next.outgoing →
    old.client.counters.outgoing < new.client.counters.outgoing ∧
      new.client.counters.lastUpdated = gauge.threads.gateway.clock
  incoming : gauge.incoming < next.incoming →
    old.client.counters.incoming < new.client.counters.incoming
  kept : gauge.outgoing < next.outgoing →
    let visited := Gateway.forEachClient Gateway.refreshClient next.threads.gateway
    ∀ change ∈ visited.changes.drop next.threads.gateway.changes.length,
      change.address = imported.address → change.reason ≠ some "idle_deauth"
  total : new.client.counters.incoming = imported.client.counters.incoming + next.incoming

theorem step_threads (imported : Node) (gauge : Gauge) (metering : Metering) :
    (gauge.step imported metering).threads = gauge.threads.meter metering := by
  simp only [step]
  split <;> rfl

theorem Tracks.run {imported : Node} {initial final : Gauge} {meterings : List Metering}
    (valid : checkIpFormat imported.client.ip = true)
    (run : Execution.Run
      (Execution.Guarded (Execution.ofFunction (Gauge.step imported)) (Permits imported))
      initial meterings final)
    (tracks : initial.Tracks imported)
    (same : final.threads.gateway.sessions imported.address =
      initial.threads.gateway.sessions imported.address) : final.Tracks imported := by
  have grows {initial final : Gauge} {meterings : List Metering}
      (run : Execution.Run
        (Execution.Guarded (Execution.ofFunction (Gauge.step imported)) (Permits imported))
        initial meterings final) :
      initial.threads.gateway.sessions imported.address ≤
        final.threads.gateway.sessions imported.address := by
    induction run with
    | nil => exact le_refl _
    | cons taken _ induction =>
        rcases taken with ⟨_, rfl⟩
        refine le_trans ?_ induction
        rw [step_threads]
        exact Threads.meter_sessions_le _ _ _
  induction run with
  | nil => exact tracks
  | @cons current middle final metering meterings taken rest induction =>
      have first := grows (.single taken)
      have second := grows rest
      rcases taken with ⟨permits, rfl⟩
      exact induction (tracks.step permits valid (by omega)) (by omega)

theorem tracks_start {initial : Gateway} {imported : Node}
    (member : imported ∈ initial.clients.nodes)
    (state : imported.client.fwConnectionState = initial.marks.authenticated) :
    (start initial).Tracks imported := by
  refine ⟨⟨imported, member, rfl, rfl, rfl, state, ?_, ?_⟩, Nat.zero_le _, Nat.zero_le _⟩
  · simp [start]
  · simp [start]

/-- In every run after an import in which no two clients share an IP address and
whose calls count, the traffic of an imported client that stays authenticated is
counted. -/
theorem traffic_counted_after_import {environment : Environment} {initial : Gateway}
    {imported : Node} {meterings : List Metering} {gauge : Gauge}
    (started : mainLoop environment = some initial) (member : imported ∈ initial.clients.nodes)
    (state : imported.client.fwConnectionState = initial.marks.authenticated)
    (run : Execution.Run
      (Execution.Guarded (Execution.ofFunction (step imported)) (Permits imported))
      (start initial) meterings gauge)
    (stays : gauge.threads.gateway.sessions imported.address = initial.sessions imported.address)
    (unshared : gauge.threads.gateway.UnsharedIps) (counts : gauge.Counts imported true) :
    let next := gauge.step imported (.take (.counters true true))
    (Gateway.iptablesFwCountersUpdate true true gauge.threads.gateway).1 = true ∧
      ∃ old new, CountsTraffic imported gauge next old new := by
  intro next
  have valid := (validAddresses_of_started started imported member).2
  have tracks := Tracks.run valid run (tracks_start member state) stays
  rcases tracks.current with ⟨old, inList, holds⟩
  have inNext : gauge.counted true old ∈ next.threads.gateway.clients.nodes := mem_counted inList
  have total := gauge.counted_outgoing true old
  have received := gauge.counted_incoming true old
  rw [counts.largest_outgoingLines unshared inList holds valid] at total
  rw [if_pos rfl, counts.largest_incomingLines unshared inList holds valid] at received
  have updated (grown : gauge.outgoing < next.outgoing) :
      old.client.counters.outgoing < (gauge.counted true old).client.counters.outgoing ∧
        (gauge.counted true old).client.counters.lastUpdated = gauge.threads.gateway.clock := by
    rcases counts.outgoing rfl grown with ⟨ipv4, above, unread⟩
    have outgoing := holds.outgoing
    rw [ipv4, if_neg (by simp)] at outgoing total
    have raised : old.client.counters.outgoing < max old.client.counters.outgoing
        (gauge.threads.gateway.outgoingBytes imported.client) := by omega
    rw [total.1, total.2, if_pos raised]
    exact ⟨raised, rfl⟩
  refine ⟨rfl, old, gauge.counted true old, ⟨inList, holds.address⟩, ⟨inNext, holds.address⟩,
    updated, ?_, ?_, ?_⟩
  · intro grown
    rcases counts.incoming rfl (Nat.ne_of_gt (Nat.zero_lt_of_lt grown)) with ⟨ipv4, zero⟩
    have incoming := holds.incoming
    rw [ipv4, if_neg (by simp)] at incoming received
    rw [received]
    change gauge.incoming < gauge.threads.gateway.incomingBytes imported.client at grown
    omega
  · intro grown visited
    have clock : next.threads.gateway.clock = gauge.threads.gateway.clock :=
      Gateway.iptablesFwCountersUpdate_keeps Gateway.clock (fun _ _ => rfl) true true _
    have active : Gateway.Active next.threads.gateway imported.address next.threads.gateway := by
      refine ⟨rfl, rfl, ?_, [], by simp, by simp⟩
      intro found inList own _
      rw [ClientList.eq_of_address inList inNext (own.trans holds.address.symm), clock]
      exact (updated grown).2
    rcases active.pass.logged with ⟨logged, changes, spared⟩
    rw [changes, List.drop_left]
    exact spared
  · change _ = _ + gauge.threads.gateway.incomingBytes imported.client
    have incoming := holds.incoming
    have grown := tracks.incoming
    by_cases silent : gauge.threads.gateway.incomingBytes imported.client = 0
    · rw [received, incoming, silent, ite_self, Nat.max_eq_left (Nat.zero_le _)]
      split
      · rfl
      · omega
    · rcases counts.incoming rfl silent with ⟨ipv4, zero⟩
      rw [ipv4, if_neg (by simp)] at incoming received
      omega

/-- A state file with one authenticated client. -/
def restoredEnvironment (counters : Counters) : Environment :=
  { defaultEnvironment with
    stateFile := .document (.object [("version", .int 1), ("name", .string "nodogsplash"),
      ("clients", .array [stateFileExportClient
        { defaultClient 1 "00:16:3e:00:00:01" "192.168.42.10" with
          fwConnectionState := 0x30000, counters := counters }])]) }

theorem mainLoop_sent : (mainLoop (restoredEnvironment ⟨0, 1000, 900⟩)).isSome = true := by
  decide +kernel

/-- The gateway after a restart, when its client had sent 1000 bytes and received
none. -/
def sentGateway : Gateway := (mainLoop (restoredEnvironment ⟨0, 1000, 900⟩)).get mainLoop_sent

def sentClient : Node :=
  ⟨0, { defaultClient 1 "00:16:3e:00:00:01" "192.168.42.10" with
    fwConnectionState := 0x30000, counters := ⟨0, 1000, 900⟩ }⟩

/-- After a first call the client sends and receives. -/
def transmittingMeterings (sent received : Nat) : List Metering :=
  [.take (.counters true true), .traffic .mangle .outgoing 0 sent,
    .traffic .mangle .incoming 1 received, .take (.clock 9000)]

def sentGauge : Gauge :=
  (transmittingMeterings 1500 300).foldl (step sentClient) (start sentGateway)

theorem traffic_counted_after_import_sent :
    let next := sentGauge.step sentClient (.take (.counters true true))
    (Gateway.iptablesFwCountersUpdate true true sentGauge.threads.gateway).1 = true ∧
      ∃ old new, CountsTraffic sentClient sentGauge next old new := by
  have unshared : ∀ count < 5, ((transmittingMeterings 1500 300).take count |>.foldl
      (step sentClient) (start sentGateway)).threads.gateway.UnsharedIps := by
    simp only [Gateway.UnsharedIps]
    decide +kernel
  have first : (start sentGateway).Counts sentClient true :=
    ⟨by decide +kernel, by decide +kernel, by decide +kernel, by decide +kernel⟩
  have last : sentGauge.Counts sentClient true :=
    ⟨by decide +kernel, by decide +kernel, by decide +kernel, by decide +kernel⟩
  have run : Execution.Run
      (Execution.Guarded (Execution.ofFunction (step sentClient)) (Permits sentClient))
      (start sentGateway) (transmittingMeterings 1500 300) sentGauge := by
    refine .cons ⟨⟨unshared 0 (by decide), fun incomingRead equal => ?_⟩, rfl⟩
      (.cons ⟨⟨unshared 1 (by decide), nofun⟩, rfl⟩ (.cons ⟨⟨unshared 2 (by decide), nofun⟩, rfl⟩
        (.cons ⟨⟨unshared 3 (by decide), nofun⟩, rfl⟩ (.nil _))))
    cases equal
    exact first
  exact traffic_counted_after_import (Option.some_get mainLoop_sent).symm (by decide +kernel)
    (by decide +kernel) run (by decide +kernel) (unshared 4 (by decide)) last

theorem mainLoop_received : (mainLoop (restoredEnvironment ⟨5000, 1000, 900⟩)).isSome = true := by
  decide +kernel

/-- The gateway after a restart, when its client had sent 1000 bytes and received
5000. -/
def receivedGateway : Gateway :=
  (mainLoop (restoredEnvironment ⟨5000, 1000, 900⟩)).get mainLoop_received

def receivedClient : Node :=
  ⟨0, { defaultClient 1 "00:16:3e:00:00:01" "192.168.42.10" with
    fwConnectionState := 0x30000, counters := ⟨5000, 1000, 900⟩ }⟩

def receivedGauge : Gauge :=
  (transmittingMeterings 500 300).foldl (step receivedClient) (start receivedGateway)

/-- A client that sends less than it had sent before the restart is taken to be
idle, and what it receives is not counted. -/
theorem transmitting_client_idle :
    let next := receivedGauge.step receivedClient (.take (.counters true true))
    let visited := Gateway.forEachClient Gateway.refreshClient next.threads.gateway
    mainLoop (restoredEnvironment ⟨5000, 1000, 900⟩) = some receivedGateway ∧
      receivedGateway.clients.nodes = [receivedClient] ∧
      Execution.Run (Execution.ofFunction (step receivedClient)) (start receivedGateway)
        (transmittingMeterings 500 300) receivedGauge ∧
      receivedGauge.threads.gateway.sessions 0 = receivedGateway.sessions 0 ∧
      (Gateway.iptablesFwCountersUpdate true true receivedGauge.threads.gateway).1 = true ∧
      (receivedGauge.outgoing, next.outgoing) = (0, 500) ∧
      (receivedGauge.incoming, next.incoming) = (0, 300) ∧
      next.threads.gateway.clients.nodes = [receivedClient] ∧
      visited.changes.drop next.threads.gateway.changes.length =
        [⟨0, "00:16:3e:00:00:01", 0x30000, preauthenticatedState, some "idle_deauth"⟩] :=
  ⟨(Option.some_get mainLoop_received).symm, by decide +kernel,
    (Execution.run_ofFunction_iff _ _ _ _).mpr rfl, by decide +kernel, rfl, by decide +kernel,
    by decide +kernel, by decide +kernel, by decide +kernel⟩

end Gauge

end Nodogsplash
