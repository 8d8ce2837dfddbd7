import Nodogsplash.Transition

/-! # What transitions leave alone

At run time the daemon edits four mangle chains and the MAC lists. All other
rules and settings stay as `iptables_fw_init` found or made them, and so do the
`FW_MARK_*` values. -/

namespace Nodogsplash

open Relation (ReflTransGen)

def runtimeChains : List (Table × Chain) :=
  [(.mangle, .outgoing), (.mangle, .incoming), (.mangle, .blocked), (.mangle, .trusted)]

structure Firewall.Follows (before after : Firewall) : Prop where
  kernel : after.kernel = before.kernel
  markop : after.markop = before.markop
  markmask : after.markmask = before.markmask
  chains : ∀ table name, (before.tables.chain table name).isSome = true →
    (after.tables.chain table name).isSome = true
  rules : ∀ table name, (table, name) ∉ runtimeChains →
    after.tables.rules table name = before.tables.rules table name

theorem Gateway.chain_countBytes (gateway : Gateway) (table : Table) (chain : Chain)
    (number bytes : Nat) :
    (gateway.countBytes table chain number bytes).firewall.tables.chain table chain =
      (gateway.firewall.tables.chain table chain).map fun entries =>
        entries.modify number fun entry => { entry with bytes := entry.bytes + bytes } := by
  cases found : gateway.firewall.tables.chain table chain with
  | none =>
      rw [Tables.chain, Option.map_eq_none_iff] at found
      simp only [countBytes]
      rw [Tables.chain, Tables.setChain, Tables.get_put_self, KeyedList.find?_update_self]
      · rw [found]
        rfl
      · intro contents
        rfl
  | some entries =>
      simp only [countBytes, found, Option.getD_some]
      exact Tables.chain_setChain_self found _

theorem Gateway.chain_countBytes_of_ne (gateway : Gateway) {table otherTable : Table}
    {chain other : Chain} (number bytes : Nat) (different : (otherTable, other) ≠ (table, chain)) :
    (gateway.countBytes table chain number bytes).firewall.tables.chain otherTable other =
      gateway.firewall.tables.chain otherTable other :=
  Tables.chain_setChain_of_ne _ _ different

theorem Gateway.rules_countBytes (gateway : Gateway) (table : Table) (chain : Chain)
    (number bytes : Nat) (otherTable : Table) (other : Chain) :
    (gateway.countBytes table chain number bytes).firewall.tables.rules otherTable other =
      gateway.firewall.tables.rules otherTable other := by
  by_cases same : (otherTable, other) = (table, chain)
  · cases same
    rw [Tables.rules, Tables.rules, chain_countBytes]
    cases gateway.firewall.tables.chain table chain with
    | none => rfl
    | some entries =>
        apply List.ext_getElem?
        intro position
        simp only [Option.map_some, Option.getD_some, List.getElem?_map, List.getElem?_modify]
        cases entries[position]? with
        | none => rfl
        | some entry => by_cases counted : number = position <;> simp [counted]
  · exact Tables.rules_eq_of_chain_eq (gateway.chain_countBytes_of_ne number bytes same)

namespace Firewall.Follows

theorem refl (firewall : Firewall) : firewall.Follows firewall :=
  ⟨rfl, rfl, rfl, fun _ _ present => present, fun _ _ _ => rfl⟩

theorem trans {first second third : Firewall} (left : first.Follows second)
    (right : second.Follows third) : first.Follows third where
  kernel := right.kernel.trans left.kernel
  markop := right.markop.trans left.markop
  markmask := right.markmask.trans left.markmask
  chains := fun table name present => right.chains table name (left.chains table name present)
  rules := fun table name outside =>
    (right.rules table name outside).trans (left.rules table name outside)

theorem doCommands (firewall : Firewall) {commands : List Command}
    (places : ∀ command ∈ commands, command.place ∈ runtimeChains)
    (kept : ∀ command ∈ commands, ∀ table name, command ≠ .deleteChain table name) :
    firewall.Follows (iptablesDoCommands firewall commands).2 where
  kernel := iptablesDoCommands_kernel firewall commands
  markop := iptablesDoCommands_markop firewall commands
  markmask := iptablesDoCommands_markmask firewall commands
  chains := fun table name present =>
    isSome_iptablesDoCommands (fun command member => kept command member table name) present
  rules := fun _ _ outside =>
    Tables.rules_eq_of_chain_eq <|
      chain_iptablesDoCommands_of_ne firewall fun command member equal =>
        outside (equal ▸ places command member)

theorem doCommand (firewall : Firewall) {command : Command}
    (place : command.place ∈ runtimeChains)
    (kept : ∀ table name, command ≠ .deleteChain table name) :
    firewall.Follows (iptablesDoCommand firewall command).2 :=
  doCommands firewall
    (fun other (member : other ∈ [command]) => by rwa [List.mem_singleton.mp member])
    (fun other member => by rwa [List.mem_singleton.mp member])

theorem clientRules (firewall : Firewall) {edit : Table → Chain → Rule → Command}
    (place : ∀ table name rule, (edit table name rule).place = (table, name))
    (kept : ∀ place name rule table other, edit place name rule ≠ .deleteChain table other)
    (outgoing : Rule) (incoming : List Rule) :
    firewall.Follows (iptablesDoCommands firewall
      (edit .mangle .outgoing outgoing :: incoming.map (edit .mangle .incoming))).2 := by
  apply doCommands
  · rw [List.forall_mem_cons, List.forall_mem_map]
    refine ⟨?_, fun rule _ => ?_⟩
    · rw [place]
      decide
    · rw [place]
      decide
  · rw [List.forall_mem_cons, List.forall_mem_map]
    exact ⟨kept _ _ _, fun rule _ => kept _ _ rule⟩

theorem countBytes (gateway : Gateway) (table : Table) (chain : Chain) (number bytes : Nat) :
    gateway.firewall.Follows (gateway.countBytes table chain number bytes).firewall where
  kernel := rfl
  markop := rfl
  markmask := rfl
  chains := by
    intro otherTable other present
    by_cases same : (otherTable, other) = (table, chain)
    · cases same
      rwa [Gateway.chain_countBytes, Option.isSome_map]
    · rwa [Gateway.chain_countBytes_of_ne _ _ _ same]
  rules := fun otherTable other _ =>
    Gateway.rules_countBytes gateway table chain number bytes otherTable other

end Firewall.Follows

def Config.SameSettings (before after : Config) : Prop :=
  after = { before with
    trustedmaclist := after.trustedmaclist
    blockedmaclist := after.blockedmaclist
    allowedmaclist := after.allowedmaclist }

theorem Config.SameSettings.refl (config : Config) : config.SameSettings config := rfl

theorem Config.SameSettings.trans {first second third : Config}
    (left : first.SameSettings second) (right : second.SameSettings third) :
    first.SameSettings third := by
  rw [Config.SameSettings] at left right ⊢
  rw [right, left]

theorem Config.SameSettings.keeps {β : Type*} {before after : Config}
    (same : before.SameSettings after) (part : Config → β)
    (blind : ∀ config trusted blocked allowed, part { config with
      trustedmaclist := trusted, blockedmaclist := blocked, allowedmaclist := allowed } =
        part config) : part after = part before := by
  rw [Config.SameSettings] at same
  rw [same, blind]

theorem Config.SameSettings.marks {before after : Config} (same : before.SameSettings after) :
    after.marks = before.marks :=
  same.keeps _ fun _ _ _ _ => rfl

theorem Config.SameSettings.maxclients {before after : Config} (same : before.SameSettings after) :
    after.maxclients = before.maxclients :=
  same.keeps _ fun _ _ _ _ => rfl

theorem Config.SameSettings.ip6 {before after : Config} (same : before.SameSettings after) :
    after.ip6 = before.ip6 :=
  same.keeps _ fun _ _ _ _ => rfl

theorem Config.SameSettings.macmechanism {before after : Config}
    (same : before.SameSettings after) : after.macmechanism = before.macmechanism :=
  same.keeps _ fun _ _ _ _ => rfl

namespace Gateway

structure Follows (before after : Gateway) : Prop where
  firewall : before.firewall.Follows after.firewall
  settings : before.config.SameSettings after.config
  marks : after.marks = before.marks

theorem Follows.refl (gateway : Gateway) : gateway.Follows gateway :=
  ⟨.refl _, .refl _, rfl⟩

theorem Follows.trans {first second third : Gateway} (left : first.Follows second)
    (right : second.Follows third) : first.Follows third :=
  ⟨left.firewall.trans right.firewall, left.settings.trans right.settings,
    right.marks.trans left.marks⟩

theorem iptablesFwAuthenticate_follows (gateway : Gateway) (client : Client) :
    gateway.firewall.Follows (gateway.iptablesFwAuthenticate client).2.firewall := by
  rw [iptablesFwAuthenticate_firewall]
  exact .clientRules _ (fun _ _ _ => rfl) (fun _ _ _ _ _ equal => by cases equal) _ _

theorem iptablesFwDeauthenticate_follows (gateway : Gateway) (client : Client) :
    gateway.firewall.Follows (gateway.iptablesFwDeauthenticate client).2.firewall := by
  rw [iptablesFwDeauthenticate_firewall]
  exact .clientRules _ (fun _ _ _ => rfl) (fun _ _ _ _ _ equal => by cases equal) _ _

theorem editMacList_follows (gateway : Gateway) {edited : Int × Config}
    {command : Firewall → BitVec 32 × Firewall}
    (settings : gateway.config.SameSettings edited.2)
    (firewall : gateway.firewall.Follows (command gateway.firewall).2) :
    gateway.Follows (gateway.editMacList edited command).2 where
  firewall := by
    simp only [editMacList]
    split
    · exact firewall
    · exact .refl _
  settings := settings
  marks := rfl

theorem editMacs_follows (gateway : Gateway) (mac : String) (command : MacCommand) :
    gateway.Follows (gateway.editMacs mac command) := by
  cases command with
  | trust | untrust | allow | unallow | block | unblock =>
      exact editMacList_follows gateway rfl
        (Firewall.Follows.doCommand _ (by simp [Command.place, runtimeChains])
          (fun _ _ equal => by cases equal))

theorem chain_editMacs (gateway : Gateway) (mac : String) (command : MacCommand) {table : Table}
    {name : Chain} (notBlocked : (table, name) ≠ (.mangle, .blocked))
    (notTrusted : (table, name) ≠ (.mangle, .trusted)) :
    (gateway.editMacs mac command).firewall.tables.chain table name =
      gateway.firewall.tables.chain table name := by
  have edited {list : Int × Config} {run : Firewall → BitVec 32 × Firewall}
      (same : (run gateway.firewall).2.tables.chain table name =
        gateway.firewall.tables.chain table name) :
      (gateway.editMacList list run).2.firewall.tables.chain table name =
        gateway.firewall.tables.chain table name := by
    simp only [editMacList]
    split
    · exact same
    · rfl
  cases command with
  | trust | untrust =>
      exact edited (chain_iptablesDoCommand_of_ne _ (Ne.symm notTrusted))
  | allow | unallow | block | unblock =>
      exact edited (chain_iptablesDoCommand_of_ne _ (Ne.symm notBlocked))

theorem chain_editMacs_of_mem (gateway : Gateway) (mac : String) (command : MacCommand)
    {name : Chain} (member : name ∈ [Chain.outgoing, .incoming]) :
    (gateway.editMacs mac command).firewall.tables.chain .mangle name =
      gateway.firewall.tables.chain .mangle name := by
  simp only [List.mem_cons, List.not_mem_nil, or_false] at member
  apply chain_editMacs
  · rcases member with rfl | rfl <;> simp
  · rcases member with rfl | rfl <;> simp

theorem enterAuthenticated_follows (gateway : Gateway) (node : Node) (reason : Option String) :
    gateway.Follows (gateway.enterAuthenticated node reason) where
  firewall := by
    rw [enterAuthenticated_firewall]
    exact iptablesFwAuthenticate_follows gateway node.client
  settings := by
    rw [enterAuthenticated_config]
    exact .refl _
  marks := enterAuthenticated_marks gateway node reason

theorem leaveAuthenticated_follows (gateway : Gateway) (node : Node) (reason : Option String) :
    gateway.Follows (gateway.leaveAuthenticated node reason) where
  firewall := by
    rw [leaveAuthenticated_firewall]
    exact iptablesFwDeauthenticate_follows gateway node.client
  settings := by
    rw [leaveAuthenticated_config]
    exact .refl _
  marks := leaveAuthenticated_marks gateway node reason

theorem leaveBlocked_follows (gateway : Gateway) (node : Node) (reason : Option String) :
    gateway.Follows (gateway.leaveBlocked node reason) where
  firewall := by
    rw [leaveBlocked_firewall]
    exact (iptablesFwDeauthenticate_follows gateway node.client).trans
      (editMacs_follows _ node.client.mac .block).firewall
  settings := by
    rw [leaveBlocked_config]
    exact rfl
  marks := leaveBlocked_marks gateway node reason

/-- Every transition keeps the settings and the rules outside the run-time
chains. -/
theorem Transition.follows {permits : Permissions} {gateway next : Gateway}
    (transition : Transition permits gateway next) : gateway.Follows next := by
  cases transition with
  | clock | authentications | delete | count | assign => exact ⟨.refl _, .refl _, rfl⟩
  | bytes table chain number bytes => exact ⟨.countBytes _ _ _ _ _, .refl _, rfl⟩
  | add _ _ _ added =>
      rcases clientListAppend_eq added with ⟨_, _, rfl⟩
      exact ⟨.refl _, .refl _, rfl⟩
  | @authenticate node reason _ _ => exact enterAuthenticated_follows gateway node reason
  | @deauthenticate node reason _ _ => exact leaveAuthenticated_follows gateway node reason
  | @block node reason _ _ => exact leaveBlocked_follows gateway node reason
  | editMacs mac command => exact editMacs_follows _ _ _

/-! ## What transitions do to the clients -/

theorem editMacs_clients (gateway : Gateway) (mac : String) (command : MacCommand) :
    (gateway.editMacs mac command).clients = gateway.clients := by
  cases command <;> rfl

theorem source_of_mem_modify {list : ClientList} {address : Nat} {change : Client → Client}
    (mac : ∀ client, (change client).mac = client.mac)
    (ip : ∀ client, (change client).ip = client.ip) {node : Node}
    (member : node ∈ (list.modify address change).nodes) :
    ∃ source ∈ list.nodes, source.address = node.address ∧
      source.client.mac = node.client.mac ∧ source.client.ip = node.client.ip := by
  rcases ClientList.mem_modify.mp member with ⟨source, inList, _, rfl⟩ | ⟨inList, _⟩
  · exact ⟨source, inList, rfl, (mac _).symm, (ip _).symm⟩
  · exact ⟨node, inList, rfl, rfl, rfl⟩

/-- The clients after a transition are clients from before, with the same MAC
and IP address, or have been added with valid ones. -/
theorem Transition.source_of_mem {permits : Permissions} {gateway next : Gateway}
    (transition : Transition permits gateway next) {node : Node}
    (member : node ∈ next.clients.nodes) :
    (∃ source ∈ gateway.clients.nodes, source.address = node.address ∧
      source.client.mac = node.client.mac ∧ source.client.ip = node.client.ip) ∨
    (checkMacFormat node.client.mac = true ∧ checkIpFormat node.client.ip = true) := by
  cases transition with
  | clock | authentications | bytes => exact .inl ⟨node, member, rfl, rfl, rfl⟩
  | add validMac validIp _ added =>
      rcases clientListAppend_eq added with ⟨_, _, rfl⟩
      rcases ClientList.mem_push.mp member with old | rfl
      · exact .inl ⟨node, old, rfl, rfl, rfl⟩
      · exact .inr ⟨validMac, validIp⟩
  | delete =>
      exact .inl ⟨node, ClientList.mem_of_mem_delete member, rfl, rfl, rfl⟩
  | count => exact .inl (source_of_mem_modify (by intro; rfl) (by intro; rfl) member)
  | assign keeps => exact .inl (source_of_mem_modify keeps.mac keeps.ip member)
  | authenticate =>
      rw [enterAuthenticated_clients] at member
      exact .inl (source_of_mem_modify (by intro; rfl) (by intro; rfl) member)
  | deauthenticate =>
      rw [leaveAuthenticated_clients] at member
      rcases source_of_mem_modify (by intro; rfl) (by intro; rfl) member with
        ⟨middle, middleMember, address, mac, ip⟩
      rcases source_of_mem_modify (by intro; rfl) (by intro; rfl) middleMember with
        ⟨source, sourceMember, sourceAddress, sourceMac, sourceIp⟩
      exact .inl ⟨source, sourceMember, sourceAddress.trans address, sourceMac.trans mac,
        sourceIp.trans ip⟩
  | block =>
      rw [leaveBlocked_clients] at member
      exact .inl ⟨node, ClientList.mem_of_mem_delete member, rfl, rfl, rfl⟩
  | editMacs mac command =>
      rw [editMacs_clients] at member
      exact .inl ⟨node, member, rfl, rfl, rfl⟩

theorem Transitions.follows {permits : Permissions} {gateway next : Gateway}
    (transitions : Transitions permits gateway next) : gateway.Follows next := by
  induction transitions with
  | refl => exact .refl _
  | tail _ transition induction => exact induction.trans transition.follows

/-! ## What reading the counters keeps -/

theorem foldl_keeps {α β : Type} {part : Gateway → β} {body : Gateway → α → Gateway}
    (keeps : ∀ gateway value, part (body gateway value) = part gateway) (values : List α)
    (gateway : Gateway) : part (values.foldl body gateway) = part gateway := by
  induction values generalizing gateway with
  | nil => rfl
  | cons value values induction => rw [List.foldl_cons, induction, keeps]

theorem readCounter_eq (column : Rule → String) (raise : Nat → Counters → Counters)
    (gateway : Gateway) (entry : Entry) :
    ∃ clients, readCounter column raise gateway entry = { gateway with clients := clients } := by
  simp only [readCounter]
  split
  · exact ⟨gateway.clients, rfl⟩
  · split
    · exact ⟨gateway.clients, rfl⟩
    · exact ⟨_, rfl⟩

theorem foldl_readCounter_keeps {β : Type} (part : Gateway → β)
    (keeps : ∀ (gateway : Gateway) clients,
      part { gateway with clients := clients } = part gateway)
    (column : Rule → String) (raise : Nat → Counters → Counters) (entries : List Entry)
    (gateway : Gateway) :
    part (entries.foldl (readCounter column raise) gateway) = part gateway := by
  apply foldl_keeps
  intro gateway entry
  rcases readCounter_eq column raise gateway entry with ⟨clients, equal⟩
  rw [equal, keeps]

theorem iptablesFwCountersUpdate_keeps {β : Type} (part : Gateway → β)
    (keeps : ∀ (gateway : Gateway) clients,
      part { gateway with clients := clients } = part gateway)
    (outgoingRead incomingRead : Bool) (gateway : Gateway) :
    part (iptablesFwCountersUpdate outgoingRead incomingRead gateway).2 = part gateway := by
  have loop := foldl_readCounter_keeps part keeps
  simp only [iptablesFwCountersUpdate]
  split
  · rfl
  · split
    · exact loop _ _ _ _
    · exact (loop _ _ _ _).trans (loop _ _ _ _)

theorem iptablesFwCountersUpdate_config (outgoingRead incomingRead : Bool) (gateway : Gateway) :
    (iptablesFwCountersUpdate outgoingRead incomingRead gateway).2.config = gateway.config :=
  iptablesFwCountersUpdate_keeps Gateway.config (fun _ _ => rfl) _ _ _

end Gateway

end Nodogsplash
