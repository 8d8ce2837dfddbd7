import Nodogsplash.Start

/-! # The chains that do not change at run time

The rules `iptables_fw_init` leaves at the head of mangle PREROUTING and in the
filter chains, and how a packet traverses them. -/

namespace Nodogsplash

/-! ## The rules of the filter chains -/

def rulesetRules (stray : String → String) (config : Config) (ruleset : RulesetName) :
    List Rule :=
  (config.getRulesetList ruleset).map fun rule =>
    { iptablesCompile rule with
      conditions := (iptablesCompile rule).conditions.map (Match.printed stray) }

/-- The rule that sends the packets of a class to its chain or applies the
policy of its empty ruleset. -/
def classEntry (config : Config) (mark : BitVec 32) (markmask : Option (BitVec 32))
    (ruleset : RulesetName) (classChain : Chain) : Rule where
  conditions := [.mark mark markmask]
  target := if config.isEmptyRuleset ruleset then (config.getEmptyRulesetPolicy ruleset).toTarget
    else .jump classChain

def classRules (stray : String → String) (config : Config) (ruleset : RulesetName) : List Rule :=
  if config.isEmptyRuleset ruleset then []
  else ⟨[.ctstateRelatedEstablished], .accept⟩ :: rulesetRules stray config ruleset ++
    [⟨[], config.rejectUnreachable⟩]

def mssRules (config : Config) : List Rule :=
  if config.setMss then
    [⟨[.protocol "tcp", .synWithoutRst],
      .tcpmss (if config.mssValue > 0 then some config.mssValue else none)⟩]
  else []

def toInternetRules (stray : String → String) (config : Config) (marks : Marks)
    (markmask : Option (BitVec 32)) : List Rule :=
  [⟨[.mark marks.blocked markmask], .drop⟩, ⟨[.ctstateInvalid], .drop⟩] ++ mssRules config ++
  [classEntry config marks.trusted markmask .trustedUsers .trusted,
    classEntry config marks.authenticated markmask .authenticatedUsers .authenticated] ++
  (if config.isEmptyRuleset .preauthenticatedUsers then
    [⟨[], (config.getEmptyRulesetPolicy .preauthenticatedUsers).toTarget⟩]
  else rulesetRules stray config .preauthenticatedUsers) ++
  [⟨[], config.rejectUnreachable⟩]

def toRouterRules (stray : String → String) (config : Config) (marks : Marks)
    (markmask : Option (BitVec 32)) : List Rule :=
  [⟨[.mark marks.blocked markmask], .drop⟩, ⟨[.ctstateInvalid], .drop⟩,
    ⟨[.ctstateRelatedEstablished], .accept⟩,
    ⟨[.protocol "tcp", .synWithoutMssOption], .drop⟩,
    ⟨[.protocol "tcp", .destinationPort (toString config.gwPort)], .accept⟩,
    classEntry config marks.trusted markmask .trustedUsersToRouter .trustedToRouter] ++
  if config.isEmptyRuleset .usersToRouter then
    [⟨[], (config.getEmptyRulesetPolicy .usersToRouter).toTarget⟩]
  else rulesetRules stray config .usersToRouter ++ [⟨[], config.rejectUnreachable⟩]

/-! ## The commands on these chains -/

section

variable {stray : String → String} {config : Config} {marks : Marks}
  {markmask : Option (BitVec 32)}

theorem iptablesAppendRuleset_eq (table : Table) (ruleset : RulesetName) (chain : Chain) :
    iptablesAppendRuleset stray config table ruleset chain =
      (rulesetRules stray config ruleset).map (.append table chain) := by
  rw [iptablesAppendRuleset, rulesetRules, List.map_map]
  rfl

theorem commandsOn_appends (table place : Table) (name chain : Chain) (rules : List Rule) :
    commandsOn table name (rules.map (.append place chain)) =
      if (place, chain) = (table, name) then rules.map (.append place chain) else [] :=
  commandsOn_map table name (place, chain) (fun _ => rfl) rules

theorem classCommands_eq (chain : Chain) (mark : BitVec 32) (ruleset : RulesetName)
    (classChain : Chain) :
    classCommands stray config chain mark markmask ruleset classChain =
      .append .filter chain (classEntry config mark markmask ruleset classChain) ::
        (classRules stray config ruleset).map (.append .filter classChain) := by
  rw [classCommands, classEntry, classRules, iptablesAppendRuleset_eq]
  by_cases empty : config.isEmptyRuleset ruleset = true <;> simp [empty]

theorem mssCommands_eq (config : Config) :
    mssCommands config = (mssRules config).map (.append .filter .toInternet) := by
  rw [mssCommands, mssRules]
  split <;> rfl

theorem commandsOn_filter (name : Chain) (markop : MarkOp) :
    commandsOn .filter name (initCommands stray config markop markmask) =
      commandsOn .filter name (filterCommands stray config config.marks markmask) := by
  have mangle : commandsOn .filter name (mangleCommands config config.marks markop) = [] :=
    commandsOn_of_builds (by decide) (fun _ member => mangleCommands_builds member) name
  have nat : commandsOn .filter name
      (if config.ip6 then [] else natCommands stray config config.marks markmask) = [] :=
    commandsOn_of_builds (by decide) (fun _ member => natCommands_builds_unless member) name
  rw [initCommands, commandsOn_append, commandsOn_append, mangle, nat, List.append_nil,
    List.nil_append]

theorem commandsOn_toInternet :
    commandsOn .filter .toInternet (filterCommands stray config marks markmask) =
      .newChain .filter .toInternet ::
        (toInternetRules stray config marks markmask).map (.append .filter .toInternet) := by
  by_cases router : config.isEmptyRuleset .usersToRouter = true <;>
    by_cases others : config.isEmptyRuleset .preauthenticatedUsers = true <;>
      simp [filterCommands, inputCommands, forwardCommands, toInternetRules, classCommands_eq,
        mssCommands_eq, iptablesAppendRuleset_eq, commandsOn_cons, commandsOn_appends,
        Command.place, router, others]

theorem commandsOn_toRouter :
    commandsOn .filter .toRouter (filterCommands stray config marks markmask) =
      .newChain .filter .toRouter ::
        (toRouterRules stray config marks markmask).map (.append .filter .toRouter) := by
  by_cases router : config.isEmptyRuleset .usersToRouter = true <;>
    by_cases others : config.isEmptyRuleset .preauthenticatedUsers = true <;>
      simp [filterCommands, inputCommands, forwardCommands, toRouterRules, classCommands_eq,
        mssCommands_eq, iptablesAppendRuleset_eq, commandsOn_cons, commandsOn_appends,
        Command.place, router, others]

theorem commandsOn_users {name : Chain} {ruleset : RulesetName}
    (users : name = .trusted ∧ ruleset = .trustedUsers ∨
      name = .authenticated ∧ ruleset = .authenticatedUsers) :
    commandsOn .filter name (filterCommands stray config marks markmask) =
      .newChain .filter name :: (classRules stray config ruleset).map (.append .filter name) := by
  rcases users with ⟨rfl, rfl⟩ | ⟨rfl, rfl⟩ <;>
    by_cases router : config.isEmptyRuleset .usersToRouter = true <;>
    by_cases others : config.isEmptyRuleset .preauthenticatedUsers = true <;>
      simp [filterCommands, inputCommands, forwardCommands, classCommands_eq, mssCommands_eq,
        iptablesAppendRuleset_eq, commandsOn_cons, commandsOn_appends, Command.place, router,
        others]

theorem commandsOn_trustedUsers :
    commandsOn .filter .trusted (filterCommands stray config marks markmask) =
      .newChain .filter .trusted ::
        (classRules stray config .trustedUsers).map (.append .filter .trusted) :=
  commandsOn_users (.inl ⟨rfl, rfl⟩)

theorem commandsOn_authenticatedUsers :
    commandsOn .filter .authenticated (filterCommands stray config marks markmask) =
      .newChain .filter .authenticated ::
        (classRules stray config .authenticatedUsers).map (.append .filter .authenticated) :=
  commandsOn_users (.inr ⟨rfl, rfl⟩)

end

section

variable {config : Config} {firewall before after : Firewall}

theorem Initialized.rules_filter (initialized : Initialized config firewall before after)
    {name : Chain} {added : List Rule}
    (commands : commandsOn .filter name
        (filterCommands firewall.kernel.stray config config.marks before.markmask) =
      .newChain .filter name :: added.map (.append .filter name)) :
    after.tables.rules .filter name = added :=
  initialized.rules_of_created ((commandsOn_filter name before.markop).trans commands)

theorem Initialized.rules_toInternet (initialized : Initialized config firewall before after) :
    after.tables.rules .filter .toInternet =
      toInternetRules firewall.kernel.stray config config.marks after.markmask := by
  rw [initialized.markmask]
  exact initialized.rules_filter commandsOn_toInternet

theorem Initialized.rules_toRouter (initialized : Initialized config firewall before after) :
    after.tables.rules .filter .toRouter =
      toRouterRules firewall.kernel.stray config config.marks after.markmask := by
  rw [initialized.markmask]
  exact initialized.rules_filter commandsOn_toRouter

theorem Initialized.markmask_cases (initialized : Initialized config firewall before after) :
    after.markmask = none ∨ after.markmask = some config.marks.mask := by
  rw [initialized.markmask]
  exact initialized.masked.markmask.imp id And.left

end

/-! ## The chains while the daemon runs -/

def preroutingJumps (config : Config) : List Rule :=
  [⟨config.fromClients, .jump .outgoing⟩, ⟨config.fromClients, .jump .blocked⟩,
    ⟨config.fromClients, .jump .trusted⟩]

namespace Gateway

/-- The rules that `iptables_fw_init` has left are still there. -/
structure ChainsInPlace (gateway : Gateway) : Prop where
  markmask : gateway.firewall.markmask = none ∨
    gateway.firewall.markmask = some gateway.marks.mask
  prerouting : (gateway.firewall.tables.rules .mangle .prerouting).take 3 =
    preroutingJumps gateway.config
  toInternet : gateway.firewall.tables.rules .filter .toInternet =
    toInternetRules gateway.firewall.kernel.stray gateway.config gateway.marks.toMarks
      gateway.firewall.markmask
  toRouter : gateway.firewall.tables.rules .filter .toRouter =
    toRouterRules gateway.firewall.kernel.stray gateway.config gateway.marks.toMarks
      gateway.firewall.markmask
  trusted : gateway.firewall.tables.rules .filter .trusted =
    classRules gateway.firewall.kernel.stray gateway.config .trustedUsers
  authenticated : gateway.firewall.tables.rules .filter .authenticated =
    classRules gateway.firewall.kernel.stray gateway.config .authenticatedUsers

theorem Fresh.chainsInPlace {gateway : Gateway} {kernel : Kernel} (fresh : gateway.Fresh kernel) :
    gateway.ChainsInPlace := by
  rcases fresh.initialized with ⟨destroyed, before, _, initialized⟩
  have stray : gateway.firewall.kernel.stray = destroyed.kernel.stray := by rw [initialized.kernel]
  constructor
  · rw [fresh.marks]
    exact initialized.markmask_cases
  · rw [initialized.rules, commandsOn_initCommands_mangle, commandsOn_prerouting]
    simp [Command.effect, Command.place, preroutingJumps]
  · rw [stray, fresh.marks]
    exact initialized.rules_toInternet
  · rw [stray, fresh.marks]
    exact initialized.rules_toRouter
  · rw [stray]
    exact initialized.rules_filter commandsOn_trustedUsers
  · rw [stray]
    exact initialized.rules_filter commandsOn_authenticatedUsers

theorem ChainsInPlace.follows {before after : Gateway} (inPlace : before.ChainsInPlace)
    (follows : before.Follows after) : after.ChainsInPlace := by
  have settings := follows.settings
  rw [Config.SameSettings] at settings
  have mangle := follows.firewall.rules .mangle .prerouting (by decide)
  have filter (name : Chain) : after.firewall.tables.rules .filter name =
      before.firewall.tables.rules .filter name :=
    follows.firewall.rules .filter name (by simp [runtimeChains])
  constructor
  · rw [follows.firewall.markmask, follows.marks]
    exact inPlace.markmask
  · rw [mangle, settings, inPlace.prerouting]
    rfl
  · rw [filter, inPlace.toInternet, follows.firewall.markmask, follows.firewall.kernel,
      follows.marks, settings]
    rfl
  · rw [filter, inPlace.toRouter, follows.firewall.markmask, follows.firewall.kernel,
      follows.marks, settings]
    rfl
  · rw [filter, inPlace.trusted, follows.firewall.kernel, settings]
    rfl
  · rw [filter, inPlace.authenticated, follows.firewall.kernel, settings]
    rfl

theorem chainsInPlace_of_started {environment : Environment} {gateway : Gateway}
    (started : mainLoop environment = some gateway) : gateway.ChainsInPlace := by
  rcases mainLoop_cases started with ⟨initial, _, fresh, ⟨_, rfl⟩ | ⟨_, recovered, _⟩⟩
  · exact fresh.chainsInPlace.follows
      (stateFileImport_transitions initial environment.stateFile).follows
  · exact recovered.chainsInPlace

theorem chainsInPlace_of_run {environment : Environment} {initial final : Gateway}
    {events : List (Int × Event)} (started : mainLoop environment = some initial)
    (run : DaemonRun initial events final) : final.ChainsInPlace :=
  (chainsInPlace_of_started started).follows (run_transitions run).follows

end Gateway

/-! ## Packets -/

/-- How the rules of a chain end for a packet with a mark. The chains of the
daemon call chains that call no others. -/
def Tables.traverse (tables : Tables) (table : Table) (packet : Packet) (chain : Chain)
    (packetMark : BitVec 32) : RuleChain.Outcome (BitVec 32) Verdict :=
  RuleChain.evalChain (filterSemantics packet) (tables.rules table) 2 chain packetMark

def Gateway.markPacket (gateway : Gateway) (packet : Packet) :
    RuleChain.Outcome (BitVec 32) Verdict :=
  RuleChain.evalRules (filterSemantics packet)
    (RuleChain.evalChain (filterSemantics packet) (gateway.firewall.tables.rules .mangle) 1)
    ((gateway.firewall.tables.rules .mangle .prerouting).take 3) 0

theorem guard_mark_iff (packet : Packet) (value : BitVec 32) (mask : Option (BitVec 32))
    (target : Target) (packetMark : BitVec 32) :
    (filterSemantics packet).guard ⟨[.mark value mask], target⟩ packetMark = true ↔
      packetMark &&& mask.getD (BitVec.allOnes 32) = value := by
  simp only [filterSemantics, Rule.holds, Match.holds, List.all_cons, List.all_nil, Bool.and_true,
    decide_eq_true_eq]

/-- The packet comes in on the gateway interface, from the managed range. -/
def Packet.IsFromClients (packet : Packet) (config : Config) : Prop :=
  packet.inInterface = config.gwInterface ∧ packet.sourceIn config.gwIprange = true

theorem Packet.IsFromClients.holds {packet : Packet} {config : Config}
    (fromClients : packet.IsFromClients config) (target : Target) (packetMark : BitVec 32) :
    (filterSemantics packet).guard ⟨config.fromClients, target⟩ packetMark = true := by
  simp [filterSemantics, Rule.holds, Config.fromClients, Match.holds, fromClients.1, fromClients.2]

end Nodogsplash
