import Nodogsplash.FilterChains

/-! # The hooks and the nat table

The jumps at the head of INPUT, FORWARD and nat PREROUTING, the chain of trusted
users on their way to the router, and the rules of the nat table. They too stay
as `iptables_fw_init` has left them. -/

namespace Nodogsplash

def natOutgoingRules (stray : String → String) (config : Config) (marks : Marks)
    (markmask : Option (BitVec 32)) : List Rule :=
  [⟨[.mark marks.trusted markmask], .leave⟩, ⟨[.mark marks.authenticated markmask], .leave⟩] ++
  rulesetRules stray config .preauthenticatedUsers ++
  [⟨[.protocol "tcp", .destinationPort "80"], .dnat config.gwAddress⟩, ⟨[], .accept⟩]

section

variable {stray : String → String} {config : Config} {marks : Marks}
  {markmask : Option (BitVec 32)}

theorem commandsOn_trustedUsersToRouter :
    commandsOn .filter .trustedToRouter (filterCommands stray config marks markmask) =
      .newChain .filter .trustedToRouter ::
        (classRules stray config .trustedUsersToRouter).map (.append .filter .trustedToRouter) := by
  by_cases router : config.isEmptyRuleset .usersToRouter = true <;>
    by_cases others : config.isEmptyRuleset .preauthenticatedUsers = true <;>
      simp [filterCommands, inputCommands, forwardCommands, classCommands_eq, mssCommands_eq,
        iptablesAppendRuleset_eq, commandsOn_cons, commandsOn_appends, Command.place, router,
        others]

theorem commandsOn_filterHooks {name hooked : Chain}
    (hook : name = .input ∧ hooked = .toRouter ∨ name = .forward ∧ hooked = .toInternet) :
    commandsOn .filter name (filterCommands stray config marks markmask) =
      [.insert .filter name 1 ⟨config.fromClients, .jump hooked⟩] := by
  rcases hook with ⟨rfl, rfl⟩ | ⟨rfl, rfl⟩ <;>
    by_cases router : config.isEmptyRuleset .usersToRouter = true <;>
    by_cases others : config.isEmptyRuleset .preauthenticatedUsers = true <;>
      simp [filterCommands, inputCommands, forwardCommands, classCommands_eq, mssCommands_eq,
        iptablesAppendRuleset_eq, commandsOn_cons, commandsOn_appends, Command.place, router,
        others]

theorem commandsOn_nat (ip4 : config.ip6 = false) (name : Chain) (markop : MarkOp) :
    commandsOn .nat name (initCommands stray config markop markmask) =
      commandsOn .nat name (natCommands stray config config.marks markmask) := by
  have mangle : commandsOn .nat name (mangleCommands config config.marks markop) = [] :=
    commandsOn_of_builds (by decide) (fun _ member => mangleCommands_builds member) name
  have filter : commandsOn .nat name (filterCommands stray config config.marks markmask) = [] :=
    commandsOn_of_builds (by decide) (fun _ member => filterCommands_builds member) name
  rw [initCommands, commandsOn_append, commandsOn_append, mangle, filter, ip4, List.append_nil,
    List.nil_append]
  rfl

theorem commandsOn_natOutgoing :
    commandsOn .nat .outgoing (natCommands stray config marks markmask) =
      .newChain .nat .outgoing ::
        (natOutgoingRules stray config marks markmask).map (.append .nat .outgoing) := by
  simp [natCommands, natOutgoingRules, iptablesAppendRuleset_eq, commandsOn_cons,
    commandsOn_appends, Command.place]

theorem commandsOn_natPrerouting :
    commandsOn .nat .prerouting (natCommands stray config marks markmask) =
      [.insert .nat .prerouting 1 ⟨config.fromClients, .jump .outgoing⟩] := by
  simp [natCommands, iptablesAppendRuleset_eq, commandsOn_cons, commandsOn_appends,
    Command.place]

end

namespace Gateway

/-- The rules that `iptables_fw_init` has left in these chains are still there. -/
structure HooksInPlace (gateway : Gateway) : Prop where
  input : ∃ rest, gateway.firewall.tables.rules .filter .input =
    ⟨gateway.config.fromClients, .jump .toRouter⟩ :: rest
  forward : ∃ rest, gateway.firewall.tables.rules .filter .forward =
    ⟨gateway.config.fromClients, .jump .toInternet⟩ :: rest
  trustedToRouter : gateway.firewall.tables.rules .filter .trustedToRouter =
    classRules gateway.firewall.kernel.stray gateway.config .trustedUsersToRouter
  prerouting : gateway.config.ip6 = false → ∃ rest,
    gateway.firewall.tables.rules .nat .prerouting =
      ⟨gateway.config.fromClients, .jump .outgoing⟩ :: rest
  outgoing : gateway.config.ip6 = false → gateway.firewall.tables.rules .nat .outgoing =
    natOutgoingRules gateway.firewall.kernel.stray gateway.config gateway.marks.toMarks
      gateway.firewall.markmask

theorem Fresh.hooksInPlace {gateway : Gateway} {kernel : Kernel} (fresh : gateway.Fresh kernel) :
    gateway.HooksInPlace := by
  rcases fresh.initialized with ⟨destroyed, before, _, initialized⟩
  have stray : gateway.firewall.kernel.stray = destroyed.kernel.stray := by rw [initialized.kernel]
  have hook {name hooked : Chain} (pair : name = .input ∧ hooked = .toRouter ∨
      name = .forward ∧ hooked = .toInternet) :
      gateway.firewall.tables.rules .filter name =
        ⟨gateway.config.fromClients, .jump hooked⟩ :: before.tables.rules .filter name := by
    rw [initialized.rules, commandsOn_filter, commandsOn_filterHooks pair]
    simp [Command.effect, Command.place]
  refine ⟨⟨_, hook (.inl ⟨rfl, rfl⟩)⟩, ⟨_, hook (.inr ⟨rfl, rfl⟩)⟩, ?_, ?_, ?_⟩
  · rw [stray]
    exact initialized.rules_filter commandsOn_trustedUsersToRouter
  · intro ip4
    refine ⟨before.tables.rules .nat .prerouting, ?_⟩
    rw [initialized.rules, commandsOn_nat ip4, commandsOn_natPrerouting]
    simp [Command.effect, Command.place]
  · intro ip4
    rw [stray, fresh.marks, initialized.markmask]
    apply initialized.rules_of_created
    rw [commandsOn_nat ip4, commandsOn_natOutgoing]

theorem HooksInPlace.follows {before after : Gateway} (inPlace : before.HooksInPlace)
    (follows : before.Follows after) : after.HooksInPlace := by
  have settings := follows.settings
  rw [Config.SameSettings] at settings
  have filter (name : Chain) : after.firewall.tables.rules .filter name =
      before.firewall.tables.rules .filter name :=
    follows.firewall.rules .filter name (by simp [runtimeChains])
  have nat (name : Chain) : after.firewall.tables.rules .nat name =
      before.firewall.tables.rules .nat name :=
    follows.firewall.rules .nat name (by simp [runtimeChains])
  constructor
  · rw [filter, settings]
    exact inPlace.input
  · rw [filter, settings]
    exact inPlace.forward
  · rw [filter, inPlace.trustedToRouter, follows.firewall.kernel, settings]
    rfl
  · rw [nat, settings]
    exact inPlace.prerouting
  · rw [nat, follows.firewall.kernel, follows.firewall.markmask, follows.marks, settings]
    exact inPlace.outgoing

theorem hooksInPlace_of_run {environment : Environment} {initial final : Gateway}
    {events : List (Int × Event)} (started : mainLoop environment = some initial)
    (run : DaemonRun initial events final) : final.HooksInPlace := by
  have start : initial.HooksInPlace := by
    rcases mainLoop_cases started with ⟨first, _, fresh, ⟨_, rfl⟩ | ⟨_, recovered, _⟩⟩
    · exact fresh.hooksInPlace.follows
        (stateFileImport_transitions first environment.stateFile).follows
    · exact recovered.hooksInPlace
  exact start.follows (run_transitions run).follows

end Gateway

end Nodogsplash
