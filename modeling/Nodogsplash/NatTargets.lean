import Nodogsplash.AcceptedConfig
import Nodogsplash.Start

/-! # Targets in the nat table

The rules of `preauthenticated-users` go into the filter table and into the nat table. iptables
has no REJECT and no DROP in the latter. -/

namespace Nodogsplash

def Target.isFilterOnly : Target → Bool
  | .reject _ | .drop => true
  | _ => false

/-- The command does not put a REJECT or DROP rule into the nat table. -/
def Command.isLegal : Command → Bool
  | .append .nat _ rule => !rule.target.isFilterOnly
  | .insert .nat _ _ rule => !rule.target.isFilterOnly
  | _ => true

theorem Command.isLegal_of_place {command : Command} (other : command.place.1 ≠ .nat) :
    command.isLegal = true := by
  cases command with
  | append table => cases table <;> first | rfl | exact absurd rfl other
  | insert table => cases table <;> first | rfl | exact absurd rfl other
  | newChain | delete | deleteNumber | flush | deleteChain => rfl

/-- There are no nat commands, or no rule of `preauthenticated-users` blocks or drops. -/
def Config.KeepsNatLegal (config : Config) : Prop :=
  config.ip6 = true ∨ ∀ rule ∈ config.getRulesetList .preauthenticatedUsers,
    rule.target ≠ .reject ∧ rule.target ≠ .drop

instance (config : Config) : Decidable config.KeepsNatLegal :=
  inferInstanceAs (Decidable (_ ∨ _))

theorem FirewallTarget.toTarget_isFilterOnly (target : FirewallTarget) :
    target.toTarget.isFilterOnly = false ↔ target ≠ .reject ∧ target ≠ .drop := by
  cases target <;> decide

section

variable (stray : String → String) (config : Config)

theorem iptablesAppendRuleset_legal_iff (ruleset : RulesetName) (chain : Chain) :
    (∀ command ∈ iptablesAppendRuleset stray config .nat ruleset chain,
        command.isLegal = true) ↔
      ∀ rule ∈ config.getRulesetList ruleset, rule.target ≠ .reject ∧ rule.target ≠ .drop := by
  rw [iptablesAppendRuleset, List.forall_mem_map]
  refine forall₂_congr fun rule _ => ?_
  rw [← FirewallTarget.toTarget_isFilterOnly]
  simp [Command.isLegal, iptablesCompile]

theorem natCommands_legal_iff (marks : Marks) (markmask : Option (BitVec 32)) :
    (∀ command ∈ natCommands stray config marks markmask, command.isLegal = true) ↔
      ∀ rule ∈ config.getRulesetList .preauthenticatedUsers,
        rule.target ≠ .reject ∧ rule.target ≠ .drop := by
  rw [natCommands, List.forall_mem_append, List.forall_mem_append,
    iptablesAppendRuleset_legal_iff]
  simp [Command.isLegal, Target.isFilterOnly]

theorem initCommands_legal_iff (markop : MarkOp) (markmask : Option (BitVec 32)) :
    (∀ command ∈ initCommands stray config markop markmask, command.isLegal = true) ↔
      config.KeepsNatLegal := by
  have mangle : ∀ command ∈ mangleCommands config config.marks markop,
      command.isLegal = true := by
    intro command member
    exact Command.isLegal_of_place (by rw [(mangleCommands_builds member).place]; decide)
  have filter : ∀ command ∈ filterCommands stray config config.marks markmask,
      command.isLegal = true := by
    intro command member
    exact Command.isLegal_of_place (by rw [(filterCommands_builds member).place]; decide)
  rw [initCommands, List.forall_mem_append, List.forall_mem_append, Config.KeepsNatLegal]
  cases version : config.ip6 with
  | true => simpa [version] using ⟨mangle, filter⟩
  | false =>
      simp only [Bool.false_eq_true, if_false, false_or, natCommands_legal_iff]
      exact ⟨fun all => all.1.2, fun nat => ⟨⟨mangle, nat⟩, filter⟩⟩

end

/-! ## What iptables does with the commands -/

/-- iptables carries out the legal ones of a sequence of commands and no others. -/
def Firewall.Judges : Firewall → List Command → Prop
  | _, [] => True
  | firewall, command :: rest =>
      (firewall.Accepts command ↔ command.isLegal = true) ∧
        (iptablesDoCommand firewall command).2.Judges rest

instance (firewall : Firewall) (command : Command) : Decidable (firewall.Accepts command) :=
  inferInstanceAs (Decidable (_ ∧ _))

instance Firewall.decidableJudges :
    (firewall : Firewall) → (commands : List Command) → Decidable (firewall.Judges commands)
  | _, [] => .isTrue trivial
  | firewall, command :: rest =>
      have := decidableJudges (iptablesDoCommand firewall command).2 rest
      inferInstanceAs (Decidable (_ ∧ _))

theorem Firewall.Judges.acceptsAll_iff {firewall : Firewall} {commands : List Command}
    (judges : firewall.Judges commands) :
    firewall.AcceptsAll commands ↔ ∀ command ∈ commands, command.isLegal = true := by
  induction commands generalizing firewall with
  | nil => exact iff_of_true trivial fun _ member => absurd member List.not_mem_nil
  | cons command rest induction =>
      rcases judges with ⟨first, others⟩
      rw [List.forall_mem_cons, Firewall.AcceptsAll, first, induction others]

/-- The firewall after the marks have been checked. -/
def Firewall.checkedMarks (firewall : Firewall) (config : Config) : Firewall :=
  (iptablesCheckMarkMasking firewall config.marks config.marks.mask).2

/-- The commands of `iptables_fw_init` that follow. -/
def Firewall.commandsOfInit (firewall : Firewall) (config : Config) : List Command :=
  initCommands firewall.kernel.stray config (firewall.checkedMarks config).markop
    (firewall.checkedMarks config).markmask

/-- What `iptables_fw_init` needs besides iptables. -/
structure Prepared (config : Config) (firewall : Firewall) (traffic : TrafficControl) :
    Prop where
  version : minIptablesVersion ≤ firewall.kernel.iptablesVersion
  marks : iptablesInitMarks config.marks = 0
  shaped : config.trafficControl = true → (tcInitTc config traffic).1 = 0

theorem iptablesFwInit_eq_zero_iff (config : Config) (firewall : Firewall)
    (traffic : TrafficControl) :
    (iptablesFwInit config firewall traffic).1 = 0 ↔
      Prepared config firewall traffic ∧
        (firewall.checkedMarks config).AcceptsAll (firewall.commandsOfInit config) := by
  constructor
  · intro succeeded
    rcases accepted_of_iptablesFwInit succeeded with ⟨recent, accepted⟩
    have ran := (iptablesFwInit_ran traffic recent accepted rfl).1.mp succeeded
    exact ⟨⟨recent, accepted, ran.1⟩, (iptablesDoCommands_eq_zero_iff _ _).mp ran.2⟩
  · intro both
    rcases both with ⟨prepared, accepts⟩
    have ran := iptablesFwInit_ran traffic prepared.version prepared.marks rfl
    exact ran.1.mpr ⟨prepared.shaped, (iptablesDoCommands_eq_zero_iff _ _).mpr accepts⟩

/-- `main_loop` gets as far as the state file exactly if `iptables_fw_init` returns 0. -/
theorem initialGateway_isSome_iff {environment : Environment} {destroyed : Firewall}
    {traffic : TrafficControl}
    (returned : iptablesFwDestroy environment.fuel environment.config environment.firewall
      ⟨environment.tcExitCode, []⟩ = some (destroyed, traffic)) :
    (initialGateway environment).isSome = true ↔
      (iptablesFwInit environment.config destroyed traffic).1 = 0 := by
  have reset : resetFirewall environment.fuel environment.config environment.firewall
      ⟨environment.tcExitCode, []⟩ =
        if (iptablesFwInit environment.config destroyed traffic).1 = 0 then
          some (iptablesFwInit environment.config destroyed traffic).2
        else none := by
    rw [resetFirewall, returned]
    rfl
  rw [initialGateway, reset]
  split
  · next succeeded =>
      rcases Option.isSome_iff_exists.mp ((Marks.accept_isSome_iff _).mpr
        (iptablesFwInit_eq_zero succeeded).1) with ⟨marks, accepted⟩
      rw [accepted]
      exact iff_of_true rfl succeeded
  · next failed => exact iff_of_false nofun failed

theorem commandsOfInit_legal_iff (firewall : Firewall) (config : Config) :
    (∀ command ∈ firewall.commandsOfInit config, command.isLegal = true) ↔
      config.KeepsNatLegal :=
  initCommands_legal_iff _ _ _ _

/-- With an iptables that refuses just the illegal commands, the start needs legal ones. -/
theorem initialGateway_isSome_iff_of_judges {environment : Environment} {destroyed : Firewall}
    {traffic : TrafficControl}
    (returned : iptablesFwDestroy environment.fuel environment.config environment.firewall
      ⟨environment.tcExitCode, []⟩ = some (destroyed, traffic))
    (judges : (destroyed.checkedMarks environment.config).Judges
      (destroyed.commandsOfInit environment.config)) :
    (initialGateway environment).isSome = true ↔
      Prepared environment.config destroyed traffic ∧ environment.config.KeepsNatLegal := by
  rw [initialGateway_isSome_iff returned, iptablesFwInit_eq_zero_iff, judges.acceptsAll_iff,
    commandsOfInit_legal_iff]

/-- No command of `iptables_fw_init` puts a REJECT or DROP rule into the nat table exactly if
the rules of `preauthenticated-users` neither block nor drop or there are no nat commands. With
an iptables that refuses just those commands, the daemon starts exactly if in addition what
else it needs is there. -/
theorem rulesets_installable_iff (config : Config) :
    (∀ stray markop markmask,
      (∀ command ∈ initCommands stray config markop markmask, command.isLegal = true) ↔
        config.KeepsNatLegal) ∧
    ∀ environment destroyed traffic, environment.config = config →
      iptablesFwDestroy environment.fuel config environment.firewall
        ⟨environment.tcExitCode, []⟩ = some (destroyed, traffic) →
      (destroyed.checkedMarks config).Judges (destroyed.commandsOfInit config) →
      ((initialGateway environment).isSome = true ↔
        Prepared config destroyed traffic ∧ config.KeepsNatLegal) := by
  constructor
  · exact fun stray => initCommands_legal_iff stray config
  · rintro environment destroyed traffic rfl returned judges
    exact initialGateway_isSome_iff_of_judges returned judges

/-- A file that blocks a network for the users who have not authenticated. -/
def preauthenticatedBlock : List (List Char) :=
  [interfaceLine, "FirewallRuleSet preauthenticated-users \x7b\n".toList,
    "FirewallRule block to 10.0.0.0/8\n".toList, "\x7d\n".toList]

/-- A system whose iptables refuses the rule of that file in the nat table, which is the 39th
command. -/
def refusingEnvironment (settings : Settings) : Environment :=
  { defaultEnvironment with
    config := settings.launch defaultLaunch
    kernel := { willingKernel with exitCode := fun number => if number = 39 then 2 else 0 } }

/-- On that system `iptables_fw_init` reaches the rule and is refused. -/
structure RefusesBlock (settings : Settings) (destroyed : Firewall) (traffic : TrafficControl) :
    Prop where
  returned : iptablesFwDestroy 4 (settings.launch defaultLaunch)
    (refusingEnvironment settings).firewall ⟨defaultEnvironment.tcExitCode, []⟩ =
      some (destroyed, traffic)
  prepared : Prepared (settings.launch defaultLaunch) destroyed traffic
  judges : (destroyed.checkedMarks (settings.launch defaultLaunch)).Judges
    (destroyed.commandsOfInit (settings.launch defaultLaunch))
  refused : ¬ (settings.launch defaultLaunch).KeepsNatLegal

theorem exists_refusesBlock :
    ∃ settings destroyed traffic, Accepted (fun _ => false) preauthenticatedBlock settings ∧
      (∀ name, ∀ rule ∈ (settings.rulesets name).rules, rule.target = .reject) ∧
      RefusesBlock settings destroyed traffic := by
  let documented (settings : Settings) (name : RulesetName) : Bool :=
    (settings.rulesets name).rules.all fun rule => rule.target = .reject
  let ready (settings : Settings) (destroyed : Firewall) : Bool :=
    let config := settings.launch defaultLaunch
    decide (minIptablesVersion ≤ destroyed.kernel.iptablesVersion) &&
      decide (iptablesInitMarks config.marks = 0) && !config.trafficControl &&
      decide ((destroyed.checkedMarks config).Judges (destroyed.commandsOfInit config)) &&
      decide ¬ config.KeepsNatLegal
  rcases exists_accepted (fun _ => false) preauthenticatedBlock
    (fun settings =>
      (documented settings .trustedUsers && documented settings .trustedUsersToRouter &&
        documented settings .usersToRouter && documented settings .authenticatedUsers &&
        documented settings .preauthenticatedUsers) &&
      (iptablesFwDestroy 4 (settings.launch defaultLaunch)
        (refusingEnvironment settings).firewall ⟨defaultEnvironment.tcExitCode, []⟩).any
          fun destroyed => ready settings destroyed.1) (by decide +kernel) with
    ⟨settings, accepted, tested⟩
  simp only [Bool.and_eq_true, Option.any_eq_true, documented, ready, List.all_eq_true,
    decide_eq_true_eq, Bool.not_eq_true'] at tested
  rcases tested with ⟨⟨⟨⟨⟨first, second⟩, third⟩, fourth⟩, fifth⟩, ⟨destroyed, traffic⟩, returned,
    ⟨⟨⟨version, marks⟩, unshaped⟩, judges⟩, refused⟩
  refine ⟨settings, destroyed, traffic, accepted, ?_, returned, ⟨version, marks, ?_⟩, judges,
    refused⟩
  · intro name
    cases name with
    | trustedUsers => exact first
    | trustedUsersToRouter => exact second
    | usersToRouter => exact third
    | authenticatedUsers => exact fourth
    | preauthenticatedUsers => exact fifth
  · intro shaped
    rw [unshaped] at shaped
    cases shaped

theorem rulesets_installable_iff_refusing :
    ∃ settings destroyed traffic, Accepted (fun _ => false) preauthenticatedBlock settings ∧
      ((initialGateway (refusingEnvironment settings)).isSome = true ↔
        Prepared (settings.launch defaultLaunch) destroyed traffic ∧
          (settings.launch defaultLaunch).KeepsNatLegal) := by
  rcases exists_refusesBlock with ⟨settings, destroyed, traffic, accepted, _, refuses⟩
  exact ⟨settings, destroyed, traffic, accepted,
    (rulesets_installable_iff (settings.launch defaultLaunch)).2 (refusingEnvironment settings)
      destroyed traffic rfl refuses.returned refuses.judges⟩

/-- A file with a block rule is accepted. The rule goes into the nat table, where iptables
refuses it as the only command, and the daemon does not start. -/
theorem preauthenticated_block_refused :
    ∃ settings destroyed traffic, Accepted (fun _ => false) preauthenticatedBlock settings ∧
      (∀ name, ∀ rule ∈ (settings.rulesets name).rules, rule.target = .reject) ∧
      RefusesBlock settings destroyed traffic ∧
      (∃ command ∈ destroyed.commandsOfInit (settings.launch defaultLaunch),
        command.isLegal = false) ∧
      mainLoop (refusingEnvironment settings) = none := by
  rcases exists_refusesBlock with ⟨settings, destroyed, traffic, accepted, documented, refuses⟩
  refine ⟨settings, destroyed, traffic, accepted, documented, refuses, ?_, ?_⟩
  · by_contra legal
    apply refuses.refused
    rw [← commandsOfInit_legal_iff destroyed]
    intro command member
    by_contra illegal
    exact legal ⟨command, member, Bool.eq_false_of_not_eq_true illegal⟩
  · have starts : ¬ (initialGateway (refusingEnvironment settings)).isSome = true := by
      have decided : (initialGateway (refusingEnvironment settings)).isSome = true ↔ _ :=
        initialGateway_isSome_iff_of_judges refuses.returned refuses.judges
      rw [decided]
      exact fun both => refuses.refused both.2
    rw [mainLoop, Option.not_isSome_iff_eq_none.mp starts]
    rfl

end Nodogsplash
