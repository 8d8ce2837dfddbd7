import Nodogsplash.FilterChains

/-! # The rulesets of the configuration

`ndsNET` treats the packets of each class as the rulesets and their policies
say, once the texts of the rules have gone through `iptables_do_command`, which
takes each command for a format. -/

namespace Nodogsplash

open RuleChain

/-! ## What the configuration says -/

def FirewallRule.Applies (rule : FirewallRule) (packet : Packet) : Bool :=
  rule.mask.all packet.destinationIn && rule.protocol.all packet.protocolIs &&
    rule.port.all packet.destinationPortIn && rule.ipset.all packet.inSet

/-- The fate of a packet at a target, if the target ends its way. -/
def FirewallTarget.verdict : FirewallTarget → Option Verdict
  | .drop => some .drop
  | .reject => some .reject
  | .accept => some .accept
  | .log => none
  | .ulog => none

/-- The first rule that is about the packet and ends its way. -/
def decidingVerdict (rules : List FirewallRule) (packet : Packet) : Option Verdict :=
  rules.findSome? fun rule => if rule.Applies packet then rule.target.verdict else none

/-- A packet that no rule decides on is rejected. -/
def rulesetVerdict (rules : List FirewallRule) (packet : Packet) : Verdict :=
  (decidingVerdict rules packet).getD .reject

/-- The fate of a packet under the policy of an empty ruleset; without one the
packet goes on to the rules that follow in FORWARD. -/
def EmptyRulesetPolicy.verdict : EmptyRulesetPolicy → Option Verdict
  | .accept => some .accept
  | .reject => some .reject
  | .passthrough => none

/-- The classes of packets on their way to the internet. -/
inductive PacketClass
  | blocked
  | trusted
  | authenticated
  | preauthenticated
  deriving DecidableEq

def PacketClass.mark (marks : Marks) : PacketClass → BitVec 32
  | .blocked => marks.blocked
  | .trusted => marks.trusted
  | .authenticated => marks.authenticated
  | .preauthenticated => preauthenticatedState

def Packet.isConnected (packet : Packet) : Bool :=
  packet.conntrack = .related || packet.conntrack = .established

/-- The fate of a packet under a ruleset; `connected` is whether those of open
connections pass. -/
def Config.rulesetFate (config : Config) (ruleset : RulesetName) (connected : Bool)
    (packet : Packet) : Option Verdict :=
  if config.isEmptyRuleset ruleset then (config.getEmptyRulesetPolicy ruleset).verdict
  else if connected && packet.isConnected then some .accept
  else some (rulesetVerdict (config.getRulesetList ruleset) packet)

/-- The fate of a packet of a class. -/
def Config.internetFate (config : Config) (packet : Packet) (packetClass : PacketClass) :
    Option Verdict :=
  if packet.conntrack = .invalid then some .drop
  else
    match packetClass with
    | .blocked => some .drop
    | .trusted => config.rulesetFate .trustedUsers true packet
    | .authenticated => config.rulesetFate .authenticatedUsers true packet
    | .preauthenticated => config.rulesetFate .preauthenticatedUsers false packet

/-- How the rules of a chain end that give a packet a fate. -/
def fateOutcome (packetMark : BitVec 32) : Option Verdict → Outcome (BitVec 32) Verdict
  | some verdict => .decided verdict packetMark
  | none => .left packetMark

theorem fateOutcome_injective (packetMark : BitVec 32) :
    Function.Injective (fateOutcome packetMark) := by
  intro left right equal
  cases left <;> cases right <;> simp_all [fateOutcome]

/-! ## The rules as they are printed -/

/-- The rule that iptables is given for a rule. -/
def FirewallRule.printed (stray : String → String) (rule : FirewallRule) : FirewallRule where
  target := rule.target
  protocol := rule.protocol.map (printfText stray)
  port := rule.port.map (printfText stray)
  mask := rule.mask.map (printfText stray)
  ipset := rule.ipset.map (printfText stray)

/-- The configuration with the rules that iptables is given. -/
def Config.printed (stray : String → String) (config : Config) : Config :=
  { config with
    rulesets := fun name =>
      ⟨(config.rulesets name).emptyrulesetpolicy,
        (config.rulesets name).rules.map (FirewallRule.printed stray)⟩ }

/-- The words of a rule. -/
def FirewallRule.words (rule : FirewallRule) : List String :=
  rule.mask.toList ++ rule.protocol.toList ++ rule.port.toList ++ rule.ipset.toList

theorem FirewallRule.printed_of_plain (stray : String → String) {rule : FirewallRule}
    (plain : ∀ word ∈ rule.words, '%' ∉ word.toList) : rule.printed stray = rule := by
  have same {word : String} (member : word ∈ rule.words) : printfText stray word = word :=
    printfText_of_plain stray (plain word member)
  rcases rule with ⟨target, protocol, port, mask, ipset⟩
  simp only [FirewallRule.words] at same
  cases mask <;> cases protocol <;> cases port <;> cases ipset <;>
    simp_all [FirewallRule.printed]

theorem rulesetRules_eq (stray : String → String) (config : Config) (ruleset : RulesetName) :
    rulesetRules stray config ruleset =
      ((config.printed stray).getRulesetList ruleset).map iptablesCompile := by
  rw [rulesetRules, Config.getRulesetList, Config.getRulesetList, Config.printed, List.map_map]
  apply List.map_congr_left
  intro rule _
  rcases rule with ⟨target, protocol, port, mask, ipset⟩
  cases mask <;> cases protocol <;> cases port <;> cases ipset <;> rfl

theorem isEmptyRuleset_printed (stray : String → String) (config : Config)
    (ruleset : RulesetName) :
    (config.printed stray).isEmptyRuleset ruleset = config.isEmptyRuleset ruleset := by
  simp [Config.isEmptyRuleset, Config.getRulesetList, Config.printed]

/-! ## What iptables makes of it -/

section

variable {packet : Packet} {call : Chain → BitVec 32 → Outcome (BitVec 32) Verdict}

theorem holds_iptablesCompile (rule : FirewallRule) (packetMark : BitVec 32) :
    (iptablesCompile rule).holds packet packetMark = rule.Applies packet := by
  rcases rule with ⟨target, protocol, port, mask, ipset⟩
  cases mask <;> cases protocol <;> cases port <;> cases ipset <;>
    simp [iptablesCompile, FirewallRule.Applies, Rule.holds, Match.holds, Bool.and_assoc]

theorem action_iptablesCompile (rule : FirewallRule) :
    (∃ verdict, rule.target.verdict = some verdict ∧
      (iptablesCompile rule).target.action = .decide verdict) ∨
    (rule.target.verdict = none ∧ (iptablesCompile rule).target.action = .update id) := by
  cases target : rule.target <;>
    simp [iptablesCompile, target, FirewallTarget.toTarget, FirewallTarget.verdict, Target.action]

theorem firstVerdict_iptablesCompile (rules : List FirewallRule) (packetMark : BitVec 32) :
    firstVerdict (filterSemantics packet) (rules.map iptablesCompile) packetMark =
      decidingVerdict rules packet := by
  rw [firstVerdict, decidingVerdict, List.findSome?_map]
  congr 1
  funext rule
  rcases action_iptablesCompile rule with ⟨verdict, target, action⟩ | ⟨target, action⟩ <;>
    simp [filterSemantics, holds_iptablesCompile, target, action]

theorem guard_always (target : Target) (packetMark : BitVec 32) :
    (filterSemantics packet).guard ⟨[], target⟩ packetMark = true := rfl

theorem action_reject (config : Config) :
    (filterSemantics packet).action ⟨[], config.rejectUnreachable⟩ = .decide .reject := rfl

theorem evalRules_compiled_reject (config : Config) (rules : List FirewallRule)
    (packetMark : BitVec 32) :
    evalRules (filterSemantics packet) call
        (rules.map iptablesCompile ++ [⟨[], config.rejectUnreachable⟩]) packetMark =
      .decided (rulesetVerdict rules packet) packetMark := by
  have actions : ∀ rule ∈ rules.map iptablesCompile,
      (∃ verdict, (filterSemantics packet).action rule = .decide verdict) ∨
        ∃ change, (filterSemantics packet).action rule = .update change ∧
          change packetMark = packetMark := by
    intro rule member
    rcases List.mem_map.mp member with ⟨source, _, rfl⟩
    rcases action_iptablesCompile source with ⟨verdict, _, action⟩ | ⟨_, action⟩
    · exact .inl ⟨verdict, action⟩
    · exact .inr ⟨id, action, rfl⟩
  have decides : evalRules (filterSemantics packet) call (rules.map iptablesCompile) packetMark =
    _ := evalRules_eq_firstVerdict actions
  rw [firstVerdict_iptablesCompile] at decides
  rw [rulesetVerdict]
  cases found : decidingVerdict rules packet with
  | some verdict =>
      rw [found] at decides
      exact evalRules_append_of_decided decides
  | none =>
      rw [found] at decides
      rw [evalRules_append_of_finished decides]
      exact evalRules_cons_of_decide (guard_always _ _) (action_reject config)

theorem evalRules_classRules (stray : String → String) {config : Config} {ruleset : RulesetName}
    (nonempty : config.isEmptyRuleset ruleset = false) (packetMark : BitVec 32) :
    evalRules (filterSemantics packet) call (classRules stray config ruleset) packetMark =
      fateOutcome packetMark ((config.printed stray).rulesetFate ruleset true packet) := by
  have guard (target : Target) : (filterSemantics packet).guard
      ⟨[.ctstateRelatedEstablished], target⟩ packetMark = packet.isConnected := by
    simp [filterSemantics, Rule.holds, Match.holds, Packet.isConnected]
  rw [classRules, nonempty, Config.rulesetFate, isEmptyRuleset_printed, nonempty]
  simp only [Bool.false_eq_true, if_false, List.cons_append, Bool.true_and]
  cases connected : packet.isConnected with
  | true => exact evalRules_cons_of_decide ((guard _).trans connected) rfl
  | false =>
      rw [evalRules_cons_of_not_guard ((guard _).trans connected)]
      rw [rulesetRules_eq]
      exact evalRules_compiled_reject config _ packetMark

theorem evalRules_policy {conditions : List Match} {policy : EmptyRulesetPolicy}
    {packetMark : BitVec 32}
    (guard : (filterSemantics packet).guard ⟨conditions, policy.toTarget⟩ packetMark = true)
    (rest : List Rule) :
    evalRules (filterSemantics packet) call (⟨conditions, policy.toTarget⟩ :: rest) packetMark =
      fateOutcome packetMark policy.verdict := by
  cases policy with
  | accept | reject => exact evalRules_cons_of_decide guard rfl
  | passthrough => exact evalRules_cons_of_leave guard rfl

theorem evalRules_classEntry_of_ne {config : Config} {value packetMark : BitVec 32}
    {markmask : Option (BitVec 32)} (ruleset : RulesetName) (classChain : Chain)
    (within : packetMark &&& markmask.getD (BitVec.allOnes 32) = packetMark)
    (other : packetMark ≠ value) (rest : List Rule) :
    evalRules (filterSemantics packet) call
        (classEntry config value markmask ruleset classChain :: rest) packetMark =
      evalRules (filterSemantics packet) call rest packetMark := by
  apply evalRules_cons_of_not_guard
  rw [classEntry, Bool.eq_false_iff]
  intro holds
  rw [guard_mark_iff, within] at holds
  exact other holds

theorem evalRules_classEntry (stray : String → String) {config : Config} {value : BitVec 32}
    {markmask : Option (BitVec 32)} {ruleset : RulesetName} {classChain : Chain}
    (within : value &&& markmask.getD (BitVec.allOnes 32) = value)
    {deeper : Chain → BitVec 32 → Outcome (BitVec 32) Verdict}
    (called : call classChain value =
      evalRules (filterSemantics packet) deeper (classRules stray config ruleset) value)
    (rest : List Rule) :
    evalRules (filterSemantics packet) call
        (classEntry config value markmask ruleset classChain :: rest) value =
      fateOutcome value ((config.printed stray).rulesetFate ruleset true packet) := by
  have guard (target : Target) : (filterSemantics packet).guard
      ⟨[.mark value markmask], target⟩ value = true :=
    (guard_mark_iff packet value markmask target value).mpr within
  rw [classEntry]
  cases empty : config.isEmptyRuleset ruleset with
  | true =>
      rw [if_pos rfl, Config.rulesetFate, isEmptyRuleset_printed, if_pos empty]
      exact evalRules_policy (guard _) rest
  | false =>
      rw [evalRules_classRules stray empty, Config.rulesetFate, isEmptyRuleset_printed,
        empty] at called
      rw [Config.rulesetFate, isEmptyRuleset_printed, empty]
      simp only [Bool.false_eq_true, if_false] at called ⊢
      split at called
      · next connected =>
          rw [if_pos connected]
          exact evalRules_cons_of_call_decided (guard (.jump classChain)) rfl called
      · next fresh =>
          rw [if_neg fresh]
          exact evalRules_cons_of_call_decided (guard (.jump classChain)) rfl called

theorem evalRules_mssRules (config : Config) (packetMark : BitVec 32) (rest : List Rule) :
    evalRules (filterSemantics packet) call (mssRules config ++ rest) packetMark =
      evalRules (filterSemantics packet) call rest packetMark := by
  rw [mssRules]
  cases config.setMss with
  | false => rfl
  | true =>
      rw [if_pos rfl, List.singleton_append]
      generalize rule : Rule.mk [.protocol "tcp", .synWithoutRst] _ = clamp
      have action : (filterSemantics packet).action clamp = .update id := by
        rw [← rule]
        rfl
      cases guard : (filterSemantics packet).guard clamp packetMark with
      | true => exact evalRules_cons_of_update guard action
      | false => exact evalRules_cons_of_not_guard guard

theorem PacketClass.mark_and_markmask (packetClass : PacketClass) (marks : Marks)
    {markmask : Option (BitVec 32)} (masked : markmask = none ∨ markmask = some marks.mask) :
    packetClass.mark marks &&& markmask.getD (BitVec.allOnes 32) = packetClass.mark marks := by
  rcases masked with rfl | rfl
  · exact BitVec.and_allOnes
  · cases packetClass <;>
      simp only [PacketClass.mark, Marks.mask, Option.getD_some, preauthenticatedState] <;>
        ext place <;> simp <;> tauto

theorem evalRules_preauthenticated (stray : String → String) (config : Config)
    (packetMark : BitVec 32) :
    evalRules (filterSemantics packet) call
        ((if config.isEmptyRuleset .preauthenticatedUsers then
            [⟨[], (config.getEmptyRulesetPolicy .preauthenticatedUsers).toTarget⟩]
          else rulesetRules stray config .preauthenticatedUsers) ++
          [⟨[], config.rejectUnreachable⟩]) packetMark =
      fateOutcome packetMark
        ((config.printed stray).rulesetFate .preauthenticatedUsers false packet) := by
  rw [Config.rulesetFate, isEmptyRuleset_printed]
  cases empty : config.isEmptyRuleset .preauthenticatedUsers with
  | true =>
      rw [if_pos rfl, if_pos rfl]
      exact evalRules_policy (guard_always _ _) _
  | false =>
      rw [if_neg (by simp), if_neg (by simp), rulesetRules_eq]
      exact evalRules_compiled_reject config _ packetMark

theorem evalRules_toInternetRules (stray : String → String) (config : Config)
    {marks : AcceptedMarks} {markmask : Option (BitVec 32)}
    (masked : markmask = none ∨ markmask = some marks.mask)
    (packetClass : PacketClass)
    {deeper : Chain → BitVec 32 → Outcome (BitVec 32) Verdict}
    (trusted : call .trusted marks.trusted =
      evalRules (filterSemantics packet) deeper (classRules stray config .trustedUsers)
        marks.trusted)
    (authenticated : call .authenticated marks.authenticated =
      evalRules (filterSemantics packet) deeper (classRules stray config .authenticatedUsers)
        marks.authenticated) :
    evalRules (filterSemantics packet) call (toInternetRules stray config marks.toMarks markmask)
        (packetClass.mark marks.toMarks) =
      fateOutcome (packetClass.mark marks.toMarks)
        ((config.printed stray).internetFate packet packetClass) := by
  have within := packetClass.mark_and_markmask marks.toMarks masked
  have invalidGuard (packetMark : BitVec 32) : (filterSemantics packet).guard
      ⟨[.ctstateInvalid], .drop⟩ packetMark = decide (packet.conntrack = .invalid) := by
    simp [filterSemantics, Rule.holds, Match.holds]
  simp only [toInternetRules, List.cons_append, List.nil_append, List.append_assoc]
  by_cases blocked : packetClass = .blocked
  · subst blocked
    have fate : (config.printed stray).internetFate packet .blocked = some .drop := by
      rw [Config.internetFate, ite_self]
    rw [fate]
    exact evalRules_cons_of_decide ((guard_mark_iff _ _ _ _ _).mpr within) rfl
  have unblocked : packetClass.mark marks.toMarks ≠ marks.blocked := by
    cases packetClass with
    | blocked => exact absurd rfl blocked
    | trusted => exact marks.blocked_ne_trusted.symm
    | authenticated => exact marks.authenticated_ne_blocked
    | preauthenticated => exact marks.blocked_ne_zero.symm
  rw [evalRules_cons_of_not_guard (by
    rw [Bool.eq_false_iff, ne_eq, guard_mark_iff, within]
    exact unblocked)]
  by_cases invalid : packet.conntrack = .invalid
  · have fate : (config.printed stray).internetFate packet packetClass = some .drop := by
      simp [Config.internetFate, invalid]
    rw [fate]
    exact evalRules_cons_of_decide ((invalidGuard _).trans (decide_eq_true invalid)) rfl
  rw [evalRules_cons_of_not_guard ((invalidGuard _).trans (decide_eq_false invalid)),
    evalRules_mssRules]
  simp only [Config.internetFate, if_neg invalid]
  cases packetClass with
  | blocked => exact absurd rfl blocked
  | trusted => exact evalRules_classEntry stray within trusted _
  | authenticated =>
      rw [evalRules_classEntry_of_ne _ _ within marks.trusted_ne_authenticated.symm]
      exact evalRules_classEntry stray within authenticated _
  | preauthenticated =>
      rw [evalRules_classEntry_of_ne _ _ within marks.trusted_ne_zero.symm,
        evalRules_classEntry_of_ne _ _ within marks.authenticated_ne_zero.symm]
      exact evalRules_preauthenticated stray config _

end

/-! ## The firewall that `iptables_fw_init` builds -/

section

variable {config : Config} {firewall : Firewall} {traffic : TrafficControl}

theorem traverse_toInternet (succeeded : (iptablesFwInit config firewall traffic).1 = 0)
    (packet : Packet) (packetClass : PacketClass) :
    (iptablesFwInit config firewall traffic).2.1.tables.traverse .filter packet .toInternet
        (packetClass.mark config.marks) =
      fateOutcome (packetClass.mark config.marks)
        ((config.printed firewall.kernel.stray).internetFate packet packetClass) := by
  rcases iptablesFwInit_initialized succeeded with ⟨before, initialized⟩
  rcases Option.isSome_iff_exists.mp
    (config.marks.accept_isSome_iff.mpr initialized.marks) with ⟨accepted, found⟩
  have marks : accepted.toMarks = config.marks := Marks.accept_toMarks found
  have masked := initialized.markmask_cases
  have rules (name : Chain) : evalChain (filterSemantics packet)
      ((iptablesFwInit config firewall traffic).2.1.tables.rules .filter) 1 name =
        evalRules (filterSemantics packet) (evalChain (filterSemantics packet)
          ((iptablesFwInit config firewall traffic).2.1.tables.rules .filter) 0)
          ((iptablesFwInit config firewall traffic).2.1.tables.rules .filter name) := rfl
  rw [Tables.traverse, evalChain, initialized.rules_toInternet, ← marks]
  rw [← marks] at masked
  apply evalRules_toInternetRules _ _ masked packetClass
  · rw [rules, initialized.rules_filter commandsOn_trustedUsers]
  · rw [rules, initialized.rules_filter commandsOn_authenticatedUsers]

/-- The rulesets for the traffic to the internet. -/
def internetRulesets : List RulesetName :=
  [.trustedUsers, .authenticatedUsers, .preauthenticatedUsers]

def Packet.asNew (packet : Packet) : Packet := { packet with conntrack := .new }

theorem rulesetVerdict_asNew (rules : List FirewallRule) (packet : Packet) :
    rulesetVerdict rules packet.asNew = rulesetVerdict rules packet := rfl

theorem rulesetFate_eq_iff (one other : Config) (ruleset : RulesetName)
    (policy : one.getEmptyRulesetPolicy ruleset = other.getEmptyRulesetPolicy ruleset)
    (empty : one.isEmptyRuleset ruleset = other.isEmptyRuleset ruleset) (connected : Bool) :
    (∀ packet : Packet, packet.conntrack ≠ .invalid →
        one.rulesetFate ruleset connected packet = other.rulesetFate ruleset connected packet) ↔
      ∀ packet, rulesetVerdict (one.getRulesetList ruleset) packet =
        rulesetVerdict (other.getRulesetList ruleset) packet := by
  simp only [Config.rulesetFate, policy, ← empty]
  cases nonempty : one.isEmptyRuleset ruleset with
  | true =>
      have rules : one.getRulesetList ruleset = other.getRulesetList ruleset := by
        rw [List.isEmpty_iff.mp nonempty, List.isEmpty_iff.mp (empty.symm.trans nonempty)]
      simp [rules]
  | false =>
      simp only [Bool.false_eq_true, if_false]
      constructor
      · intro same packet
        have fate := same packet.asNew Conntrack.noConfusion
        have unconnected : packet.asNew.isConnected = false := rfl
        simpa only [unconnected, Bool.and_false, Bool.false_eq_true, if_false,
          rulesetVerdict_asNew, Option.some.injEq] using fate
      · intro same packet _
        rw [same packet]

/-- After a successful initialization `ndsNET` gives every packet of every class
the fate the configuration says, if and only if each ruleset decides as it is
written after its texts have been taken for formats. -/
theorem rulesets_implemented_iff (succeeded : (iptablesFwInit config firewall traffic).1 = 0) :
    (∀ (packet : Packet) (packetClass : PacketClass),
      (iptablesFwInit config firewall traffic).2.1.tables.traverse .filter packet .toInternet
          (packetClass.mark config.marks) =
        fateOutcome (packetClass.mark config.marks) (config.internetFate packet packetClass)) ↔
      ∀ ruleset ∈ internetRulesets, ∀ packet,
        rulesetVerdict ((config.getRulesetList ruleset).map
          (FirewallRule.printed firewall.kernel.stray)) packet =
        rulesetVerdict (config.getRulesetList ruleset) packet := by
  have fates (ruleset : RulesetName) (connected : Bool) :=
    rulesetFate_eq_iff (config.printed firewall.kernel.stray) config ruleset rfl
      (isEmptyRuleset_printed _ _ _) connected
  constructor
  · intro implemented ruleset member
    have same (packetClass : PacketClass) (packet : Packet) :=
      fateOutcome_injective _
        ((traverse_toInternet succeeded packet packetClass).symm.trans
          (implemented packet packetClass))
    simp only [internetRulesets, List.mem_cons, List.not_mem_nil, or_false] at member
    rcases member with rfl | rfl | rfl
    · apply (fates .trustedUsers true).mp
      intro packet valid
      have fate := same .trusted packet
      simpa only [Config.internetFate, if_neg valid] using fate
    · apply (fates .authenticatedUsers true).mp
      intro packet valid
      have fate := same .authenticated packet
      simpa only [Config.internetFate, if_neg valid] using fate
    · apply (fates .preauthenticatedUsers false).mp
      intro packet valid
      have fate := same .preauthenticated packet
      simpa only [Config.internetFate, if_neg valid] using fate
  · intro same packet packetClass
    rw [traverse_toInternet succeeded]
    by_cases invalid : packet.conntrack = .invalid
    · simp only [Config.internetFate, if_pos invalid]
    simp only [Config.internetFate, if_neg invalid]
    cases packetClass with
    | blocked => rfl
    | trusted => rw [(fates .trustedUsers true).mpr (same _ (by simp [internetRulesets])) _ invalid]
    | authenticated =>
        rw [(fates .authenticatedUsers true).mpr (same _ (by simp [internetRulesets])) _ invalid]
    | preauthenticated =>
        rw [(fates .preauthenticatedUsers false).mpr (same _ (by simp [internetRulesets])) _
          invalid]

theorem rulesetVerdict_printed_of_plain (stray : String → String) {rules : List FirewallRule}
    (plain : ∀ rule ∈ rules, ∀ word ∈ rule.words, '%' ∉ word.toList) (packet : Packet) :
    rulesetVerdict (rules.map (FirewallRule.printed stray)) packet =
      rulesetVerdict rules packet := by
  have same : rules.map (FirewallRule.printed stray) = rules.map id :=
    List.map_congr_left fun rule member => FirewallRule.printed_of_plain stray (plain rule member)
  rw [same, List.map_id]

end

/-- The defaults, with one rule for authenticated users. -/
def ipsetConfig (set : String) : Config :=
  { defaultConfig with
    rulesets := fun name =>
      match name with
      | .authenticatedUsers => ⟨.passthrough, [⟨.accept, none, none, none, some set⟩]⟩
      | other => defaultConfig.rulesets other }

/-- The firewall that `iptables_fw_init` builds for it on a system without
rules. -/
def ipsetInit (set : String) : BitVec 32 × Firewall × TrafficControl :=
  iptablesFwInit (ipsetConfig set) defaultEnvironment.firewall ⟨fun _ => 0, []⟩

theorem rulesets_implemented_iff_plain :
    (∀ (packet : Packet) (packetClass : PacketClass),
      (ipsetInit "allowed").2.1.tables.traverse .filter packet .toInternet
          (packetClass.mark (ipsetConfig "allowed").marks) =
        fateOutcome (packetClass.mark (ipsetConfig "allowed").marks)
          ((ipsetConfig "allowed").internetFate packet packetClass)) ↔
      ∀ ruleset ∈ internetRulesets, ∀ packet,
        rulesetVerdict (((ipsetConfig "allowed").getRulesetList ruleset).map
          (FirewallRule.printed willingKernel.stray)) packet =
        rulesetVerdict ((ipsetConfig "allowed").getRulesetList ruleset) packet :=
  rulesets_implemented_iff (by decide +kernel)

/-- A packet of a new connection to an address in one set. -/
def packetToSet (set : String) : Packet where
  inInterface := "br-lan"
  outInterface := ""
  sourceIn _ := true
  destinationIn _ := false
  macSource := [0x00, 0x16, 0x3e, 0x00, 0x00, 0x01]
  conntrack := .new
  protocolIs _ := false
  destinationPortIn _ := false
  synWithoutRst := false
  synWithoutMssOption := false
  inSet other := other = set

/-- The destinations of a set whose name contains two percent signs are not
those of the rule in the chain. -/
theorem allowed_set_rejected :
    (ipsetInit "a%%b").1 = 0 ∧
      (ipsetConfig "a%%b").internetFate (packetToSet "a%%b") .authenticated = some .accept ∧
      (ipsetInit "a%%b").2.1.tables.traverse .filter (packetToSet "a%%b") .toInternet
          (ipsetConfig "a%%b").fwMarkAuthenticated =
        .decided .reject (ipsetConfig "a%%b").fwMarkAuthenticated := by
  decide +kernel

end Nodogsplash
