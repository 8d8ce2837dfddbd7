import Nodogsplash.BlockedPackets

/-! # The rules of the allowed list

Where the mechanism only allows the MAC addresses of a list, `ndsBLK` has a rule
for each of them that leaves the chain, and behind these rules one that marks
all other packets as blocked. -/

namespace Nodogsplash

open RuleChain

theorem allowRule_of_sameAddress (left right : String) (same : SameAddress left right) :
    allowRule left = allowRule right := by
  rw [allowRule, allowRule, same]

namespace Gateway

/-- `ndsBLK` has the rules of the allowed list, and then the rule that marks. -/
def AllowedRulesAgree (gateway : Gateway) : Prop :=
  gateway.config.macmechanism = .allow →
    ∃ front, gateway.firewall.tables.rules .mangle .blocked =
        front ++ [⟨[], .mark gateway.firewall.markop gateway.marks.blocked⟩] ∧
      front.Perm (gateway.config.allowedmaclist.map allowRule)

theorem rules_insert {gateway : Gateway} (ready : gateway.Ready) {name : Chain}
    (member : name ∈ [Chain.outgoing, .incoming, .blocked, .trusted]) {rule : Rule}
    (supported : gateway.firewall.kernel.supports rule = true)
    (target : ∀ chain, rule.target ≠ .jump chain) :
    (iptablesDoCommand gateway.firewall (.insert .mangle name 1 rule)).2.tables.rules
        .mangle name = rule :: gateway.firewall.tables.rules .mangle name := by
  have hasTarget : gateway.firewall.tables.hasTarget .mangle rule = true := by
    rw [Tables.hasTarget]
    split
    · exact absurd ‹_› (target _)
    · rfl
  have present := ready.chains name member
  have applies : (gateway.firewall.tables.apply gateway.firewall.kernel
      (.insert .mangle name 1 rule)).isSome = true := by
    cases content : gateway.firewall.tables.chain .mangle name with
    | none => simp [content] at present
    | some entries => simp [Tables.apply, content, supported, hasTarget]
  rw [rules_iptablesDoCommand (iptablesDoCommand_of_applies (ready.exits _) applies)]
  simp [Command.effect, Command.place]

theorem AllowedRulesAgree.keeps {gateway next : Gateway} (agree : gateway.AllowedRulesAgree)
    (follows : gateway.Follows next)
    (allowed : next.config.allowedmaclist = gateway.config.allowedmaclist)
    (rules : next.firewall.tables.rules .mangle .blocked =
      gateway.firewall.tables.rules .mangle .blocked) : next.AllowedRulesAgree := by
  intro mechanism
  rw [follows.settings.macmechanism] at mechanism
  rw [rules, follows.firewall.markop, follows.marks, allowed]
  exact agree mechanism

theorem blocked_refused {config : Config} (mechanism : config.macmechanism = .allow)
    (mac : String) :
    (config.addToBlockedMacList mac).1 ≠ 0 ∧ (config.removeFromBlockedMacList mac).1 ≠ 0 := by
  constructor
  · rcases addToMacList_cases (-1) (by decide) (config.macmechanism = .block)
      config.blockedmaclist mac with ⟨_, enabled, _⟩ | ⟨refused, _⟩
    · simp [mechanism] at enabled
    · exact refused
  · rcases removeFromMacList_cases (config.macmechanism = .block)
      config.blockedmaclist mac with ⟨_, enabled, _⟩ | ⟨refused, _⟩
    · simp [mechanism] at enabled
    · exact refused

theorem AllowedRulesAgree.editMacs {gateway : Gateway} (agree : gateway.AllowedRulesAgree)
    (ready : gateway.Ready) (mac : String) (command : MacCommand) :
    (gateway.editMacs mac command).AllowedRulesAgree := by
  have follows := editMacs_follows gateway mac command
  intro mechanism
  rw [follows.settings.macmechanism] at mechanism
  rcases agree mechanism with ⟨front, rules, entries⟩
  rw [follows.firewall.markop, follows.marks]
  cases command with
  | trust | untrust =>
      refine ⟨front, (gateway.rules_editMacList_of_ne _ ?_).trans rules, entries⟩
      simp [Command.place]
  | block =>
      exact ⟨front, (rules_editMacList_refused (blocked_refused mechanism mac).1 _ _).trans rules,
        entries⟩
  | unblock =>
      exact ⟨front, (rules_editMacList_refused (blocked_refused mechanism mac).2 _ _).trans rules,
        entries⟩
  | allow =>
      simp only [Gateway.editMacs, authClientAllow, Config.addToAllowedMacList]
      rcases addToMacList_cases (-1) (by decide) (gateway.config.macmechanism = .allow)
        gateway.config.allowedmaclist mac with ⟨equal, _, valid, _⟩ | ⟨refused, equal⟩
      · have supported : gateway.firewall.kernel.supports (allowRule mac) = true := by
          rw [checkMacFormat] at valid
          simp [allowRule, Kernel.supports, Target.supported, Match.supported, valid]
        rw [equal]
        simp only [editMacList, if_true, iptablesAllowMac]
        rw [rules_insert ready (by decide) supported (fun _ equal => by cases equal), rules]
        refine ⟨allowRule mac :: front, rfl, ?_⟩
        rw [List.map_cons, allowRule_of_sameAddress _ _ (sameAddress_scanMac valid)]
        exact entries.cons _
      · simp only [editMacList, if_neg refused, equal]
        exact ⟨front, rules, entries⟩
  | unallow =>
      simp only [Gateway.editMacs, authClientUnallow, Config.removeFromAllowedMacList]
      rcases removeFromMacList_cases (gateway.config.macmechanism = .allow)
        gateway.config.allowedmaclist mac with ⟨equal, _, valid, present⟩ | ⟨refused, equal⟩
      · rw [← List.append_nil (List.map _ _)] at entries
        have removed := perm_of_removed allowRule_of_sameAddress entries valid present
        have inRules : allowRule mac ∈ gateway.firewall.tables.rules .mangle .blocked := by
          rw [rules]
          exact List.mem_append_left _ removed.1
        rw [equal]
        simp only [editMacList, if_true, iptablesUnallowMac]
        rw [rules_delete ready inRules, rules, List.erase_append_left _ removed.1]
        refine ⟨_, rfl, ?_⟩
        simpa using removed.2
      · simp only [editMacList, if_neg refused, equal]
        exact ⟨front, rules, entries⟩

theorem AllowedRulesAgree.leaveBlocked {gateway : Gateway} (agree : gateway.AllowedRulesAgree)
    (ready : gateway.Ready) (node : Node) (reason : Option String) :
    (gateway.leaveBlocked node reason).AllowedRulesAgree := by
  have deauthenticated := iptablesFwDeauthenticate_follows gateway node.client
  have middleReady : (gateway.iptablesFwDeauthenticate node.client).2.Ready := by
    refine ⟨?_, ?_, ?_, ready.macs⟩
    · rw [deauthenticated.kernel]
      exact ready.exits
    · exact fun name member => deauthenticated.chains .mangle name (ready.chains name member)
    · rw [deauthenticated.kernel, deauthenticated.markop]
      exact ready.markop
  have middle := agree.keeps ⟨deauthenticated, .refl _, rfl⟩ rfl
    (rules_iptablesFwDeauthenticate_of_mac gateway node.client .blocked (by decide))
  have edited := middle.editMacs middleReady node.client.mac .block
  intro mechanism
  rw [leaveBlocked_firewall, leaveBlocked_marks, leaveBlocked_config]
  rw [leaveBlocked_config] at mechanism
  exact edited mechanism

theorem AllowedRulesAgree.transition {permits : Permissions} {gateway next : Gateway}
    (agree : gateway.AllowedRulesAgree) (ready : gateway.Ready)
    (transition : Transition permits gateway next) : next.AllowedRulesAgree := by
  rcases transition.mac_cases with ⟨config, rules⟩ | ⟨node, reason, rfl⟩ | ⟨mac, command, rfl⟩
  · exact agree.keeps transition.follows (by rw [config]) (rules .blocked (by decide))
  · exact agree.leaveBlocked ready node reason
  · exact agree.editMacs ready mac command

theorem AllowedRulesAgree.transitions {permits : Permissions} {gateway next : Gateway}
    (agree : gateway.AllowedRulesAgree) (ready : gateway.Ready)
    (transitions : Transitions permits gateway next) : next.AllowedRulesAgree := by
  induction transitions with
  | refl => exact agree
  | tail first transition induction =>
      exact induction.transition (ready.transitions first) transition

theorem Fresh.allowedRulesAgree {gateway : Gateway} {kernel : Kernel}
    (fresh : gateway.Fresh kernel) : gateway.AllowedRulesAgree := by
  rcases fresh.initialized with ⟨destroyed, before, _, initialized⟩
  intro mechanism
  refine ⟨(gateway.config.allowedmaclist.map allowRule).reverse, ?_, List.reverse_perm _⟩
  have rules := initialized.rules .mangle .blocked
  rw [commandsOn_initCommands_mangle, commandsOn_blocked_of_allow _ _ _ mechanism,
    List.foldl_cons, List.foldl_cons, foldl_effect_insert] at rules
  rw [rules, initialized.markop, fresh.marks]
  simp [Command.effect, Command.place]

theorem allowedRulesAgree_of_run {environment : Environment} {initial final : Gateway}
    {events : List (Int × Event)} (exits : ∀ number, environment.kernel.exitCode number = 0)
    (started : mainLoop environment = some initial) (run : DaemonRun initial events final) :
    final.AllowedRulesAgree := by
  have ready := (rulesAgree_of_started exits started).2
  have start : initial.AllowedRulesAgree := by
    rcases mainLoop_cases started with ⟨first, _, fresh, ⟨_, rfl⟩ | ⟨_, recovered, _⟩⟩
    · exact fresh.allowedRulesAgree.transitions (fresh.ready exits)
        (stateFileImport_transitions first environment.stateFile)
    · exact recovered.allowedRulesAgree
  exact start.transitions ready (run_transitions run)

theorem evalRules_allowed {gateway : Gateway} (agree : gateway.AllowedRulesAgree)
    (mechanism : gateway.config.macmechanism = .allow) (packet : Packet)
    (call : Chain → BitVec 32 → Outcome (BitVec 32) Verdict) (packetMark : BitVec 32) :
    evalRules (filterSemantics packet) call (gateway.firewall.tables.rules .mangle .blocked)
        packetMark =
      if Lists gateway.config.allowedmaclist packet.macSource then .left packetMark
      else .finished (gateway.firewall.markop.apply gateway.marks.blocked packetMark) := by
  rcases agree mechanism with ⟨front, rules, entries⟩
  have member (rule : Rule) : rule ∈ front ↔
      ∃ mac ∈ gateway.config.allowedmaclist, rule = allowRule mac := by
    rw [entries.mem_iff, List.mem_map]
    simp only [eq_comm]
  have actions : ∀ rule ∈ front, (filterSemantics packet).action rule = .leave := by
    intro rule inFront
    rcases (member rule).mp inFront with ⟨_, _, rfl⟩
    rfl
  have listed : front.any (fun rule => (filterSemantics packet).guard rule packetMark) =
      decide (Lists gateway.config.allowedmaclist packet.macSource) := by
    rw [Bool.eq_iff_iff, List.any_eq_true, decide_eq_true_iff]
    constructor
    · rintro ⟨rule, inFront, holds⟩
      rcases (member rule).mp inFront with ⟨mac, inList, rfl⟩
      exact ⟨mac, inList, by
        simpa [filterSemantics, Rule.holds, allowRule, Match.holds] using holds⟩
    · rintro ⟨mac, inList, equal⟩
      exact ⟨_, (member _).mpr ⟨mac, inList, rfl⟩, by
        simp [filterSemantics, Rule.holds, allowRule, Match.holds, equal]⟩
  rw [rules, evalRules_append_of_leave actions, listed]
  by_cases allowed : Lists gateway.config.allowedmaclist packet.macSource
  · simp [allowed]
  · simp only [allowed, decide_false, Bool.false_eq_true, if_false]
    rfl

end Gateway

end Nodogsplash
