import Nodogsplash.AuthenticationRules
import Nodogsplash.EtherAddress

/-! # The rules of the MAC lists

`ndsBLK` and `ndsTRU` hold one rule for every entry of the blocked and the
trusted list. Lists and chains are edited by separate functions, which are told
the same text. -/

namespace Nodogsplash

/-! ## One list and its rules -/

section

variable {ruleOf : String → Rule} {list : List String} {rules others : List Rule}

theorem perm_of_added (sameRule : ∀ left right, SameAddress left right → ruleOf left = ruleOf right)
    (agree : rules.Perm (list.map ruleOf ++ others)) {text : String}
    (valid : checkMacFormat text = true) :
    (rules ++ [ruleOf text]).Perm ((scanMac text :: list).map ruleOf ++ others) := by
  rw [List.map_cons, sameRule _ _ (sameAddress_scanMac valid)]
  exact List.perm_append_comm.trans (agree.cons _)

theorem perm_of_removed
    (sameRule : ∀ left right, SameAddress left right → ruleOf left = ruleOf right)
    (agree : rules.Perm (list.map ruleOf ++ others)) {text : String}
    (valid : checkMacFormat text = true)
    (present : list.any (sameIgnoringCase · (scanMac text)) = true) :
    ruleOf text ∈ rules ∧
      (rules.erase (ruleOf text)).Perm
        ((list.eraseP (sameIgnoringCase · (scanMac text))).map ruleOf ++ others) := by
  rcases List.any_eq_true.mp present with ⟨_, inList, same⟩
  rcases List.exists_of_eraseP (p := (sameIgnoringCase · (scanMac text))) inList same with
    ⟨entry, before, after, _, found, split, erased⟩
  have equal : ruleOf entry = ruleOf text :=
    (sameRule _ _ (.of_sameIgnoringCase found)).trans (sameRule _ _ (sameAddress_scanMac valid))
  rw [split, List.map_append, List.map_cons, equal, List.append_assoc, List.cons_append] at agree
  have moved := agree.trans List.perm_middle
  refine ⟨moved.mem_iff.mpr List.mem_cons_self, ?_⟩
  rw [erased, List.map_append, List.append_assoc]
  have rest := moved.erase (ruleOf text)
  rwa [List.erase_cons_head] at rest

end

theorem blockRule_of_sameAddress (markop : MarkOp) (marks : Marks) (left right : String)
    (same : SameAddress left right) :
    blockRule markop marks left = blockRule markop marks right := by
  rw [blockRule, blockRule, same]

theorem trustRule_of_sameAddress (markop : MarkOp) (marks : Marks) (left right : String)
    (same : SameAddress left right) :
    trustRule markop marks left = trustRule markop marks right := by
  rw [trustRule, trustRule, same]

namespace Gateway

/-! ## One command -/

theorem rules_append {gateway : Gateway} (ready : gateway.Ready) {name : Chain}
    (member : name ∈ [Chain.outgoing, .incoming, .blocked, .trusted]) {rule : Rule}
    (supported : gateway.firewall.kernel.supports rule = true)
    (target : ∀ chain, rule.target ≠ .jump chain) :
    (iptablesDoCommand gateway.firewall (.append .mangle name rule)).2.tables.rules .mangle name =
      gateway.firewall.tables.rules .mangle name ++ [rule] := by
  have hasTarget : gateway.firewall.tables.hasTarget .mangle rule = true := by
    rw [Tables.hasTarget]
    split
    · exact absurd ‹_› (target _)
    · rfl
  have succeeded := iptablesDoCommand_of_applies (ready.exits _)
    (Tables.apply_append_isSome (ready.chains name member) supported hasTarget)
  rw [rules_iptablesDoCommand succeeded]
  simp [Command.effect, Command.place]

theorem rules_delete {gateway : Gateway} (ready : gateway.Ready) {name : Chain} {rule : Rule}
    (present : rule ∈ gateway.firewall.tables.rules .mangle name) :
    (iptablesDoCommand gateway.firewall (.delete .mangle name rule)).2.tables.rules .mangle name =
      (gateway.firewall.tables.rules .mangle name).erase rule := by
  have succeeded := iptablesDoCommand_of_applies (ready.exits _)
    (Tables.apply_delete_isSome gateway.firewall.kernel present)
  rw [rules_iptablesDoCommand succeeded]
  simp [Command.effect, Command.place]

theorem Ready.supports_mark {gateway : Gateway} (ready : gateway.Ready) {mac : String}
    (valid : checkMacFormat mac = true) (mark : BitVec 32) :
    gateway.firewall.kernel.supports
      ⟨[.macSource (etherAton mac)], .mark gateway.firewall.markop mark⟩ = true := by
  rw [checkMacFormat] at valid
  simp [Kernel.supports, Target.supported, Match.supported, ready.supports, valid]

/-! ## Lists and chains -/

/-- The chains hold the rules of the lists; `ndsBLK` does so only where the
mechanism blocks MAC addresses. -/
structure MacRulesAgree (gateway : Gateway) : Prop where
  blocked : gateway.config.macmechanism = .block →
    (gateway.firewall.tables.rules .mangle .blocked).Perm
      (gateway.config.blockedmaclist.map
        (blockRule gateway.firewall.markop gateway.marks.toMarks))
  trusted : (gateway.firewall.tables.rules .mangle .trusted).Perm
    (gateway.config.trustedmaclist.map
      (trustRule gateway.firewall.markop gateway.marks.toMarks))

theorem rules_editMacList_added {gateway : Gateway} (ready : gateway.Ready) {name : Chain}
    (member : name ∈ [Chain.outgoing, .incoming, .blocked, .trusted]) {invalid : Int}
    (nonzero : invalid ≠ 0) {enabled : Bool} {list : List String} {text : String}
    {ruleOf : String → Rule}
    (sameRule : ∀ left right, SameAddress left right → ruleOf left = ruleOf right)
    (supported : ∀ mac, checkMacFormat mac = true →
      gateway.firewall.kernel.supports (ruleOf mac) = true)
    (target : ∀ mac chain, (ruleOf mac).target ≠ .jump chain)
    (agree : (gateway.firewall.tables.rules .mangle name).Perm (list.map ruleOf))
    (config : Config) :
    ((gateway.editMacList ((addToMacList invalid enabled list text).1, config) fun firewall =>
        iptablesDoCommand firewall (.append .mangle name (ruleOf text))).2.firewall.tables.rules
          .mangle name).Perm ((addToMacList invalid enabled list text).2.map ruleOf) := by
  rcases addToMacList_cases invalid nonzero enabled list text with
    ⟨equal, _, valid, _⟩ | ⟨refused, equal⟩
  · rw [equal]
    simp only [editMacList, if_true]
    rw [rules_append ready member (supported text valid) (target text)]
    rw [← List.append_nil (List.map _ _)] at agree ⊢
    exact perm_of_added sameRule agree valid
  · simp only [editMacList, if_neg refused, equal]
    exact agree

theorem rules_editMacList_removed {gateway : Gateway} (ready : gateway.Ready) {name : Chain}
    {enabled : Bool} {list : List String} {text : String} {ruleOf : String → Rule}
    (sameRule : ∀ left right, SameAddress left right → ruleOf left = ruleOf right)
    (agree : (gateway.firewall.tables.rules .mangle name).Perm (list.map ruleOf))
    (config : Config) :
    ((gateway.editMacList ((removeFromMacList enabled list text).1, config) fun firewall =>
        iptablesDoCommand firewall (.delete .mangle name (ruleOf text))).2.firewall.tables.rules
          .mangle name).Perm ((removeFromMacList enabled list text).2.map ruleOf) := by
  rcases removeFromMacList_cases enabled list text with
    ⟨equal, _, valid, present⟩ | ⟨refused, equal⟩
  · rw [← List.append_nil (List.map _ _)] at agree ⊢
    have removed := perm_of_removed sameRule agree valid present
    rw [equal]
    simp only [editMacList, if_true]
    rw [rules_delete ready removed.1]
    exact removed.2
  · simp only [editMacList, if_neg refused, equal]
    exact agree

theorem rules_editMacList_of_ne (gateway : Gateway) (edited : Int × Config) {command : Command}
    {name : Chain} (different : command.place ≠ (.mangle, name)) :
    (gateway.editMacList edited fun firewall =>
        iptablesDoCommand firewall command).2.firewall.tables.rules .mangle name =
      gateway.firewall.tables.rules .mangle name := by
  apply Tables.rules_eq_of_chain_eq
  simp only [editMacList]
  split
  · exact chain_iptablesDoCommand_of_ne _ different
  · rfl

/-- Where the mechanism blocks MAC addresses, the commands for the allowed list
do nothing. -/
theorem rules_editMacList_refused {gateway : Gateway} {edited : Int × Config}
    (refused : edited.1 ≠ 0) (command : Firewall → BitVec 32 × Firewall) (name : Chain) :
    (gateway.editMacList edited command).2.firewall.tables.rules .mangle name =
      gateway.firewall.tables.rules .mangle name := by
  simp only [editMacList, if_neg refused]

theorem MacRulesAgree.editMacs {gateway : Gateway} (agree : gateway.MacRulesAgree)
    (ready : gateway.Ready) (mac : String) (command : MacCommand) :
    (gateway.editMacs mac command).MacRulesAgree := by
  have follows := editMacs_follows gateway mac command
  have blockSame := blockRule_of_sameAddress gateway.firewall.markop gateway.marks.toMarks
  have trustSame := trustRule_of_sameAddress gateway.firewall.markop gateway.marks.toMarks
  constructor
  · intro mechanism
    rw [follows.settings.macmechanism] at mechanism
    have held := agree.blocked mechanism
    rw [follows.firewall.markop, follows.marks]
    cases command with
    | trust | untrust =>
        refine (List.Perm.of_eq (gateway.rules_editMacList_of_ne _ ?_)).trans held
        simp [Command.place]
    | allow =>
        have refused : (gateway.config.addToAllowedMacList mac).1 ≠ 0 := by
          rcases addToMacList_cases (-1) (by decide) (gateway.config.macmechanism = .allow)
            gateway.config.allowedmaclist mac with ⟨_, enabled, _⟩ | ⟨refused, _⟩
          · simp [mechanism] at enabled
          · exact refused
        exact (List.Perm.of_eq (rules_editMacList_refused refused _ _)).trans held
    | unallow =>
        have refused : (gateway.config.removeFromAllowedMacList mac).1 ≠ 0 := by
          rcases removeFromMacList_cases (gateway.config.macmechanism = .allow)
            gateway.config.allowedmaclist mac with ⟨_, enabled, _⟩ | ⟨refused, _⟩
          · simp [mechanism] at enabled
          · exact refused
        exact (List.Perm.of_eq (rules_editMacList_refused refused _ _)).trans held
    | block =>
        exact rules_editMacList_added ready (by decide) (by decide) blockSame
          (fun mac valid => ready.supports_mark valid _) (fun _ _ equal => by cases equal) held _
    | unblock => exact rules_editMacList_removed ready blockSame held _
  · rw [follows.firewall.markop, follows.marks]
    cases command with
    | trust =>
        exact rules_editMacList_added ready (by decide) (by decide) trustSame
          (fun mac valid => ready.supports_mark valid _) (fun _ _ equal => by cases equal)
          agree.trusted _
    | untrust => exact rules_editMacList_removed ready trustSame agree.trusted _
    | allow | unallow | block | unblock =>
        refine (List.Perm.of_eq (gateway.rules_editMacList_of_ne _ ?_)).trans agree.trusted
        simp [Command.place]

/-! ## Transitions -/

theorem MacRulesAgree.keeps {gateway next : Gateway} (agree : gateway.MacRulesAgree)
    (follows : gateway.Follows next) (config : next.config = gateway.config)
    (rules : ∀ name ∈ [Chain.blocked, .trusted], next.firewall.tables.rules .mangle name =
      gateway.firewall.tables.rules .mangle name) : next.MacRulesAgree where
  blocked := by
    rw [config, follows.firewall.markop, follows.marks, rules .blocked (by decide)]
    exact agree.blocked
  trusted := by
    rw [config, follows.firewall.markop, follows.marks, rules .trusted (by decide)]
    exact agree.trusted

theorem rules_iptablesDoCommands_of_mac {firewall : Firewall} {commands : List Command}
    (places : ∀ command ∈ commands,
      command.place = (.mangle, .outgoing) ∨ command.place = (.mangle, .incoming)) :
    ∀ name ∈ [Chain.blocked, .trusted],
      (iptablesDoCommands firewall commands).2.tables.rules .mangle name =
        firewall.tables.rules .mangle name := by
  intro name member
  apply Tables.rules_eq_of_chain_eq
  apply chain_iptablesDoCommands_of_ne
  intro command inCommands
  simp only [List.mem_cons, List.not_mem_nil, or_false] at member
  rcases places command inCommands with place | place
  · rw [place]
    rcases member with rfl | rfl <;> simp
  · rw [place]
    rcases member with rfl | rfl <;> simp

theorem rules_iptablesFwAuthenticate_of_mac (gateway : Gateway) (client : Client) :
    ∀ name ∈ [Chain.blocked, .trusted],
      (gateway.iptablesFwAuthenticate client).2.firewall.tables.rules .mangle name =
        gateway.firewall.tables.rules .mangle name := by
  rw [iptablesFwAuthenticate_firewall]
  apply rules_iptablesDoCommands_of_mac
  simp [incomingRules, Command.place]

theorem rules_iptablesFwDeauthenticate_of_mac (gateway : Gateway) (client : Client) :
    ∀ name ∈ [Chain.blocked, .trusted],
      (gateway.iptablesFwDeauthenticate client).2.firewall.tables.rules .mangle name =
        gateway.firewall.tables.rules .mangle name := by
  rw [iptablesFwDeauthenticate_firewall]
  apply rules_iptablesDoCommands_of_mac
  simp [incomingRules, Command.place]

/-- A transition leaves the MAC lists and their chains alone, ends a session with a
block or edits a list. -/
theorem Transition.mac_cases {permits : Permissions} {gateway next : Gateway}
    (transition : Transition permits gateway next) :
    (next.config = gateway.config ∧ ∀ name ∈ [Chain.blocked, .trusted],
      next.firewall.tables.rules .mangle name = gateway.firewall.tables.rules .mangle name) ∨
    (∃ node reason, next = gateway.leaveBlocked node reason) ∨
    ∃ mac command, next = gateway.editMacs mac command := by
  cases transition with
  | clock | authentications | delete | count | assign => exact .inl ⟨rfl, fun _ _ => rfl⟩
  | bytes table chain number bytes =>
      exact .inl ⟨rfl, fun name _ => rules_countBytes gateway table chain number bytes _ name⟩
  | add _ _ _ added =>
      rcases clientListAppend_eq added with ⟨_, _, rfl⟩
      exact .inl ⟨rfl, fun _ _ => rfl⟩
  | @authenticate node reason _ _ =>
      left
      rw [enterAuthenticated_config, enterAuthenticated_firewall]
      exact ⟨rfl, rules_iptablesFwAuthenticate_of_mac gateway node.client⟩
  | @deauthenticate node reason _ _ =>
      left
      rw [leaveAuthenticated_config, leaveAuthenticated_firewall]
      exact ⟨rfl, rules_iptablesFwDeauthenticate_of_mac gateway node.client⟩
  | @block node reason _ _ => exact .inr (.inl ⟨node, reason, rfl⟩)
  | editMacs mac command => exact .inr (.inr ⟨mac, command, rfl⟩)

/-- A session that ends with a block edits the blocked list after the rules of
the client are gone. -/
theorem MacRulesAgree.leaveBlocked {gateway : Gateway} (agree : gateway.MacRulesAgree)
    (ready : gateway.Ready) (node : Node) (reason : Option String) :
    (gateway.leaveBlocked node reason).MacRulesAgree := by
  have deauthenticated := iptablesFwDeauthenticate_follows gateway node.client
  have middleFollows : gateway.Follows (gateway.iptablesFwDeauthenticate node.client).2 :=
    ⟨deauthenticated, .refl _, rfl⟩
  have middleReady : (gateway.iptablesFwDeauthenticate node.client).2.Ready := by
    refine ⟨?_, ?_, ?_, ready.macs⟩
    · rw [deauthenticated.kernel]
      exact ready.exits
    · exact fun name member => deauthenticated.chains .mangle name (ready.chains name member)
    · rw [deauthenticated.kernel, deauthenticated.markop]
      exact ready.markop
  have middle := agree.keeps middleFollows rfl
    (rules_iptablesFwDeauthenticate_of_mac gateway node.client)
  have edited := middle.editMacs middleReady node.client.mac .block
  constructor
  · rw [leaveBlocked_firewall, leaveBlocked_config, leaveBlocked_marks]
    exact fun mechanism => edited.blocked mechanism
  · rw [leaveBlocked_firewall, leaveBlocked_config, leaveBlocked_marks]
    exact edited.trusted

theorem MacRulesAgree.transition {permits : Permissions} {gateway next : Gateway}
    (agree : gateway.MacRulesAgree) (ready : gateway.Ready)
    (transition : Transition permits gateway next) : next.MacRulesAgree := by
  rcases transition.mac_cases with ⟨config, rules⟩ | ⟨node, reason, rfl⟩ | ⟨mac, command, rfl⟩
  · exact agree.keeps transition.follows config rules
  · exact agree.leaveBlocked ready node reason
  · exact agree.editMacs ready mac command

theorem MacRulesAgree.transitions {permits : Permissions} {gateway next : Gateway}
    (agree : gateway.MacRulesAgree) (ready : gateway.Ready)
    (transitions : Transitions permits gateway next) : next.MacRulesAgree := by
  induction transitions with
  | refl => exact agree
  | tail first transition induction =>
      exact induction.transition (ready.transitions first) transition

theorem Fresh.macRulesAgree {gateway : Gateway} {kernel : Kernel} (fresh : gateway.Fresh kernel) :
    gateway.MacRulesAgree := by
  rcases fresh.initialized with ⟨destroyed, before, _, initialized⟩
  constructor
  · intro mechanism
    refine List.Perm.of_eq (initialized.rules_of_created ?_)
    rw [commandsOn_initCommands_mangle, commandsOn_blocked _ _ _ mechanism, fresh.marks,
      initialized.markop]
  · refine List.Perm.of_eq (initialized.rules_of_created ?_)
    rw [commandsOn_initCommands_mangle, commandsOn_trusted, fresh.marks, initialized.markop]

theorem macRulesAgree_of_run {environment : Environment} {initial final : Gateway}
    {events : List (Int × Event)} (exits : ∀ number, environment.kernel.exitCode number = 0)
    (started : mainLoop environment = some initial) (run : DaemonRun initial events final) :
    final.MacRulesAgree := by
  have ready := (rulesAgree_of_started exits started).2
  have start : initial.MacRulesAgree := by
    rcases mainLoop_cases started with ⟨first, _, fresh, ⟨_, rfl⟩ | ⟨_, recovered, _⟩⟩
    · exact fresh.macRulesAgree.transitions (fresh.ready exits)
        (stateFileImport_transitions first environment.stateFile)
    · exact recovered.macRulesAgree
  exact start.transitions ready (run_transitions run)

end Gateway

end Nodogsplash
