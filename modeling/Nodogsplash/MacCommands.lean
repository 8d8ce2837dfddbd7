import Nodogsplash.MacLists
import Nodogsplash.MacRules

/-! # The commands for the MAC lists

Each of the six operations edits a list and then runs one iptables command. What
it returns, and what it leaves behind if the command fails. -/

namespace Nodogsplash

/-! ## Chains of the lists -/

namespace MacListName

/-- The mangle chain with the rules of a list. -/
def chain : MacListName → Chain
  | .trusted => .trusted
  | .blocked => .blocked
  | .allowed => .blocked

def ruleOf (markop : MarkOp) (marks : Marks) : MacListName → String → Rule
  | .trusted => trustRule markop marks
  | .blocked => blockRule markop marks
  | .allowed => allowRule

/-- The rules of the chain that are not those of entries: behind the allowed
entries, all packets are marked as blocked. -/
def otherRules (markop : MarkOp) (marks : Marks) : MacListName → List Rule
  | .trusted => []
  | .blocked => []
  | .allowed => [⟨[], .mark markop marks.blocked⟩]

theorem ruleOf_of_sameAddress (name : MacListName) (markop : MarkOp) (marks : Marks)
    (left right : String) (same : SameAddress left right) :
    name.ruleOf markop marks left = name.ruleOf markop marks right := by
  cases name with
  | trusted => exact trustRule_of_sameAddress markop marks left right same
  | blocked => exact blockRule_of_sameAddress markop marks left right same
  | allowed =>
      rw [SameAddress] at same
      simp only [ruleOf, allowRule, same]

theorem chain_injective {config : Config} {first second : MacListName}
    (firstEnabled : first.enabled config = true) (secondEnabled : second.enabled config = true)
    (same : first.chain = second.chain) : first = second := by
  cases first <;> cases second <;> simp_all [enabled, chain]

end MacListName

/-! ## Commands -/

namespace MacCommand

def list : MacCommand → MacListName
  | .trust => .trusted
  | .untrust => .trusted
  | .allow => .allowed
  | .unallow => .allowed
  | .block => .blocked
  | .unblock => .blocked

def adds : MacCommand → Bool
  | .trust => true
  | .untrust => false
  | .allow => true
  | .unallow => false
  | .block => true
  | .unblock => false

def edit (command : MacCommand) (config : Config) (mac : String) : Int × Config :=
  if command.adds then command.list.add config mac else command.list.remove config mac

/-- The iptables command that follows the edit. -/
def iptables (command : MacCommand) (markop : MarkOp) (marks : Marks) (mac : String) : Command :=
  let rule := command.list.ruleOf markop marks mac
  match command with
  | .trust | .block => .append .mangle command.list.chain rule
  | .allow => .insert .mangle command.list.chain 1 rule
  | .untrust | .unallow | .unblock => .delete .mangle command.list.chain rule

/-- The list operation is not refused: the text is a MAC address, the mechanism
enables the list, and the list lacks what is added or has what is removed. -/
def EditsList (command : MacCommand) (config : Config) (mac : String) : Prop :=
  checkMacFormat mac = true ∧ command.list.enabled config = true ∧
    (command.list.entries config).any (sameIgnoringCase · (scanMac mac)) = !command.adds

def editEntries (command : MacCommand) (mac : String) (entries : List String) : List String :=
  if command.adds then scanMac mac :: entries
  else entries.eraseP (sameIgnoringCase · (scanMac mac))

variable {command : MacCommand} {config : Config} {mac : String}

theorem edit_of_editsList (edits : command.EditsList config mac) :
    (command.edit config mac).1 = 0 ∧ ∀ name : MacListName,
      name.entries (command.edit config mac).2 =
        if name = command.list then command.editEntries mac (name.entries config)
        else name.entries config := by
  rcases edits with ⟨valid, enabled, present⟩
  cases adding : command.adds with
  | true =>
      have added : addToMacList command.list.invalid true (command.list.entries config) mac = _ :=
        addToMacList_of_valid valid command.list.invalid
      rw [adding, Bool.not_true] at present
      rw [present] at added
      simp only [edit, adding, if_true, editEntries]
      constructor
      · rw [MacListName.add_returns, enabled, added]
        rfl
      · intro name
        rw [MacListName.entries_add, enabled, added]
        split
        · next same => rw [same]; rfl
        · rfl
  | false =>
      have removed : removeFromMacList true (command.list.entries config) mac = _ :=
        removeFromMacList_of_valid valid
      rw [adding, Bool.not_false] at present
      rw [present] at removed
      simp only [edit, adding, editEntries]
      constructor
      · rw [if_neg (by decide), MacListName.remove_returns, enabled, removed]
        rfl
      · intro name
        rw [if_neg (by decide), MacListName.entries_remove, enabled, removed]
        split
        · next same => rw [same]; rfl
        · rfl

theorem add_config (name : MacListName)
    (kept : (addToMacList name.invalid (name.enabled config) (name.entries config) mac).2 =
      name.entries config) : (name.add config mac).2 = config := by
  cases name with
  | trusted => exact congrArg (fun list => { config with trustedmaclist := list }) kept
  | blocked => exact congrArg (fun list => { config with blockedmaclist := list }) kept
  | allowed => exact congrArg (fun list => { config with allowedmaclist := list }) kept

theorem remove_config (name : MacListName)
    (kept : (removeFromMacList (name.enabled config) (name.entries config) mac).2 =
      name.entries config) : (name.remove config mac).2 = config := by
  cases name with
  | trusted => exact congrArg (fun list => { config with trustedmaclist := list }) kept
  | blocked => exact congrArg (fun list => { config with blockedmaclist := list }) kept
  | allowed => exact congrArg (fun list => { config with allowedmaclist := list }) kept

theorem edit_of_refused (refused : ¬ command.EditsList config mac) :
    (command.edit config mac).1 ≠ 0 ∧ (command.edit config mac).2 = config := by
  cases adding : command.adds with
  | true =>
      simp only [edit, adding, if_true]
      rcases addToMacList_cases command.list.invalid command.list.invalid_ne_zero
          (command.list.enabled config) (command.list.entries config) mac with
        ⟨_, enabled, valid, absent⟩ | ⟨failed, kept⟩
      · exact absurd ⟨valid, enabled, by rw [adding, absent]; rfl⟩ refused
      · rw [MacListName.add_returns]
        exact ⟨failed, add_config _ kept⟩
  | false =>
      have removing : ¬ command.adds = true := by simp [adding]
      simp only [edit, if_neg removing]
      rcases removeFromMacList_cases (command.list.enabled config)
          (command.list.entries config) mac with
        ⟨_, enabled, valid, present⟩ | ⟨failed, kept⟩
      · exact absurd ⟨valid, enabled, by rw [adding, present]; rfl⟩ refused
      · rw [MacListName.remove_returns]
        exact ⟨failed, remove_config _ kept⟩

theorem editEntries_ne (edits : command.EditsList config mac) :
    command.editEntries mac (command.list.entries config) ≠ command.list.entries config := by
  intro same
  have lengths := congrArg List.length same
  rw [editEntries] at lengths
  split at lengths
  · rw [List.length_cons] at lengths
    omega
  · next removing =>
      rcases List.any_eq_true.mp (edits.2.2.trans (by simp [removing])) with
        ⟨entry, member, found⟩
      have shorter :=
        List.length_eraseP_of_mem (p := (sameIgnoringCase · (scanMac mac))) member found
      have positive := List.length_pos_of_mem member
      omega

theorem effect_perm (markop : MarkOp) (marks : Marks) (edits : command.EditsList config mac)
    {rules : List Rule}
    (agree : rules.Perm ((command.list.entries config).map (command.list.ruleOf markop marks) ++
      command.list.otherRules markop marks)) :
    ((command.iptables markop marks mac).effect .mangle command.list.chain rules).Perm
      ((command.editEntries mac (command.list.entries config)).map
          (command.list.ruleOf markop marks) ++ command.list.otherRules markop marks) := by
  have sameRule := command.list.ruleOf_of_sameAddress markop marks
  have added := perm_of_added sameRule agree edits.1
  cases command with
  | trust => simpa [iptables, Command.effect, Command.place, editEntries, adds] using added
  | block => simpa [iptables, Command.effect, Command.place, editEntries, adds] using added
  | allow =>
      have inserted := (List.perm_append_singleton _ _).symm.trans added
      simpa [iptables, Command.effect, Command.place, editEntries, adds] using inserted
  | untrust =>
      have removed := (perm_of_removed sameRule agree edits.1 edits.2.2).2
      simpa [iptables, Command.effect, Command.place, editEntries, adds] using removed
  | unallow =>
      have removed := (perm_of_removed sameRule agree edits.1 edits.2.2).2
      simpa [iptables, Command.effect, Command.place, editEntries, adds] using removed
  | unblock =>
      have removed := (perm_of_removed sameRule agree edits.1 edits.2.2).2
      simpa [iptables, Command.effect, Command.place, editEntries, adds] using removed

theorem place_iptables (command : MacCommand) (markop : MarkOp) (marks : Marks) (mac : String) :
    (command.iptables markop marks mac).place = (.mangle, command.list.chain) := by
  cases command <;> rfl

end MacCommand

/-! ## Operations -/

namespace Gateway

def macOperation (gateway : Gateway) (mac : String) : MacCommand → Int × Gateway
  | .trust => gateway.authClientTrust mac
  | .untrust => gateway.authClientUntrust mac
  | .allow => gateway.authClientAllow mac
  | .unallow => gateway.authClientUnallow mac
  | .block => gateway.authClientBlock mac
  | .unblock => gateway.authClientUnblock mac

def macIptables (gateway : Gateway) (mac : String) (command : MacCommand) : Command :=
  command.iptables gateway.firewall.markop gateway.marks.toMarks mac

/-- Where the list operation is not refused, iptables carries out its command. -/
def Commits (gateway : Gateway) (mac : String) (command : MacCommand) : Prop :=
  command.EditsList gateway.config mac →
    gateway.firewall.Accepts (gateway.macIptables mac command)

/-- An operation changes its list and its chain, or nothing. -/
structure Atomic (gateway : Gateway) (mac : String) (command : MacCommand) : Prop where
  failed : (gateway.macOperation mac command).1 ≠ 0 →
    (gateway.macOperation mac command).2.config = gateway.config ∧
      (gateway.macOperation mac command).2.firewall.tables = gateway.firewall.tables
  retried : (gateway.macOperation mac command).1 ≠ 0 → command.EditsList gateway.config mac →
    ∀ later : Firewall, later.Accepts (command.iptables later.markop gateway.marks.toMarks mac) →
      ({ (gateway.macOperation mac command).2 with firewall := later }.macOperation
        mac command).1 = 0
  succeeded : (gateway.macOperation mac command).1 = 0 →
    command.editEntries mac (command.list.entries gateway.config) ≠
        command.list.entries gateway.config ∧
      (∀ name : MacListName, name.entries (gateway.macOperation mac command).2.config =
        if name = command.list then command.editEntries mac (name.entries gateway.config)
        else name.entries gateway.config) ∧
      ∀ table chain, (gateway.macOperation mac command).2.firewall.tables.rules table chain =
        (gateway.macIptables mac command).effect table chain
          (gateway.firewall.tables.rules table chain)

section

variable (gateway : Gateway) (mac : String) (command : MacCommand)

theorem macOperation_eq : gateway.macOperation mac command =
    gateway.editMacList (command.edit gateway.config mac) fun firewall =>
      iptablesDoCommand firewall
        (command.iptables firewall.markop gateway.marks.toMarks mac) := by
  cases command <;> rfl

theorem macOperation_snd : (gateway.macOperation mac command).2 = gateway.editMacs mac command := by
  cases command <;> rfl

variable {gateway mac command}

theorem macOperation_of_refused (refused : ¬ command.EditsList gateway.config mac) :
    gateway.macOperation mac command = (-1, gateway) := by
  rcases MacCommand.edit_of_refused refused with ⟨code, config⟩
  rw [macOperation_eq, editMacList]
  simp only [if_neg code, config]
  rfl

theorem macOperation_of_editsList (edits : command.EditsList gateway.config mac) :
    gateway.macOperation mac command =
      (if (iptablesDoCommand gateway.firewall (gateway.macIptables mac command)).1 = 0 then 0
        else -1,
        { gateway with
          config := (command.edit gateway.config mac).2
          firewall :=
            (iptablesDoCommand gateway.firewall (gateway.macIptables mac command)).2 }) := by
  have code := (MacCommand.edit_of_editsList edits).1
  rw [macOperation_eq, editMacList]
  simp only [if_pos code]
  rfl

theorem macOperation_eq_zero_iff : (gateway.macOperation mac command).1 = 0 ↔
    command.EditsList gateway.config mac ∧
      gateway.firewall.Accepts (gateway.macIptables mac command) := by
  by_cases edits : command.EditsList gateway.config mac
  · rw [macOperation_of_editsList edits, ← iptablesDoCommand_eq_zero_iff]
    by_cases succeeded :
        (iptablesDoCommand gateway.firewall (gateway.macIptables mac command)).1 = 0 <;>
      simp [succeeded, edits]
  · rw [macOperation_of_refused edits]
    simp [edits]

theorem Commits.atomic (commits : gateway.Commits mac command) :
    gateway.Atomic mac command := by
  by_cases edits : command.EditsList gateway.config mac
  · have done := macOperation_eq_zero_iff.mpr ⟨edits, commits edits⟩
    refine ⟨fun code => absurd done code, fun code => absurd done code, fun _ => ?_⟩
    have run := (iptablesDoCommand_eq_zero_iff _ _).mpr (commits edits)
    rw [macOperation_of_editsList edits]
    exact ⟨MacCommand.editEntries_ne edits, (MacCommand.edit_of_editsList edits).2,
      fun table chain => rules_iptablesDoCommand run table chain⟩
  · refine ⟨?_, fun _ edited => absurd edited edits, ?_⟩
    · intro _
      rw [macOperation_of_refused edits]
      exact ⟨rfl, rfl⟩
    · intro code
      exact absurd (macOperation_eq_zero_iff.mp code).1 edits

/-- After a failed iptables command the list is edited all the same. -/
theorem Atomic.commits (atomic : gateway.Atomic mac command) : gateway.Commits mac command := by
  intro edits
  by_contra refused
  have code : (gateway.macOperation mac command).1 ≠ 0 := fun done =>
    refused (macOperation_eq_zero_iff.mp done).2
  have kept := (atomic.failed code).1
  rw [macOperation_of_editsList edits] at kept
  have entries := (MacCommand.edit_of_editsList edits).2 command.list
  rw [if_pos rfl] at entries
  exact MacCommand.editEntries_ne edits (entries.symm.trans (congrArg command.list.entries kept))

end

/-! ## Runs -/

/-- A transition whose operation on the MAC lists, if it makes one, commits: the
operation of a command, or the block that ends a session. -/
inductive CommittingTransition (permits : Permissions) : Gateway → Gateway → Prop
  | keeps {gateway next : Gateway} (transition : Transition permits gateway next)
      (config : next.config = gateway.config) : CommittingTransition permits gateway next
  | editMacs {gateway : Gateway} {mac : String} {command : MacCommand}
      (permitted : permits.edits mac command) (commits : gateway.Commits mac command) :
      CommittingTransition permits gateway (gateway.editMacs mac command)
  | block {gateway : Gateway} {node : Node} (reason : Option String)
      (member : node ∈ gateway.clients.nodes)
      (state : node.client.fwConnectionState = gateway.marks.authenticated)
      (commits : (gateway.iptablesFwDeauthenticate node.client).2.Commits
        node.client.mac .block) :
      CommittingTransition permits gateway (gateway.leaveBlocked node reason)

theorem CommittingTransition.transition {permits : Permissions} {gateway next : Gateway}
    (committing : CommittingTransition permits gateway next) :
    Transition permits gateway next := by
  cases committing with
  | keeps transition _ => exact transition
  | editMacs permitted _ => exact .editMacs gateway _ _ permitted
  | block reason member state _ => exact .block reason member state

/-- The chain of every list that is enabled has exactly the rules of its
entries, besides the rules that are always there. -/
def ChainsMatchLists (gateway : Gateway) : Prop :=
  ∀ name : MacListName, name.enabled gateway.config = true →
    (gateway.firewall.tables.rules .mangle name.chain).Perm
      ((name.entries gateway.config).map
          (name.ruleOf gateway.firewall.markop gateway.marks.toMarks) ++
        name.otherRules gateway.firewall.markop gateway.marks.toMarks)

theorem enabled_of_sameSettings {before after : Config} (same : before.SameSettings after)
    (name : MacListName) : name.enabled after = name.enabled before := by
  cases name with
  | trusted => rfl
  | blocked | allowed => simp only [MacListName.enabled, same.macmechanism]

namespace ChainsMatchLists

variable {gateway next : Gateway}

theorem keeps (agree : gateway.ChainsMatchLists) (follows : gateway.Follows next)
    (config : next.config = gateway.config)
    (rules : ∀ name ∈ [Chain.blocked, .trusted], next.firewall.tables.rules .mangle name =
      gateway.firewall.tables.rules .mangle name) : next.ChainsMatchLists := by
  intro name enabled
  rw [config] at enabled
  rw [config, follows.firewall.markop, follows.marks, rules name.chain (by cases name <;> decide)]
  exact agree name enabled

theorem editMacs (agree : gateway.ChainsMatchLists) {mac : String} {command : MacCommand}
    (commits : gateway.Commits mac command) : (gateway.editMacs mac command).ChainsMatchLists := by
  have follows := editMacs_follows gateway mac command
  rw [← macOperation_snd] at follows ⊢
  by_cases edits : command.EditsList gateway.config mac
  · intro name enabled
    have enabledBefore := (enabled_of_sameSettings follows.settings name).symm.trans enabled
    have done := macOperation_eq_zero_iff.mpr ⟨edits, commits edits⟩
    rcases commits.atomic.succeeded done with ⟨_, entries, rules⟩
    rw [entries, rules, follows.firewall.markop, follows.marks]
    by_cases same : name = command.list
    · subst same
      rw [if_pos rfl]
      exact MacCommand.effect_perm _ _ edits (agree command.list enabledBefore)
    · have elsewhere : (gateway.macIptables mac command).place ≠ (.mangle, name.chain) := by
        rw [macIptables, MacCommand.place_iptables]
        intro equal
        exact same (MacListName.chain_injective enabledBefore edits.2.1
          (Prod.ext_iff.mp equal).2.symm)
      rw [if_neg same, Command.effect_of_ne elsewhere]
      exact agree name enabledBefore
  · rw [macOperation_of_refused edits]
    exact agree

theorem commits_of_config {mac : String} {command : MacCommand}
    (config : (gateway.editMacs mac command).config = gateway.config) :
    gateway.Commits mac command := by
  intro edits
  rw [← macOperation_snd, macOperation_of_editsList edits] at config
  have entries := (MacCommand.edit_of_editsList edits).2 command.list
  rw [if_pos rfl] at entries
  exact absurd (entries.symm.trans (congrArg command.list.entries config))
    (MacCommand.editEntries_ne edits)

/-- The block that ends a session edits the blocked list after the rules of the
client are gone. -/
theorem leaveBlocked (agree : gateway.ChainsMatchLists) {node : Node} (reason : Option String)
    (commits : (gateway.iptablesFwDeauthenticate node.client).2.Commits node.client.mac .block) :
    (gateway.leaveBlocked node reason).ChainsMatchLists := by
  have deauthenticated := iptablesFwDeauthenticate_follows gateway node.client
  have middle := agree.keeps ⟨deauthenticated, .refl _, rfl⟩ rfl
    (rules_iptablesFwDeauthenticate_of_mac gateway node.client)
  have edited := middle.editMacs commits
  rw [ChainsMatchLists, leaveBlocked_firewall, leaveBlocked_config, leaveBlocked_marks]
  exact edited

theorem transition_of_config {permits : Permissions} (agree : gateway.ChainsMatchLists)
    (transition : Transition permits gateway next) (config : next.config = gateway.config) :
    next.ChainsMatchLists := by
  rcases transition.mac_cases with ⟨_, rules⟩ | ⟨node, reason, rfl⟩ | ⟨mac, command, rfl⟩
  · exact agree.keeps transition.follows config rules
  · rw [leaveBlocked_config] at config
    exact agree.leaveBlocked reason (commits_of_config config)
  · exact agree.editMacs (commits_of_config config)

theorem transition {permits : Permissions} (agree : gateway.ChainsMatchLists)
    (committing : CommittingTransition permits gateway next) : next.ChainsMatchLists := by
  cases committing with
  | keeps transition config => exact agree.transition_of_config transition config
  | editMacs _ commits => exact agree.editMacs commits
  | block reason _ _ commits => exact agree.leaveBlocked reason commits

end ChainsMatchLists

/-- `iptables_fw_init` inserts the rules of the allowed list in front of the rule
that marks all packets. -/
theorem Fresh.chainsMatchLists {gateway : Gateway} {kernel : Kernel}
    (fresh : gateway.Fresh kernel) : gateway.ChainsMatchLists := by
  have agree := fresh.macRulesAgree
  intro name enabled
  cases name with
  | trusted =>
      rw [MacListName.otherRules, List.append_nil]
      exact agree.trusted
  | blocked =>
      rw [MacListName.otherRules, List.append_nil]
      exact agree.blocked (by simpa [MacListName.enabled] using enabled)
  | allowed =>
      have mechanism : gateway.config.macmechanism = .allow := by
        simpa [MacListName.enabled] using enabled
      rcases fresh.initialized with ⟨destroyed, before, _, initialized⟩
      have rules := initialized.rules .mangle .blocked
      rw [commandsOn_initCommands_mangle, commandsOn_blocked_of_allow _ _ _ mechanism,
        List.foldl_cons, List.foldl_cons, foldl_effect_insert] at rules
      rw [MacListName.chain, rules]
      have created : Command.effect .mangle .blocked
          (Command.effect .mangle .blocked (before.tables.rules .mangle .blocked)
            (.newChain .mangle .blocked))
          (.append .mangle .blocked ⟨[], .mark before.markop gateway.config.marks.blocked⟩) =
          [⟨[], .mark before.markop gateway.config.marks.blocked⟩] := by
        simp [Command.effect, Command.place]
      rw [created, initialized.markop, fresh.marks]
      exact (List.reverse_perm _).append_right _

end Gateway

open Relation (ReflTransGen)

/-- An operation on a MAC list changes its list and its chain together, or
neither, exactly when its list operation is refused or iptables carries out its
command; and the chains match the lists in every state that is reached by
transitions whose operations do so. -/
theorem mac_commands_atomic_iff {permits : Permissions} {kernel : Kernel}
    {initial final : Gateway} (fresh : initial.Fresh kernel)
    (run : ReflTransGen (Gateway.CommittingTransition permits) initial final) :
    (∀ (gateway : Gateway) (mac : String) (command : MacCommand),
      gateway.Atomic mac command ↔ gateway.Commits mac command) ∧ final.ChainsMatchLists := by
  constructor
  · exact fun gateway mac command => ⟨fun atomic => atomic.commits, fun commits => commits.atomic⟩
  · induction run with
    | refl => exact fresh.chainsMatchLists
    | tail _ transition induction => exact induction.transition transition

theorem blocking_commits : defaultGateway.Commits "00:16:3e:00:00:01" .block :=
  fun _ => ⟨rfl, by decide +kernel⟩

theorem mac_commands_atomic_iff_default :
    (∀ (gateway : Gateway) (mac : String) (command : MacCommand),
      gateway.Atomic mac command ↔ gateway.Commits mac command) ∧
      (defaultGateway.editMacs "00:16:3e:00:00:01" .block).ChainsMatchLists :=
  mac_commands_atomic_iff (initialGateway_fresh initialGateway_defaultGateway).1
    (.single (.editMacs (show (Permissions.all .sessions).edits _ _ from trivial)
      blocking_commits))

/-- The gateway while another program holds the lock of iptables. -/
def lockedGateway : Gateway :=
  { defaultGateway with firewall.kernel.exitCode := fun _ => 4 }

/-- `ndsctl block` fails, and the MAC is on the list without its rule. Once
iptables works again, `block` is refused, and so is `unblock`. -/
theorem failed_block_changes_list :
    let failed := lockedGateway.macOperation "00:16:3e:00:00:01" .block
    let later := { failed.2 with firewall.kernel := defaultGateway.firewall.kernel }
    failed.1 = -1 ∧ lockedGateway.config.blockedmaclist = [] ∧
      failed.2.config.blockedmaclist = ["00:16:3e:00:00:01"] ∧
      failed.2.firewall.tables = lockedGateway.firewall.tables ∧
      (later.macOperation "00:16:3e:00:00:01" .block).1 = -1 ∧
      (later.macOperation "00:16:3e:00:00:01" .unblock).1 = -1 ∧
      ¬ lockedGateway.Atomic "00:16:3e:00:00:01" .block := by
  intro failed later
  have code : failed.1 = -1 := by decide +kernel
  have listed : failed.2.config.blockedmaclist = ["00:16:3e:00:00:01"] := by decide +kernel
  have empty : lockedGateway.config.blockedmaclist = [] := by decide +kernel
  refine ⟨code, empty, listed, rfl, by decide +kernel, by decide +kernel, fun atomic => ?_⟩
  have nonzero : failed.1 ≠ 0 := by omega
  have kept := congrArg Config.blockedmaclist (atomic.failed nonzero).1
  rw [empty] at kept
  exact absurd (listed.symm.trans kept) (by decide)

end Nodogsplash
