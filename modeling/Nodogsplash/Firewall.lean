import Mathlib.Data.List.Infix
import Nodogsplash.Iptables
import Nodogsplash.TrafficControl

/-! # The firewall of the gateway

The state of `fw_iptables.c` and its functions: the rules they build, the
order in which they run their commands and what they return. -/

namespace Nodogsplash

/-! ## Packet marks -/

/-- The `FW_MARK_*` values a client state or a packet mark can take, apart from
`FW_MARK_PREAUTHENTICATED`, which is 0. -/
structure Marks where
  authenticated : BitVec 32
  blocked : BitVec 32
  trusted : BitVec 32
  deriving DecidableEq

def Config.marks (config : Config) : Marks where
  authenticated := config.fwMarkAuthenticated
  blocked := config.fwMarkBlocked
  trusted := config.fwMarkTrusted

/-- `FW_MARK_MASK`. -/
def Marks.mask (marks : Marks) : BitVec 32 :=
  marks.blocked ||| marks.trusted ||| marks.authenticated

/-- `_iptables_init_marks`. -/
def iptablesInitMarks (marks : Marks) : BitVec 32 :=
  if marks.blocked = marks.trusted ∨ marks.trusted = marks.authenticated ∨
      marks.authenticated = marks.blocked then -1
  else if marks.blocked = 0 ∨ marks.trusted = 0 ∨ marks.authenticated = 0 then -1
  else 0

/-- Marks that `_iptables_init_marks` accepts. -/
structure AcceptedMarks extends Marks where
  blocked_ne_trusted : blocked ≠ trusted
  trusted_ne_authenticated : trusted ≠ authenticated
  authenticated_ne_blocked : authenticated ≠ blocked
  blocked_ne_zero : blocked ≠ 0
  trusted_ne_zero : trusted ≠ 0
  authenticated_ne_zero : authenticated ≠ 0

/-- The accepted marks, if `_iptables_init_marks` succeeds. -/
def Marks.accept (marks : Marks) : Option AcceptedMarks :=
  if failed : iptablesInitMarks marks ≠ 0 then none
  else
    have parts : ¬ (marks.blocked = marks.trusted ∨ marks.trusted = marks.authenticated ∨
        marks.authenticated = marks.blocked) ∧
        ¬ (marks.blocked = 0 ∨ marks.trusted = 0 ∨ marks.authenticated = 0) := by
      by_contra refused
      apply failed
      rw [iptablesInitMarks]
      split
      · decide
      · split
        · decide
        · exact absurd ⟨‹_›, ‹_›⟩ refused
    some { marks with
      blocked_ne_trusted := fun equal => parts.1 (.inl equal)
      trusted_ne_authenticated := fun equal => parts.1 (.inr (.inl equal))
      authenticated_ne_blocked := fun equal => parts.1 (.inr (.inr equal))
      blocked_ne_zero := fun zero => parts.2 (.inl zero)
      trusted_ne_zero := fun zero => parts.2 (.inr (.inl zero))
      authenticated_ne_zero := fun zero => parts.2 (.inr (.inr zero)) }

theorem Marks.accept_isSome_iff (marks : Marks) :
    marks.accept.isSome = true ↔ iptablesInitMarks marks = 0 := by
  by_cases accepted : iptablesInitMarks marks = 0 <;> simp [accept, accepted]

theorem Marks.accept_toMarks {marks : Marks} {accepted : AcceptedMarks}
    (found : marks.accept = some accepted) : accepted.toMarks = marks := by
  rw [accept] at found
  split at found
  · cases found
  · cases found
    rfl

/-! ## Running commands -/

/-- The state behind `iptables_do_command`: the kernel's tables, the number of
commands issued, and the mark operation and mask chosen at initialization. -/
structure Firewall where
  kernel : Kernel
  tables : Tables
  issued : Nat
  markop : MarkOp
  markmask : Option (BitVec 32)

/-- `iptables_do_command`. The five attempts while iptables reports a resource
problem count as one command, whose exit code is that of the last attempt. -/
def iptablesDoCommand (firewall : Firewall) (command : Command) : BitVec 32 × Firewall :=
  let rc := firewall.kernel.exitCode firewall.issued
  let firewall := { firewall with issued := firewall.issued + 1 }
  if rc ≠ 0 then (rc, firewall)
  else
    match firewall.tables.apply firewall.kernel command with
    | none => (1, firewall)
    | some tables => (0, { firewall with tables })

theorem joinedCode_eq_zero {left right : BitVec 32} :
    left ||| right = 0 ↔ left = 0 ∧ right = 0 :=
  BitVec.or_eq_zero_iff

/-- `rc |= iptables_do_command(…)` for a sequence of commands. -/
def iptablesDoCommands (firewall : Firewall) : List Command → BitVec 32 × Firewall
  | [] => (0, firewall)
  | command :: rest =>
      let (rc, firewall) := iptablesDoCommand firewall command
      let (others, firewall) := iptablesDoCommands firewall rest
      (rc ||| others, firewall)

/-- A command takes effect and returns 0, or returns an error and changes no
table. -/
theorem iptablesDoCommand_cases (firewall : Firewall) (command : Command) :
    (∃ tables, firewall.tables.apply firewall.kernel command = some tables ∧
      iptablesDoCommand firewall command =
        (0, { firewall with tables, issued := firewall.issued + 1 })) ∨
    ((iptablesDoCommand firewall command).1 ≠ 0 ∧
      (iptablesDoCommand firewall command).2 =
        { firewall with issued := firewall.issued + 1 }) := by
  by_cases failed : firewall.kernel.exitCode firewall.issued = 0
  · cases applied : firewall.tables.apply firewall.kernel command with
    | none =>
        right
        simp [iptablesDoCommand, failed, applied]
    | some tables =>
        left
        exact ⟨tables, rfl, by simp [iptablesDoCommand, failed, applied]⟩
  · right
    have equal : iptablesDoCommand firewall command =
        (firewall.kernel.exitCode firewall.issued,
          { firewall with issued := firewall.issued + 1 }) :=
      if_pos failed
    rw [equal]
    exact ⟨failed, rfl⟩

theorem iptablesDoCommand_of_applies {firewall : Firewall} {command : Command}
    (exits : firewall.kernel.exitCode firewall.issued = 0)
    (applies : (firewall.tables.apply firewall.kernel command).isSome = true) :
    (iptablesDoCommand firewall command).1 = 0 := by
  rcases iptablesDoCommand_cases firewall command with ⟨tables, _, equal⟩ | ⟨_, _⟩
  · rw [equal]
  · rcases Option.isSome_iff_exists.mp applies with ⟨tables, applied⟩
    simp [iptablesDoCommand, exits, applied]

def Firewall.Accepts (firewall : Firewall) (command : Command) : Prop :=
  firewall.kernel.exitCode firewall.issued = 0 ∧
    (firewall.tables.apply firewall.kernel command).isSome = true

theorem iptablesDoCommand_eq_zero_iff (firewall : Firewall) (command : Command) :
    (iptablesDoCommand firewall command).1 = 0 ↔ firewall.Accepts command := by
  constructor
  · intro succeeded
    by_cases failed : firewall.kernel.exitCode firewall.issued = 0
    · rcases iptablesDoCommand_cases firewall command with ⟨tables, applied, _⟩ | ⟨refused, _⟩
      · exact ⟨failed, by rw [applied]; rfl⟩
      · exact absurd succeeded refused
    · simp only [iptablesDoCommand, if_pos failed] at succeeded
      exact absurd succeeded failed
  · rintro ⟨exits, applies⟩
    exact iptablesDoCommand_of_applies exits applies

def Firewall.AcceptsAll : Firewall → List Command → Prop
  | _, [] => True
  | firewall, command :: rest =>
      firewall.Accepts command ∧ (iptablesDoCommand firewall command).2.AcceptsAll rest

@[simp] theorem iptablesDoCommand_kernel (firewall : Firewall) (command : Command) :
    (iptablesDoCommand firewall command).2.kernel = firewall.kernel := by
  rcases iptablesDoCommand_cases firewall command with ⟨_, _, equal⟩ | ⟨_, equal⟩ <;> rw [equal]

@[simp] theorem iptablesDoCommand_markop (firewall : Firewall) (command : Command) :
    (iptablesDoCommand firewall command).2.markop = firewall.markop := by
  rcases iptablesDoCommand_cases firewall command with ⟨_, _, equal⟩ | ⟨_, equal⟩ <;> rw [equal]

@[simp] theorem iptablesDoCommand_markmask (firewall : Firewall) (command : Command) :
    (iptablesDoCommand firewall command).2.markmask = firewall.markmask := by
  rcases iptablesDoCommand_cases firewall command with ⟨_, _, equal⟩ | ⟨_, equal⟩ <;> rw [equal]

@[simp] theorem iptablesDoCommand_issued (firewall : Firewall) (command : Command) :
    (iptablesDoCommand firewall command).2.issued = firewall.issued + 1 := by
  rcases iptablesDoCommand_cases firewall command with ⟨_, _, equal⟩ | ⟨_, equal⟩ <;> rw [equal]

theorem rules_iptablesDoCommand {firewall : Firewall} {command : Command}
    (succeeded : (iptablesDoCommand firewall command).1 = 0) (table : Table) (name : Chain) :
    (iptablesDoCommand firewall command).2.tables.rules table name =
      command.effect table name (firewall.tables.rules table name) := by
  rcases iptablesDoCommand_cases firewall command with ⟨tables, applied, equal⟩ | ⟨failed, _⟩
  · rw [equal]
    exact Tables.rules_apply applied table name
  · exact absurd succeeded failed

theorem chain_iptablesDoCommand_of_ne (firewall : Firewall) {command : Command} {table : Table}
    {name : Chain} (different : command.place ≠ (table, name)) :
    (iptablesDoCommand firewall command).2.tables.chain table name =
      firewall.tables.chain table name := by
  rcases iptablesDoCommand_cases firewall command with ⟨tables, applied, equal⟩ | ⟨_, equal⟩
  · rw [equal]
    exact Tables.chain_apply_of_ne applied (Ne.symm different)
  · rw [equal]

theorem isSome_iptablesDoCommand {firewall : Firewall} {command : Command} {table : Table}
    {name : Chain} (kept : command ≠ .deleteChain table name)
    (present : (firewall.tables.chain table name).isSome = true) :
    ((iptablesDoCommand firewall command).2.tables.chain table name).isSome = true := by
  rcases iptablesDoCommand_cases firewall command with ⟨tables, applied, equal⟩ | ⟨_, equal⟩
  · rw [equal]
    exact Tables.isSome_apply applied kept present
  · rw [equal]
    exact present

section

variable {firewall : Firewall} {command : Command} {commands : List Command}

theorem iptablesDoCommands_cons (firewall : Firewall) (command : Command)
    (commands : List Command) :
    iptablesDoCommands firewall (command :: commands) =
      ((iptablesDoCommand firewall command).1 |||
          (iptablesDoCommands (iptablesDoCommand firewall command).2 commands).1,
        (iptablesDoCommands (iptablesDoCommand firewall command).2 commands).2) := rfl

theorem iptablesDoCommands_cons_eq_zero :
    (iptablesDoCommands firewall (command :: commands)).1 = 0 ↔
      (iptablesDoCommand firewall command).1 = 0 ∧
        (iptablesDoCommands (iptablesDoCommand firewall command).2 commands).1 = 0 := by
  rw [iptablesDoCommands_cons, joinedCode_eq_zero]

theorem iptablesDoCommands_eq_zero_iff (firewall : Firewall) (commands : List Command) :
    (iptablesDoCommands firewall commands).1 = 0 ↔ firewall.AcceptsAll commands := by
  induction commands generalizing firewall with
  | nil => exact iff_of_true rfl trivial
  | cons command commands induction =>
      rw [iptablesDoCommands_cons_eq_zero, iptablesDoCommand_eq_zero_iff, induction]
      rfl

@[simp] theorem iptablesDoCommands_kernel (firewall : Firewall) (commands : List Command) :
    (iptablesDoCommands firewall commands).2.kernel = firewall.kernel := by
  induction commands generalizing firewall with
  | nil => rfl
  | cons command commands induction => simp [iptablesDoCommands_cons, induction]

@[simp] theorem iptablesDoCommands_markop (firewall : Firewall) (commands : List Command) :
    (iptablesDoCommands firewall commands).2.markop = firewall.markop := by
  induction commands generalizing firewall with
  | nil => rfl
  | cons command commands induction => simp [iptablesDoCommands_cons, induction]

@[simp] theorem iptablesDoCommands_markmask (firewall : Firewall) (commands : List Command) :
    (iptablesDoCommands firewall commands).2.markmask = firewall.markmask := by
  induction commands generalizing firewall with
  | nil => rfl
  | cons command commands induction => simp [iptablesDoCommands_cons, induction]

@[simp] theorem iptablesDoCommands_issued (firewall : Firewall) (commands : List Command) :
    (iptablesDoCommands firewall commands).2.issued = firewall.issued + commands.length := by
  induction commands generalizing firewall with
  | nil => rfl
  | cons command commands induction =>
      rw [iptablesDoCommands_cons, induction, iptablesDoCommand_issued, List.length_cons]
      omega

theorem rules_iptablesDoCommands (succeeded : (iptablesDoCommands firewall commands).1 = 0)
    (table : Table) (name : Chain) :
    (iptablesDoCommands firewall commands).2.tables.rules table name =
      commands.foldl (Command.effect table name) (firewall.tables.rules table name) := by
  induction commands generalizing firewall with
  | nil => rfl
  | cons command commands induction =>
      rcases iptablesDoCommands_cons_eq_zero.mp succeeded with ⟨first, rest⟩
      rw [iptablesDoCommands_cons, induction rest, rules_iptablesDoCommand first,
        List.foldl_cons]

theorem chain_iptablesDoCommands_of_ne (firewall : Firewall) {table : Table} {name : Chain}
    (different : ∀ command ∈ commands, command.place ≠ (table, name)) :
    (iptablesDoCommands firewall commands).2.tables.chain table name =
      firewall.tables.chain table name := by
  induction commands generalizing firewall with
  | nil => rfl
  | cons command commands induction =>
      rw [iptablesDoCommands_cons]
      exact (induction _ fun other member => different other (List.mem_cons_of_mem _ member)).trans
        (chain_iptablesDoCommand_of_ne firewall (different command List.mem_cons_self))

theorem isSome_iptablesDoCommands {table : Table} {name : Chain}
    (kept : ∀ command ∈ commands, command ≠ .deleteChain table name)
    (present : (firewall.tables.chain table name).isSome = true) :
    ((iptablesDoCommands firewall commands).2.tables.chain table name).isSome = true := by
  induction commands generalizing firewall with
  | nil => exact present
  | cons command commands induction =>
      rw [iptablesDoCommands_cons]
      exact induction (fun other member => kept other (List.mem_cons_of_mem _ member))
        (isSome_iptablesDoCommand (kept command List.mem_cons_self) present)

end

section

variable {firewall : Firewall} {table : Table} {name : Chain}

theorem iptablesDoCommands_append_succeeds {rules : List Rule}
    (exits : ∀ number, firewall.kernel.exitCode number = 0)
    (present : (firewall.tables.chain table name).isSome = true)
    (supported : ∀ rule ∈ rules, firewall.kernel.supports rule = true)
    (targets : ∀ rule ∈ rules, ∀ chain, rule.target ≠ .jump chain) :
    (iptablesDoCommands firewall (rules.map (.append table name))).1 = 0 := by
  induction rules generalizing firewall with
  | nil => rfl
  | cons rule rules induction =>
      have target : firewall.tables.hasTarget table rule = true := by
        have notJump := targets rule List.mem_cons_self
        rw [Tables.hasTarget]
        split
        · exact absurd ‹_› (notJump _)
        · rfl
      rw [List.map_cons, iptablesDoCommands_cons_eq_zero]
      constructor
      · exact iptablesDoCommand_of_applies (exits _)
          (Tables.apply_append_isSome present (supported rule List.mem_cons_self) target)
      · refine induction ?_ ?_ ?_ ?_
        · simpa using exits
        · exact isSome_iptablesDoCommand (by simp) present
        · simpa using fun other member => supported other (List.mem_cons_of_mem _ member)
        · exact fun other member => targets other (List.mem_cons_of_mem _ member)

theorem foldl_effect_append (rules added : List Rule) :
    (added.map (Command.append table name)).foldl (Command.effect table name) rules =
      rules ++ added := by
  induction added generalizing rules with
  | nil => simp
  | cons rule added induction =>
      rw [List.map_cons, List.foldl_cons, induction]
      simp [Command.effect, Command.place]

/-- Inserting puts the rules in front of the chain, the last one first. -/
theorem foldl_effect_insert (rules added : List Rule) :
    (added.map (Command.insert table name 1)).foldl (Command.effect table name) rules =
      added.reverse ++ rules := by
  induction added generalizing rules with
  | nil => rfl
  | cons rule added induction =>
      rw [List.map_cons, List.foldl_cons, induction]
      simp [Command.effect, Command.place]

theorem iptablesDoCommands_delete_succeeds {rules : List Rule}
    (exits : ∀ number, firewall.kernel.exitCode number = 0)
    (present : rules.Subperm (firewall.tables.rules table name)) :
    (iptablesDoCommands firewall (rules.map (.delete table name))).1 = 0 := by
  induction rules generalizing firewall with
  | nil => rfl
  | cons rule rules induction =>
      have member : rule ∈ firewall.tables.rules table name :=
        present.subset List.mem_cons_self
      have first : (iptablesDoCommand firewall (.delete table name rule)).1 = 0 :=
        iptablesDoCommand_of_applies (exits _) (Tables.apply_delete_isSome _ member)
      rw [List.map_cons, iptablesDoCommands_cons_eq_zero]
      refine ⟨first, induction (by simpa using exits) ?_⟩
      rw [rules_iptablesDoCommand first]
      have erased := present.erase rule
      simpa [Command.effect, Command.place] using erased

theorem foldl_effect_delete (rules removed : List Rule) :
    (removed.map (Command.delete table name)).foldl (Command.effect table name) rules =
      rules.diff removed := by
  rw [List.diff_eq_foldl, List.foldl_map]
  congr 1
  funext current rule
  simp [Command.effect, Command.place]

end

/-! ## Rules -/

/-- The rule that marks the packets a client sends. -/
def outgoingRule (markop : MarkOp) (marks : Marks) (ip mac : String) : Rule where
  conditions := [.source ip, .macSource (etherAton mac)]
  target := .mark markop marks.authenticated

/-- The rules that mark and count the packets a client receives. -/
def incomingRules (markop : MarkOp) (marks : Marks) (ip : String) : List Rule :=
  [⟨[.destination ip], .mark markop marks.authenticated⟩, ⟨[.destination ip], .accept⟩]

def blockRule (markop : MarkOp) (marks : Marks) (mac : String) : Rule where
  conditions := [.macSource (etherAton mac)]
  target := .mark markop marks.blocked

def allowRule (mac : String) : Rule where
  conditions := [.macSource (etherAton mac)]
  target := .leave

def trustRule (markop : MarkOp) (marks : Marks) (mac : String) : Rule where
  conditions := [.macSource (etherAton mac)]
  target := .mark markop marks.trusted

/-! ## MAC rules -/

/-- `iptables_block_mac`. -/
def iptablesBlockMac (firewall : Firewall) (marks : Marks) (mac : String) :
    BitVec 32 × Firewall :=
  iptablesDoCommand firewall
    (.append .mangle .blocked (blockRule firewall.markop marks mac))

/-- `iptables_unblock_mac`. -/
def iptablesUnblockMac (firewall : Firewall) (marks : Marks) (mac : String) :
    BitVec 32 × Firewall :=
  iptablesDoCommand firewall
    (.delete .mangle .blocked (blockRule firewall.markop marks mac))

/-- `iptables_allow_mac`. -/
def iptablesAllowMac (firewall : Firewall) (mac : String) : BitVec 32 × Firewall :=
  iptablesDoCommand firewall (.insert .mangle .blocked 1 (allowRule mac))

/-- `iptables_unallow_mac`. -/
def iptablesUnallowMac (firewall : Firewall) (mac : String) : BitVec 32 × Firewall :=
  iptablesDoCommand firewall (.delete .mangle .blocked (allowRule mac))

/-- `iptables_trust_mac`. -/
def iptablesTrustMac (firewall : Firewall) (marks : Marks) (mac : String) :
    BitVec 32 × Firewall :=
  iptablesDoCommand firewall
    (.append .mangle .trusted (trustRule firewall.markop marks mac))

/-- `iptables_untrust_mac`. -/
def iptablesUntrustMac (firewall : Firewall) (marks : Marks) (mac : String) :
    BitVec 32 × Firewall :=
  iptablesDoCommand firewall
    (.delete .mangle .trusted (trustRule firewall.markop marks mac))

/-! ## Initialization -/

def tryMarkop (firewall : Firewall) (marks : Marks) : Firewall :=
  let tried := iptablesDoCommand firewall
    (.insert .mangle .prerouting 1 ⟨[], .mark .orMark marks.blocked⟩)
  if tried.1 = 0 then
    { (iptablesDoCommand tried.2 (.deleteNumber .mangle .prerouting 1)).2 with markop := .orMark }
  else { tried.2 with markop := .setMark }

def tryMarkmask (firewall : Firewall) (marks : Marks) (mask : BitVec 32) : Firewall :=
  let tried := iptablesDoCommand firewall
    (.insert .filter .forward 1 ⟨[.mark marks.blocked (some mask)], .reject none⟩)
  if tried.1 = 0 then
    { (iptablesDoCommand tried.2 (.deleteNumber .filter .forward 1)).2 with markmask := some mask }
  else { tried.2 with markmask := none }

/-- `_iptables_check_mark_masking`. -/
def iptablesCheckMarkMasking (firewall : Firewall) (marks : Marks) (mask : BitVec 32) :
    BitVec 32 × Firewall :=
  (0, tryMarkmask (tryMarkop firewall marks) marks mask)

def FirewallTarget.toTarget : FirewallTarget → Target
  | .drop => .drop
  | .reject => .reject none
  | .accept => .accept
  | .log => .log
  | .ulog => .ulog

def EmptyRulesetPolicy.toTarget : EmptyRulesetPolicy → Target
  | .accept => .accept
  | .reject => .reject none
  | .passthrough => .leave

/-- `_iptables_compile`: the words of the rule in the order of the command. -/
def iptablesCompile (rule : FirewallRule) : Rule where
  conditions :=
    rule.mask.toList.map .destination ++ rule.protocol.toList.map .protocol ++
      rule.port.toList.map .destinationPort ++ rule.ipset.toList.map .setMember
  target := rule.target.toTarget

/-- The text of a match goes through `iptables_do_command` as its format. -/
def Match.printed (stray : String → String) : Match → Match
  | .destination address => .destination (printfText stray address)
  | .protocol name => .protocol (printfText stray name)
  | .destinationPort ports => .destinationPort (printfText stray ports)
  | .setMember set => .setMember (printfText stray set)
  | condition => condition

/-- The commands of `_iptables_append_ruleset`. -/
def iptablesAppendRuleset (stray : String → String) (config : Config) (table : Table)
    (ruleset : RulesetName) (chain : Chain) : List Command :=
  (config.getRulesetList ruleset).map fun rule =>
    .append table chain
      { iptablesCompile rule with
        conditions := (iptablesCompile rule).conditions.map (Match.printed stray) }

/-- The packets a hook passes to the daemon's chains. -/
def Config.fromClients (config : Config) : List Match :=
  [.inInterface config.gwInterface, .source config.gwIprange]

def Config.toClients (config : Config) : List Match :=
  [.outInterface config.gwInterface, .destination config.gwIprange]

/-- `REJECT --reject-with %s-port-unreachable`. -/
def Config.rejectUnreachable (config : Config) : Target :=
  .reject (some ((if config.ip6 then "icmp6" else "icmp") ++ "-port-unreachable"))

/-- The mangle table commands of `iptables_fw_init`. -/
def mangleCommands (config : Config) (marks : Marks) (markop : MarkOp) : List Command :=
  [.newChain .mangle .trusted, .newChain .mangle .blocked, .newChain .mangle .allowed,
    .newChain .mangle .incoming, .newChain .mangle .outgoing,
    .insert .mangle .prerouting 1 ⟨config.fromClients, .jump .outgoing⟩,
    .insert .mangle .prerouting 2 ⟨config.fromClients, .jump .blocked⟩,
    .insert .mangle .prerouting 3 ⟨config.fromClients, .jump .trusted⟩,
    .insert .mangle .postrouting 1 ⟨config.toClients, .jump .incoming⟩] ++
  config.trustedmaclist.map (fun mac => .append .mangle .trusted (trustRule markop marks mac)) ++
  match config.macmechanism with
  | .block =>
      config.blockedmaclist.map fun mac => .append .mangle .blocked (blockRule markop marks mac)
  | .allow =>
      .append .mangle .blocked ⟨[], .mark markop marks.blocked⟩ ::
        config.allowedmaclist.map fun mac => .insert .mangle .blocked 1 (allowRule mac)

/-- The nat table commands of `iptables_fw_init`. -/
def natCommands (stray : String → String) (config : Config) (marks : Marks)
    (markmask : Option (BitVec 32)) : List Command :=
  [.newChain .nat .outgoing,
    .insert .nat .prerouting 1 ⟨config.fromClients, .jump .outgoing⟩,
    .append .nat .outgoing ⟨[.mark marks.trusted markmask], .leave⟩,
    .append .nat .outgoing ⟨[.mark marks.authenticated markmask], .leave⟩] ++
  iptablesAppendRuleset stray config .nat .preauthenticatedUsers .outgoing ++
  [.append .nat .outgoing
      ⟨[.protocol "tcp", .destinationPort "80"], .dnat config.gwAddress⟩,
    .append .nat .outgoing ⟨[], .accept⟩]

/-- Packets with a mark follow the ruleset of their class in a chain of its
own, or the policy that stands for an empty ruleset. -/
def classCommands (stray : String → String) (config : Config) (chain : Chain)
    (mark : BitVec 32) (markmask : Option (BitVec 32)) (ruleset : RulesetName)
    (classChain : Chain) : List Command :=
  if config.isEmptyRuleset ruleset then
    [.append .filter chain
      ⟨[.mark mark markmask], (config.getEmptyRulesetPolicy ruleset).toTarget⟩]
  else
    [.append .filter chain ⟨[.mark mark markmask], .jump classChain⟩,
      .append .filter classChain ⟨[.ctstateRelatedEstablished], .accept⟩] ++
    iptablesAppendRuleset stray config .filter ruleset classChain ++
    [.append .filter classChain ⟨[], config.rejectUnreachable⟩]

/-- The filter INPUT commands of `iptables_fw_init`. -/
def inputCommands (stray : String → String) (config : Config) (marks : Marks)
    (markmask : Option (BitVec 32)) : List Command :=
  [.insert .filter .input 1 ⟨config.fromClients, .jump .toRouter⟩,
    .append .filter .toRouter ⟨[.mark marks.blocked markmask], .drop⟩,
    .append .filter .toRouter ⟨[.ctstateInvalid], .drop⟩,
    .append .filter .toRouter ⟨[.ctstateRelatedEstablished], .accept⟩,
    .append .filter .toRouter ⟨[.protocol "tcp", .synWithoutMssOption], .drop⟩,
    .append .filter .toRouter
      ⟨[.protocol "tcp", .destinationPort (toString config.gwPort)], .accept⟩] ++
  classCommands stray config .toRouter marks.trusted markmask .trustedUsersToRouter
    .trustedToRouter ++
  if config.isEmptyRuleset .usersToRouter then
    [.append .filter .toRouter ⟨[], (config.getEmptyRulesetPolicy .usersToRouter).toTarget⟩]
  else
    iptablesAppendRuleset stray config .filter .usersToRouter .toRouter ++
    [.append .filter .toRouter ⟨[], config.rejectUnreachable⟩]

def mssCommands (config : Config) : List Command :=
  if config.setMss then
    [.append .filter .toInternet
      ⟨[.protocol "tcp", .synWithoutRst],
        .tcpmss (if config.mssValue > 0 then some config.mssValue else none)⟩]
  else []

/-- The filter FORWARD commands of `iptables_fw_init`. -/
def forwardCommands (stray : String → String) (config : Config) (marks : Marks)
    (markmask : Option (BitVec 32)) : List Command :=
  [.insert .filter .forward 1 ⟨config.fromClients, .jump .toInternet⟩,
    .append .filter .toInternet ⟨[.mark marks.blocked markmask], .drop⟩,
    .append .filter .toInternet ⟨[.ctstateInvalid], .drop⟩] ++
  mssCommands config ++
  classCommands stray config .toInternet marks.trusted markmask .trustedUsers .trusted ++
  classCommands stray config .toInternet marks.authenticated markmask .authenticatedUsers
    .authenticated ++
  (if config.isEmptyRuleset .preauthenticatedUsers then
    [.append .filter .toInternet
      ⟨[], (config.getEmptyRulesetPolicy .preauthenticatedUsers).toTarget⟩]
  else iptablesAppendRuleset stray config .filter .preauthenticatedUsers .toInternet) ++
  [.append .filter .toInternet ⟨[], config.rejectUnreachable⟩]

/-- The filter table commands of `iptables_fw_init`. -/
def filterCommands (stray : String → String) (config : Config) (marks : Marks)
    (markmask : Option (BitVec 32)) : List Command :=
  [.newChain .filter .toInternet, .newChain .filter .toRouter,
    .newChain .filter .authenticated, .newChain .filter .trusted,
    .newChain .filter .trustedToRouter] ++
  inputCommands stray config marks markmask ++ forwardCommands stray config marks markmask

def minIptablesVersion : Int := 1 * 10000 + 4 * 100 + 17

/-- `iptables_fw_init`. Marks that are not accepted leave `FW_MARK_MASK` at its
initial value. -/
def iptablesFwInit (config : Config) (firewall : Firewall) (traffic : TrafficControl) :
    BitVec 32 × Firewall × TrafficControl :=
  if firewall.kernel.iptablesVersion < 0 then (-1, firewall, traffic)
  else if firewall.kernel.iptablesVersion < minIptablesVersion then (-1, firewall, traffic)
  else
    let marks := config.marks
    let stray := firewall.kernel.stray
    let rcMarks := iptablesInitMarks marks
    let mask := if rcMarks = 0 then marks.mask else 0
    let (rcMasking, firewall) := iptablesCheckMarkMasking firewall marks mask
    let (rcMangle, firewall) :=
      iptablesDoCommands firewall (mangleCommands config marks firewall.markop)
    let (rcTc, traffic) :=
      if config.trafficControl then tcInitTc config traffic else (0, traffic)
    let (rcNat, firewall) :=
      if config.ip6 then (0, firewall)
      else iptablesDoCommands firewall (natCommands stray config marks firewall.markmask)
    let (rcFilter, firewall) :=
      iptablesDoCommands firewall (filterCommands stray config marks firewall.markmask)
    (rcMarks ||| rcMasking ||| rcMangle ||| rcTc ||| rcNat ||| rcFilter, firewall, traffic)

/-! ## Removal -/

/-- The words `iptables -L -n -v` prints for a match. -/
def Match.words : Match → List String
  | .inInterface device => [device]
  | .outInterface device => [device]
  | .source address => [address]
  | .destination address => [address]
  | .protocol name => [name]
  | .destinationPort ports => [ports]
  | .setMember set => [set]
  | _ => []

/-- The words `iptables -L -n -v` prints for a target. -/
def Target.words : Target → List String
  | .accept => ["ACCEPT"]
  | .drop => ["DROP"]
  | .reject kind => "REJECT" :: kind.toList
  | .leave => ["RETURN"]
  | .log => ["LOG"]
  | .ulog => ["ULOG"]
  | .mark _ _ => ["MARK"]
  | .tcpmss _ => ["TCPMSS"]
  | .dnat destination => ["DNAT", destination]
  | .jump chain => [chain.name]

/-- `strstr(line, mention)` on the line of a rule. -/
def Rule.mentions (rule : Rule) (mention : String) : Bool :=
  (rule.target.words ++ rule.conditions.flatMap Match.words).any fun word =>
    decide (mention.toList <:+: word.toList)

/-- `iptables_fw_destroy_mention`: delete the first rule that mentions a word
and look again. It does not return while it keeps finding one; `fuel` bounds
the number of calls. -/
def iptablesFwDestroyMention : Nat → Firewall → Table → Chain → String → Option Firewall
  | 0, _, _, _, _ => none
  | fuel + 1, firewall, table, chain, mention =>
      match (firewall.tables.rules table chain).findIdx? (Rule.mentions · mention) with
      | none => some firewall
      | some index =>
          iptablesFwDestroyMention fuel
            (iptablesDoCommand firewall (.deleteNumber table chain (index + 1))).2
            table chain mention

/-- The calls of `iptables_fw_destroy_mention` for one table. -/
def iptablesFwDestroyMentions (fuel : Nat) (table : Table) :
    List (Chain × Chain) → Firewall → Option Firewall
  | [], firewall => some firewall
  | (chain, mention) :: rest, firewall => do
      let firewall ← iptablesFwDestroyMention fuel firewall table chain mention.name
      iptablesFwDestroyMentions fuel table rest firewall

def removeChains (table : Table) (chains : List Chain) : List Command :=
  chains.map (.flush table) ++ chains.map (.deleteChain table)

/-- The part of `iptables_fw_destroy` for one table. -/
def destroyTable (fuel : Nat) (table : Table) (mentions : List (Chain × Chain))
    (chains : List Chain) (firewall : Firewall) : Option Firewall :=
  (iptablesFwDestroyMentions fuel table mentions firewall).map fun firewall =>
    (iptablesDoCommands firewall (removeChains table chains)).2

/-- `iptables_fw_destroy`. -/
def iptablesFwDestroy (fuel : Nat) (config : Config) (firewall : Firewall)
    (traffic : TrafficControl) : Option (Firewall × TrafficControl) := do
  let traffic := if config.trafficControl then (tcDestroyTc config traffic).2 else traffic
  let firewall ← destroyTable fuel .mangle
    [(.prerouting, .trusted), (.prerouting, .blocked), (.prerouting, .allowed),
      (.prerouting, .outgoing), (.postrouting, .incoming)]
    [.trusted, .blocked, .allowed, .outgoing, .incoming] firewall
  let firewall ←
    (if config.ip6 then some firewall
    else destroyTable fuel .nat [(.prerouting, .outgoing)] [.outgoing] firewall)
  let firewall ← destroyTable fuel .filter [(.input, .toRouter), (.forward, .toInternet)]
    [.toRouter, .toInternet, .authenticated, .trusted, .trustedToRouter] firewall
  return (firewall, traffic)

end Nodogsplash
