import Nodogsplash.Firewall

/-! # What the initialization of the firewall establishes

If `iptables_fw_init` returns 0, every chain holds what its commands put there,
in order, on top of what the chain held before. -/

namespace Nodogsplash

section

variable {firewall : Firewall}

theorem iptablesDoCommands_append (firewall : Firewall) (first second : List Command) :
    iptablesDoCommands firewall (first ++ second) =
      ((iptablesDoCommands firewall first).1 |||
          (iptablesDoCommands (iptablesDoCommands firewall first).2 second).1,
        (iptablesDoCommands (iptablesDoCommands firewall first).2 second).2) := by
  induction first generalizing firewall with
  | nil => simp [iptablesDoCommands]
  | cons command first induction =>
      rw [List.cons_append, iptablesDoCommands_cons, induction, iptablesDoCommands_cons]
      simp only [BitVec.or_assoc]

/-- A sequence that returns 0 leaves the chains it creates in existence. -/
theorem isSome_of_newChain {commands : List Command} {table : Table} {name : Chain}
    (succeeded : (iptablesDoCommands firewall commands).1 = 0)
    (created : .newChain table name ∈ commands)
    (kept : ∀ command ∈ commands, command ≠ .deleteChain table name) :
    ((iptablesDoCommands firewall commands).2.tables.chain table name).isSome = true := by
  induction commands generalizing firewall with
  | nil => cases created
  | cons command commands induction =>
      rcases iptablesDoCommands_cons_eq_zero.mp succeeded with ⟨first, rest⟩
      have keptRest : ∀ other ∈ commands, other ≠ .deleteChain table name :=
        fun other member => kept other (List.mem_cons_of_mem _ member)
      rw [iptablesDoCommands_cons]
      rcases List.mem_cons.mp created with rfl | later
      · apply isSome_iptablesDoCommands keptRest
        rcases iptablesDoCommand_cases firewall (.newChain table name) with
          ⟨tables, applied, equal⟩ | ⟨failed, _⟩
        · rw [equal]
          exact Tables.isSome_apply_newChain applied
        · exact absurd first failed
      · exact induction rest later keptRest

theorem foldl_effect_filter (table : Table) (name : Chain) (commands : List Command)
    (rules : List Rule) :
    commands.foldl (Command.effect table name) rules =
      (commands.filter fun command => decide (command.place = (table, name))).foldl
        (Command.effect table name) rules := by
  induction commands generalizing rules with
  | nil => rfl
  | cons command commands induction =>
      by_cases same : command.place = (table, name)
      · rw [List.filter_cons_of_pos (by simpa using same), List.foldl_cons, List.foldl_cons,
          induction]
      · rw [List.filter_cons_of_neg (by simpa using same), List.foldl_cons,
          Command.effect_of_ne same, induction]

theorem foldl_effect_of_ne {table : Table} {name : Chain} {commands : List Command}
    (different : ∀ command ∈ commands, command.place ≠ (table, name)) (rules : List Rule) :
    commands.foldl (Command.effect table name) rules = rules := by
  rw [foldl_effect_filter, List.filter_eq_nil_iff.mpr]
  · rfl
  · intro command member
    simpa using different command member

theorem supports_of_insert {table : Table} {name : Chain} {position : Nat} {rule : Rule}
    (succeeded : (iptablesDoCommand firewall (.insert table name position rule)).1 = 0) :
    firewall.kernel.supports rule = true := by
  rcases iptablesDoCommand_cases firewall (.insert table name position rule) with
    ⟨tables, applied, _⟩ | ⟨failed, _⟩
  · simp only [Tables.apply] at applied
    split at applied
    · cases applied
    · split at applied
      · rename_i accepted
        simp only [Bool.and_eq_true] at accepted
        exact accepted.1.1
      · cases applied
  · exact absurd succeeded failed

end

/-- What `_iptables_check_mark_masking` finds out, and what it leaves alone. -/
structure MasksMarks (before after : Firewall) (mask : BitVec 32) : Prop where
  kernel : after.kernel = before.kernel
  markop : after.markop = .orMark → before.kernel.orMark = true
  markmask : after.markmask = none ∨
    after.markmask = some mask ∧ before.kernel.markMask = true
  chain : ∀ table name, (table, name) ≠ (.mangle, .prerouting) →
    (table, name) ≠ (.filter, .forward) →
    after.tables.chain table name = before.tables.chain table name

theorem tryMarkop_kernel (firewall : Firewall) (marks : Marks) :
    (tryMarkop firewall marks).kernel = firewall.kernel := by
  simp only [tryMarkop]
  split <;> simp only [iptablesDoCommand_kernel]

theorem tryMarkop_supported {firewall : Firewall} {marks : Marks}
    (chosen : (tryMarkop firewall marks).markop = .orMark) :
    firewall.kernel.orMark = true := by
  simp only [tryMarkop] at chosen
  split at chosen
  · rename_i accepted
    have supported := supports_of_insert accepted
    simpa [Kernel.supports, Target.supported, MarkOp.supported] using supported
  · cases chosen

theorem chain_tryMarkop (firewall : Firewall) (marks : Marks) {table : Table} {name : Chain}
    (different : (table, name) ≠ (.mangle, .prerouting)) :
    (tryMarkop firewall marks).tables.chain table name = firewall.tables.chain table name := by
  let probe : Command := .insert .mangle .prerouting 1 ⟨[], .mark .orMark marks.blocked⟩
  have first : (iptablesDoCommand firewall probe).2.tables.chain table name =
      firewall.tables.chain table name :=
    chain_iptablesDoCommand_of_ne firewall (Ne.symm different)
  simp only [tryMarkop]
  split
  · exact (chain_iptablesDoCommand_of_ne _ (Ne.symm different)).trans first
  · exact first

theorem tryMarkmask_kernel (firewall : Firewall) (marks : Marks) (mask : BitVec 32) :
    (tryMarkmask firewall marks mask).kernel = firewall.kernel := by
  simp only [tryMarkmask]
  split <;> simp only [iptablesDoCommand_kernel]

theorem tryMarkmask_markop (firewall : Firewall) (marks : Marks) (mask : BitVec 32) :
    (tryMarkmask firewall marks mask).markop = firewall.markop := by
  simp only [tryMarkmask]
  split <;> simp only [iptablesDoCommand_markop]

theorem tryMarkmask_supported (firewall : Firewall) (marks : Marks) (mask : BitVec 32) :
    (tryMarkmask firewall marks mask).markmask = none ∨
      (tryMarkmask firewall marks mask).markmask = some mask ∧
        firewall.kernel.markMask = true := by
  simp only [tryMarkmask]
  split
  · rename_i accepted
    have supported := supports_of_insert accepted
    exact .inr ⟨rfl, by simpa [Kernel.supports, Target.supported, Match.supported] using supported⟩
  · exact .inl rfl

theorem chain_tryMarkmask (firewall : Firewall) (marks : Marks) (mask : BitVec 32)
    {table : Table} {name : Chain} (different : (table, name) ≠ (.filter, .forward)) :
    (tryMarkmask firewall marks mask).tables.chain table name =
      firewall.tables.chain table name := by
  let probe : Command :=
    .insert .filter .forward 1 ⟨[.mark marks.blocked (some mask)], .reject none⟩
  have first : (iptablesDoCommand firewall probe).2.tables.chain table name =
      firewall.tables.chain table name :=
    chain_iptablesDoCommand_of_ne firewall (Ne.symm different)
  simp only [tryMarkmask]
  split
  · exact (chain_iptablesDoCommand_of_ne _ (Ne.symm different)).trans first
  · exact first

theorem iptablesCheckMarkMasking_spec (firewall : Firewall) (marks : Marks)
    (mask : BitVec 32) :
    MasksMarks firewall (iptablesCheckMarkMasking firewall marks mask).2 mask where
  kernel := (tryMarkmask_kernel _ marks mask).trans (tryMarkop_kernel firewall marks)
  markop := fun chosen =>
    tryMarkop_supported ((tryMarkmask_markop _ marks mask).symm.trans chosen)
  markmask := by
    have supported := tryMarkmask_supported (tryMarkop firewall marks) marks mask
    rwa [tryMarkop_kernel] at supported
  chain := fun _ _ first second =>
    (chain_tryMarkmask _ marks mask second).trans (chain_tryMarkop firewall marks first)

/-- All commands of `iptables_fw_init` after the marks have been checked. -/
def initCommands (stray : String → String) (config : Config) (markop : MarkOp)
    (markmask : Option (BitVec 32)) : List Command :=
  mangleCommands config config.marks markop ++
    (if config.ip6 then [] else natCommands stray config config.marks markmask) ++
    filterCommands stray config config.marks markmask

/-! ## The commands on one chain -/

def commandsOn (table : Table) (name : Chain) (commands : List Command) : List Command :=
  commands.filter fun command => decide (command.place = (table, name))

@[simp] theorem commandsOn_append (table : Table) (name : Chain) (first second : List Command) :
    commandsOn table name (first ++ second) =
      commandsOn table name first ++ commandsOn table name second :=
  List.filter_append _ _

theorem commandsOn_cons (table : Table) (name : Chain) (command : Command)
    (commands : List Command) :
    commandsOn table name (command :: commands) =
      (if command.place = (table, name) then [command] else []) ++
        commandsOn table name commands := by
  by_cases same : command.place = (table, name) <;> simp [commandsOn, same]

@[simp] theorem commandsOn_nil (table : Table) (name : Chain) :
    commandsOn table name [] = [] := rfl

theorem commandsOn_map {α : Type} (table : Table) (name : Chain) (place : Table × Chain)
    {command : α → Command} (places : ∀ value, (command value).place = place)
    (values : List α) :
    commandsOn table name (values.map command) =
      if place = (table, name) then values.map command else [] := by
  rw [commandsOn, List.filter_map]
  by_cases same : place = (table, name) <;> simp [Function.comp_def, places, same]

@[simp] theorem commandsOn_map_append {α : Type} (table place : Table) (name chain : Chain)
    (rule : α → Rule) (values : List α) :
    commandsOn table name (values.map fun value => .append place chain (rule value)) =
      if (place, chain) = (table, name) then
        (values.map rule).map (.append place chain) else [] := by
  rw [commandsOn_map table name (place, chain) (fun _ => rfl), List.map_map]
  rfl

@[simp] theorem commandsOn_map_insert {α : Type} (table place : Table) (name chain : Chain)
    (position : Nat) (rule : α → Rule) (values : List α) :
    commandsOn table name (values.map fun value => .insert place chain position (rule value)) =
      if (place, chain) = (table, name) then
        values.map fun value => .insert place chain position (rule value) else [] :=
  commandsOn_map table name (place, chain) (fun _ => rfl) values

theorem commandsOn_of_table {table : Table} {name : Chain} {commands : List Command}
    (different : ∀ command ∈ commands, command.place.1 ≠ table) :
    commandsOn table name commands = [] := by
  rw [commandsOn, List.filter_eq_nil_iff]
  intro command member
  simp only [decide_eq_true_eq]
  intro equal
  exact different command member (congrArg Prod.fst equal)

structure Command.Builds (table : Table) (command : Command) : Prop where
  place : command.place.1 = table
  keeps : ∀ name, command ≠ .deleteChain table name

theorem Command.Builds.not_deletes {built : Table} {command : Command}
    (builds : command.Builds built) (table : Table) (name : Chain) :
    command ≠ .deleteChain table name := by
  rintro rfl
  cases builds.place
  exact builds.keeps name rfl

theorem commandsOn_of_builds {built table : Table} (other : built ≠ table)
    {commands : List Command} (builds : ∀ command ∈ commands, command.Builds built)
    (name : Chain) : commandsOn table name commands = [] := by
  apply commandsOn_of_table
  intro command member
  rw [(builds command member).place]
  exact other

theorem iptablesAppendRuleset_builds {stray : String → String} {config : Config} {table : Table}
    {ruleset : RulesetName} {chain : Chain} {command : Command}
    (member : command ∈ iptablesAppendRuleset stray config table ruleset chain) :
    command.Builds table := by
  rcases List.mem_map.mp member with ⟨rule, _, rfl⟩
  exact ⟨rfl, nofun⟩

theorem classCommands_builds {stray : String → String} {config : Config} {chain : Chain}
    {mark : BitVec 32} {markmask : Option (BitVec 32)} {ruleset : RulesetName}
    {classChain : Chain} {command : Command}
    (member : command ∈ classCommands stray config chain mark markmask ruleset classChain) :
    command.Builds .filter := by
  rw [classCommands] at member
  split at member
  · rw [List.mem_singleton.mp member]
    exact ⟨rfl, nofun⟩
  · simp only [List.mem_append, List.mem_cons, List.not_mem_nil, or_false] at member
    rcases member with ((rfl | rfl) | inRuleset) | rfl
    · exact ⟨rfl, nofun⟩
    · exact ⟨rfl, nofun⟩
    · exact iptablesAppendRuleset_builds inRuleset
    · exact ⟨rfl, nofun⟩

theorem filterCommands_builds {stray : String → String} {config : Config} {marks : Marks}
    {markmask : Option (BitVec 32)} {command : Command}
    (member : command ∈ filterCommands stray config marks markmask) :
    command.Builds .filter := by
  simp only [filterCommands, List.mem_append] at member
  rcases member with (created | input) | forward
  · simp only [List.mem_cons, List.not_mem_nil, or_false] at created
    rcases created with rfl | rfl | rfl | rfl | rfl <;> exact ⟨rfl, nofun⟩
  · simp only [inputCommands, List.mem_append] at input
    rcases input with (first | classes) | last
    · simp only [List.mem_cons, List.not_mem_nil, or_false] at first
      rcases first with rfl | rfl | rfl | rfl | rfl | rfl <;> exact ⟨rfl, nofun⟩
    · exact classCommands_builds classes
    · split at last
      · rw [List.mem_singleton.mp last]
        exact ⟨rfl, nofun⟩
      · simp only [List.mem_append, List.mem_cons, List.not_mem_nil, or_false] at last
        rcases last with inRuleset | rfl
        · exact iptablesAppendRuleset_builds inRuleset
        · exact ⟨rfl, nofun⟩
  · simp only [forwardCommands, List.mem_append] at forward
    rcases forward with ((((first | mss) | trusted) | authenticated) | others) | last
    · simp only [List.mem_cons, List.not_mem_nil, or_false] at first
      rcases first with rfl | rfl | rfl <;> exact ⟨rfl, nofun⟩
    · simp only [mssCommands] at mss
      split at mss
      · rw [List.mem_singleton.mp mss]
        exact ⟨rfl, nofun⟩
      · cases mss
    · exact classCommands_builds trusted
    · exact classCommands_builds authenticated
    · split at others
      · rw [List.mem_singleton.mp others]
        exact ⟨rfl, nofun⟩
      · exact iptablesAppendRuleset_builds others
    · rw [List.mem_singleton.mp last]
      exact ⟨rfl, nofun⟩

theorem natCommands_builds {stray : String → String} {config : Config} {marks : Marks}
    {markmask : Option (BitVec 32)} {command : Command}
    (member : command ∈ natCommands stray config marks markmask) :
    command.Builds .nat := by
  simp only [natCommands, List.mem_append, List.mem_cons, List.not_mem_nil, or_false] at member
  rcases member with ((rfl | rfl | rfl | rfl) | inRuleset) | rfl | rfl
  · exact ⟨rfl, nofun⟩
  · exact ⟨rfl, nofun⟩
  · exact ⟨rfl, nofun⟩
  · exact ⟨rfl, nofun⟩
  · exact iptablesAppendRuleset_builds inRuleset
  · exact ⟨rfl, nofun⟩
  · exact ⟨rfl, nofun⟩

theorem natCommands_builds_unless {stray : String → String} {config : Config} {marks : Marks}
    {markmask : Option (BitVec 32)} {command : Command}
    (member : command ∈ if config.ip6 then [] else natCommands stray config marks markmask) :
    command.Builds .nat := by
  split at member
  · cases member
  · exact natCommands_builds member

theorem mangleCommands_builds {config : Config} {marks : Marks} {markop : MarkOp}
    {command : Command} (member : command ∈ mangleCommands config marks markop) :
    command.Builds .mangle := by
  simp only [mangleCommands, List.mem_append] at member
  rcases member with (first | trusted) | macs
  · simp only [List.mem_cons, List.not_mem_nil, or_false] at first
    rcases first with rfl | rfl | rfl | rfl | rfl | rfl | rfl | rfl | rfl <;>
      exact ⟨rfl, nofun⟩
  · rcases List.mem_map.mp trusted with ⟨mac, _, rfl⟩
    exact ⟨rfl, nofun⟩
  · split at macs
    · rcases List.mem_map.mp macs with ⟨mac, _, rfl⟩
      exact ⟨rfl, nofun⟩
    · rcases List.mem_cons.mp macs with rfl | allowed
      · exact ⟨rfl, nofun⟩
      · rcases List.mem_map.mp allowed with ⟨mac, _, rfl⟩
        exact ⟨rfl, nofun⟩

theorem initCommands_keeps {stray : String → String} {config : Config} {markop : MarkOp}
    {markmask : Option (BitVec 32)} {command : Command}
    (member : command ∈ initCommands stray config markop markmask) (table : Table)
    (name : Chain) : command ≠ .deleteChain table name := by
  simp only [initCommands, List.mem_append] at member
  rcases member with (mangle | nat) | filter
  · exact (mangleCommands_builds mangle).not_deletes table name
  · exact (natCommands_builds_unless nat).not_deletes table name
  · exact (filterCommands_builds filter).not_deletes table name

theorem commandsOn_initCommands_mangle (stray : String → String) (config : Config)
    (markop : MarkOp) (markmask : Option (BitVec 32)) (name : Chain) :
    commandsOn .mangle name (initCommands stray config markop markmask) =
      commandsOn .mangle name (mangleCommands config config.marks markop) := by
  have nat : commandsOn .mangle name
      (if config.ip6 then [] else natCommands stray config config.marks markmask) = [] :=
    commandsOn_of_builds (by decide) (fun _ member => natCommands_builds_unless member) name
  have filter : commandsOn .mangle name (filterCommands stray config config.marks markmask) = [] :=
    commandsOn_of_builds (by decide) (fun _ member => filterCommands_builds member) name
  rw [initCommands, commandsOn_append, commandsOn_append, nat, filter, List.append_nil,
    List.append_nil]

section

variable (config : Config) (marks : Marks) (markop : MarkOp)

theorem commandsOn_outgoing :
    commandsOn .mangle .outgoing (mangleCommands config marks markop) =
      [.newChain .mangle .outgoing] := by
  cases mechanism : config.macmechanism <;>
    simp [mangleCommands, mechanism, commandsOn_cons, Command.place]

theorem commandsOn_incoming :
    commandsOn .mangle .incoming (mangleCommands config marks markop) =
      [.newChain .mangle .incoming] := by
  cases mechanism : config.macmechanism <;>
    simp [mangleCommands, mechanism, commandsOn_cons, Command.place]

theorem commandsOn_trusted :
    commandsOn .mangle .trusted (mangleCommands config marks markop) =
      .newChain .mangle .trusted ::
        (config.trustedmaclist.map (trustRule markop marks)).map (.append .mangle .trusted) := by
  cases mechanism : config.macmechanism <;>
    simp [mangleCommands, mechanism, commandsOn_cons, Command.place]

theorem commandsOn_blocked (mechanism : config.macmechanism = .block) :
    commandsOn .mangle .blocked (mangleCommands config marks markop) =
      .newChain .mangle .blocked ::
        (config.blockedmaclist.map (blockRule markop marks)).map (.append .mangle .blocked) := by
  simp [mangleCommands, mechanism, commandsOn_cons, Command.place]

theorem commandsOn_blocked_of_allow (mechanism : config.macmechanism = .allow) :
    commandsOn .mangle .blocked (mangleCommands config marks markop) =
      .newChain .mangle .blocked :: .append .mangle .blocked ⟨[], .mark markop marks.blocked⟩ ::
        (config.allowedmaclist.map allowRule).map (.insert .mangle .blocked 1) := by
  simp [mangleCommands, mechanism, commandsOn_cons, Command.place]

theorem commandsOn_prerouting :
    commandsOn .mangle .prerouting (mangleCommands config marks markop) =
      [.insert .mangle .prerouting 1 ⟨config.fromClients, .jump .outgoing⟩,
        .insert .mangle .prerouting 2 ⟨config.fromClients, .jump .blocked⟩,
        .insert .mangle .prerouting 3 ⟨config.fromClients, .jump .trusted⟩] := by
  cases mechanism : config.macmechanism <;>
    simp [mangleCommands, mechanism, commandsOn_cons, Command.place]

end

theorem accepted_of_iptablesFwInit {config : Config} {firewall : Firewall}
    {traffic : TrafficControl} (succeeded : (iptablesFwInit config firewall traffic).1 = 0) :
    minIptablesVersion ≤ firewall.kernel.iptablesVersion ∧
      iptablesInitMarks config.marks = 0 := by
  have failed : ¬ (-1 : BitVec 32) = 0 := by decide
  by_cases unknown : firewall.kernel.iptablesVersion < 0
  · rw [iptablesFwInit, if_pos unknown] at succeeded
    exact absurd succeeded failed
  · by_cases old : firewall.kernel.iptablesVersion < minIptablesVersion
    · rw [iptablesFwInit, if_neg unknown, if_pos old] at succeeded
      exact absurd succeeded failed
    · rw [iptablesFwInit, if_neg unknown, if_neg old] at succeeded
      simp only [joinedCode_eq_zero] at succeeded
      exact ⟨not_lt.mp old, succeeded.1.1.1.1.1⟩

/-- With a recent iptables and proper marks, `iptables_fw_init` runs its commands where the
marks have been checked. -/
theorem iptablesFwInit_ran {config : Config} {firewall checked : Firewall}
    (traffic : TrafficControl) (recent : minIptablesVersion ≤ firewall.kernel.iptablesVersion)
    (accepted : iptablesInitMarks config.marks = 0)
    (masked : checked = (iptablesCheckMarkMasking firewall config.marks config.marks.mask).2) :
    ((iptablesFwInit config firewall traffic).1 = 0 ↔
      (config.trafficControl = true → (tcInitTc config traffic).1 = 0) ∧
        (iptablesDoCommands checked (initCommands firewall.kernel.stray config checked.markop
          checked.markmask)).1 = 0) ∧
      (iptablesFwInit config firewall traffic).2.1 =
        (iptablesDoCommands checked (initCommands firewall.kernel.stray config checked.markop
          checked.markmask)).2 := by
  have known : ¬ firewall.kernel.iptablesVersion < 0 := by
    have positive : 0 ≤ minIptablesVersion := by decide
    omega
  have shaped : (if config.trafficControl then tcInitTc config traffic else (0, traffic)).1 = 0 ↔
      (config.trafficControl = true → (tcInitTc config traffic).1 = 0) := by
    cases config.trafficControl <;> simp
  have checks : (iptablesCheckMarkMasking firewall config.marks config.marks.mask).1 = 0 := rfl
  rw [iptablesFwInit, if_neg known, if_neg (not_lt.mpr recent)]
  simp only [joinedCode_eq_zero, accepted, if_true, shaped, checks, true_and, ← masked,
    initCommands, iptablesDoCommands_append]
  cases version : config.ip6 with
  | true => simp [iptablesDoCommands, and_assoc, and_left_comm]
  | false => simp [and_assoc, and_left_comm]

theorem iptablesFwInit_eq_zero {config : Config} {firewall : Firewall}
    {traffic : TrafficControl} (succeeded : (iptablesFwInit config firewall traffic).1 = 0) :
    iptablesInitMarks config.marks = 0 ∧
      ∃ checked : Firewall, MasksMarks firewall checked config.marks.mask ∧
        (iptablesDoCommands checked (initCommands firewall.kernel.stray config checked.markop
          checked.markmask)).1 = 0 ∧
        (iptablesFwInit config firewall traffic).2.1 =
          (iptablesDoCommands checked (initCommands firewall.kernel.stray config checked.markop
            checked.markmask)).2 := by
  rcases accepted_of_iptablesFwInit succeeded with ⟨recent, accepted⟩
  have ran := iptablesFwInit_ran traffic recent accepted rfl
  have masked := iptablesCheckMarkMasking_spec firewall config.marks config.marks.mask
  exact ⟨accepted, _, masked, (ran.1.mp succeeded).2, ran.2⟩

/-- What a successful `iptables_fw_init` leaves behind. `before` are the tables
in which its commands start. -/
structure Initialized (config : Config) (firewall before after : Firewall) : Prop where
  marks : iptablesInitMarks config.marks = 0
  masked : MasksMarks firewall before config.marks.mask
  kernel : after.kernel = firewall.kernel
  markop : after.markop = before.markop
  markmask : after.markmask = before.markmask
  chains : ∀ table name, .newChain table name ∈
      initCommands firewall.kernel.stray config before.markop before.markmask →
    (after.tables.chain table name).isSome = true
  rules : ∀ table name, after.tables.rules table name =
    (commandsOn table name
      (initCommands firewall.kernel.stray config before.markop before.markmask)).foldl
        (Command.effect table name) (before.tables.rules table name)

theorem iptablesFwInit_initialized {config : Config} {firewall : Firewall}
    {traffic : TrafficControl} (succeeded : (iptablesFwInit config firewall traffic).1 = 0) :
    ∃ before, Initialized config firewall before (iptablesFwInit config firewall traffic).2.1 := by
  rcases iptablesFwInit_eq_zero succeeded with ⟨marks, before, masked, commands, equal⟩
  refine ⟨before, marks, masked, ?_, ?_, ?_, ?_, ?_⟩
  · rw [equal, iptablesDoCommands_kernel, masked.kernel]
  · rw [equal, iptablesDoCommands_markop]
  · rw [equal, iptablesDoCommands_markmask]
  · intro table name created
    rw [equal]
    exact isSome_of_newChain commands created fun command member =>
      initCommands_keeps member table name
  · intro table name
    rw [equal, rules_iptablesDoCommands commands, foldl_effect_filter]
    rfl

theorem Initialized.rules_of_created {config : Config} {firewall before after : Firewall}
    (initialized : Initialized config firewall before after) {table : Table} {name : Chain}
    {added : List Rule}
    (commands : commandsOn table name
        (initCommands firewall.kernel.stray config before.markop before.markmask) =
      .newChain table name :: added.map (.append table name)) :
    after.tables.rules table name = added := by
  rw [initialized.rules, commands, List.foldl_cons, foldl_effect_append]
  simp [Command.effect, Command.place]

end Nodogsplash
