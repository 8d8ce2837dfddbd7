import Mathlib.Algebra.Order.BigOperators.Group.List
import Mathlib.Algebra.Order.Group.Nat
import Nodogsplash.Foundation.Overlay
import Nodogsplash.Start

/-! # Teardown

`iptables_fw_destroy` takes away what `iptables_fw_init` and the daemon put into
the tables, however much of it has failed, and nothing else. -/

namespace Nodogsplash

/-! ## What belongs to the daemon -/

/-- The `CHAIN_*` names. -/
def ndsChains : List Chain :=
  [.toInternet, .toRouter, .trustedToRouter, .outgoing, .incoming, .authenticated, .blocked,
    .allowed, .trusted]

/-- The chains that `iptables_fw_destroy` flushes and deletes. -/
def daemonChains : Table → List Chain
  | .mangle => [.trusted, .blocked, .allowed, .outgoing, .incoming]
  | .nat => [.outgoing]
  | .filter => [.toRouter, .toInternet, .authenticated, .trusted, .trustedToRouter]

/-- The chains in which `iptables_fw_destroy` looks for mentions, and of what. -/
def hooks : Table → List (Chain × Chain)
  | .mangle =>
      [(.prerouting, .trusted), (.prerouting, .blocked), (.prerouting, .allowed),
        (.prerouting, .outgoing), (.postrouting, .incoming)]
  | .nat => [(.prerouting, .outgoing)]
  | .filter => [(.input, .toRouter), (.forward, .toInternet)]

def Rule.mentionsDaemon (rule : Rule) : Bool :=
  ndsChains.any fun chain => rule.mentions chain.name

def daemons : Overlay.Ownership Chain Rule where
  name chain := decide (chain ∈ ndsChains)
  element := Rule.mentionsDaemon

theorem mem_ndsChains_of_daemonChains {table : Table} {name : Chain}
    (member : name ∈ daemonChains table) : name ∈ ndsChains := by
  cases table <;> revert name <;> decide

theorem mem_daemonChains_of_hooks {table : Table} {name target : Chain}
    (hook : (name, target) ∈ hooks table) : target ∈ daemonChains table := by
  cases table <;> simp only [hooks, List.mem_cons, List.not_mem_nil, or_false, Prod.mk.injEq]
    at hook <;> simp only [daemonChains, List.mem_cons] <;> tauto

theorem mentions_of_jump {rule : Rule} {target : Chain} (jump : rule.target = .jump target) :
    rule.mentions target.name = true := by
  rw [Rule.mentions, List.any_eq_true]
  refine ⟨target.name, ?_, decide_eq_true (List.infix_refl _)⟩
  rw [jump]
  exact List.mem_append_left _ List.mem_cons_self

theorem mentionsDaemon_of_mentions {rule : Rule} {name : Chain} (own : name ∈ ndsChains)
    (mentions : rule.mentions name.name = true) : rule.mentionsDaemon = true :=
  List.any_eq_true.mpr ⟨name, own, mentions⟩

/-! ## Listings -/

namespace Tables

/-- The chains of a table in their order, with their rules. -/
def listing (tables : Tables) (table : Table) : List (Chain × List Rule) :=
  (tables.get table).map fun contents => (contents.name, contents.entries.map Entry.rule)

theorem map_fst_listing (tables : Tables) (table : Table) :
    (tables.listing table).map Prod.fst = (tables.get table).map ChainContents.name := by
  rw [listing, List.map_map]
  rfl

theorem isSome_chain_iff {tables : Tables} {table : Table} {name : Chain} :
    (tables.chain table name).isSome = true ↔ name ∈ (tables.listing table).map Prod.fst := by
  rw [map_fst_listing, chain, Option.isSome_map, List.find?_isSome, List.mem_map]
  simp

theorem mem_listing_of_chain {tables : Tables} {table : Table} {name : Chain}
    {entries : List Entry} (present : tables.chain table name = some entries) :
    (name, entries.map Entry.rule) ∈ tables.listing table := by
  rcases Option.map_eq_some_iff.mp present with ⟨contents, found, rfl⟩
  have same : contents.name = name := by simpa using List.find?_some found
  subst same
  exact List.mem_map.mpr ⟨contents, List.mem_of_find?_eq_some found, rfl⟩

theorem chain_of_mem {tables : Tables} {table : Table}
    (distinct : ((tables.listing table).map Prod.fst).Nodup) {contents : ChainContents}
    (member : contents ∈ tables.get table) :
    tables.chain table contents.name = some contents.entries := by
  rw [map_fst_listing] at distinct
  rw [chain, KeyedList.find?_key ChainContents.name distinct member]
  rfl

theorem rules_of_mem_listing {tables : Tables} {table : Table}
    (distinct : ((tables.listing table).map Prod.fst).Nodup) {part : Chain × List Rule}
    (member : part ∈ tables.listing table) : tables.rules table part.1 = part.2 := by
  rcases List.mem_map.mp member with ⟨contents, inTable, rfl⟩
  exact rules_of_chain (chain_of_mem distinct inTable)

theorem listing_put_of_ne (tables : Tables) (contents : List ChainContents)
    {table other : Table} (different : other ≠ table) :
    (tables.put contents table).listing other = tables.listing other := by
  rw [listing, get_put_of_ne _ _ different]
  rfl

theorem listing_setChain (tables : Tables) (table : Table) (name : Chain)
    (entries : List Entry) :
    (tables.setChain table name entries).listing table =
      Overlay.put name (entries.map Entry.rule) (tables.listing table) := by
  rw [listing, setChain, get_put_self, listing, Overlay.put, KeyedList.update, KeyedList.update,
    List.map_map, List.map_map]
  apply List.map_congr_left
  intro contents _
  by_cases same : contents.name = name
  · simp [same]
  · simp [same]

theorem listing_newChain (tables : Tables) (table : Table) (name : Chain) :
    (tables.newChain table name).listing table = tables.listing table ++ [(name, [])] := by
  rw [listing, newChain, get_put_self, List.map_append]
  rfl

theorem listing_dropChain (tables : Tables) (table : Table) (name : Chain) :
    (tables.dropChain table name).listing table =
      (tables.listing table).filter fun part => decide (part.1 ≠ name) := by
  rw [listing, dropChain, get_put_self, listing, List.filter_map]
  rfl

theorem listing_apply_of_ne {kernel : Kernel} {tables after : Tables} {command : Command}
    (applied : tables.apply kernel command = some after) {table : Table}
    (different : table ≠ command.place.1) : after.listing table = tables.listing table := by
  cases command with
  | newChain place chain =>
      simp only [apply] at applied
      split at applied
      · cases applied
      · cases applied
        exact listing_put_of_ne _ _ different
  | flush place chain =>
      simp only [apply] at applied
      split at applied
      · cases applied
      · cases applied
        exact listing_put_of_ne _ _ different
  | append place chain rule
  | insert place chain position rule
  | delete place chain rule
  | deleteNumber place chain number
  | deleteChain place chain =>
      simp only [apply] at applied
      split at applied
      · cases applied
      · split at applied
        · cases applied
          exact listing_put_of_ne _ _ different
        · cases applied

theorem listing_apply {kernel : Kernel} {tables after : Tables} {command : Command}
    (applied : tables.apply kernel command = some after)
    (notNew : ∀ table name, command ≠ .newChain table name)
    (notDelete : ∀ table name, command ≠ .deleteChain table name) :
    (command.place.2, tables.rules command.place.1 command.place.2) ∈
        tables.listing command.place.1 ∧
      after.listing command.place.1 = Overlay.put command.place.2
        (after.rules command.place.1 command.place.2) (tables.listing command.place.1) := by
  have edited {table : Table} {name : Chain} {old : List Entry} (entries : List Entry)
      (present : tables.chain table name = some old) :
      (name, tables.rules table name) ∈ tables.listing table ∧
        (tables.setChain table name entries).listing table = Overlay.put name
          ((tables.setChain table name entries).rules table name) (tables.listing table) := by
    rw [rules_of_chain present, rules_of_chain (chain_setChain_self present entries)]
    exact ⟨mem_listing_of_chain present, listing_setChain tables table name entries⟩
  cases command with
  | newChain place chain => exact absurd rfl (notNew place chain)
  | deleteChain place chain => exact absurd rfl (notDelete place chain)
  | flush place chain =>
      simp only [apply] at applied
      split at applied
      · cases applied
      · next present =>
          cases applied
          exact edited _ present
  | append place chain rule
  | insert place chain position rule
  | delete place chain rule
  | deleteNumber place chain number =>
      simp only [apply] at applied
      split at applied
      · cases applied
      · next present =>
          split at applied
          · cases applied
            exact edited _ present
          · cases applied

theorem isSome_of_apply {kernel : Kernel} {tables after : Tables} {command : Command}
    (applied : tables.apply kernel command = some after) {table : Table} {name : Chain}
    (present : (after.chain table name).isSome = true) :
    (tables.chain table name).isSome = true ∨ command = .newChain table name := by
  by_cases same : command.place = (table, name)
  · cases command with
    | newChain place chain =>
        cases same
        exact .inr rfl
    | append place chain rule
    | insert place chain position rule
    | delete place chain rule
    | deleteNumber place chain number
    | flush place chain
    | deleteChain place chain =>
        cases same
        simp only [apply] at applied
        split at applied
        · cases applied
        · next found => simp [found]
  · rw [chain_apply_of_ne applied (Ne.symm same)] at present
    exact .inl present

end Tables

/-! ## Tables the daemon has worked on -/

/-- Tables without a trace of the daemon. -/
structure Tables.IsForeign (tables : Tables) : Prop where
  distinct : ∀ table, ((tables.listing table).map Prod.fst).Nodup
  names : ∀ table, ∀ part ∈ tables.listing table, part.1 ∉ ndsChains
  rules : ∀ table, ∀ part ∈ tables.listing table, ∀ rule ∈ part.2, rule.mentionsDaemon = false

/-- The tables are the initial ones with chains of the daemon, each in its
table, and with jumps to them where `iptables_fw_destroy` looks for mentions. -/
structure Tables.SetUpOver (initial tables : Tables) : Prop where
  distinct : ∀ table, ((tables.listing table).map Prod.fst).Nodup
  rest : ∀ table, Overlay.rest daemons (tables.listing table) = initial.listing table
  chains : ∀ table, ∀ name ∈ ndsChains, (tables.chain table name).isSome = true →
    name ∈ daemonChains table
  jumps : ∀ table, ∀ name ∉ ndsChains, ∀ rule ∈ tables.rules table name,
    rule.mentionsDaemon = true →
      ∃ target, (name, target) ∈ hooks table ∧ rule.target = .jump target

/-- Commands that leave what belongs to others alone: they create or edit a
chain of the daemon, hook one of them into another chain, or delete a rule that
mentions one. -/
inductive Command.Respects (tables : Tables) : Command → Prop
  | create {table : Table} {name : Chain} (own : name ∈ daemonChains table) :
      Respects tables (.newChain table name)
  | edit {command : Command} (notNew : ∀ table name, command ≠ .newChain table name)
      (own : command.place.2 ∈ ndsChains) : Respects tables command
  | hook {table : Table} {name target : Chain} (position : Nat) {rule : Rule}
      (hook : (name, target) ∈ hooks table) (jump : rule.target = .jump target) :
      Respects tables (.insert table name position rule)
  | unhook {table : Table} {name : Chain} {number : Nat}
      (mentions : ∀ rule, (tables.rules table name)[number - 1]? = some rule →
        rule.mentionsDaemon = true) : Respects tables (.deleteNumber table name number)

theorem filter_eraseIdx {α : Type*} {keep : α → Bool} {values : List α} {number : Nat}
    (dropped : ∀ value, values[number]? = some value → keep value = false) :
    (values.eraseIdx number).filter keep = values.filter keep := by
  induction values generalizing number with
  | nil => rfl
  | cons value values induction =>
      cases number with
      | zero => rw [List.eraseIdx_cons_zero, List.filter_cons_of_neg (by simp [dropped])]
      | succ number =>
          rw [List.eraseIdx_cons_succ, List.filter_cons, List.filter_cons, induction]
          simpa using dropped

theorem filter_insert {α : Type*} {keep : α → Bool} {value : α} (values : List α)
    (position : Nat) (dropped : keep value = false) :
    (values.take position ++ value :: values.drop position).filter keep = values.filter keep := by
  rw [List.filter_append, List.filter_cons_of_neg (by simp [dropped]), ← List.filter_append,
    List.take_append_drop]

namespace Tables.SetUpOver

theorem of_foreign {tables : Tables} (foreign : tables.IsForeign) : tables.SetUpOver tables where
  distinct := foreign.distinct
  rest := fun table => Overlay.rest_eq_self
    (fun part member => by simpa [daemons] using foreign.names table part member)
    (foreign.rules table)
  chains := by
    intro table name own present
    rcases List.mem_map.mp (isSome_chain_iff.mp present) with ⟨part, member, rfl⟩
    exact absurd own (foreign.names table part member)
  jumps := by
    intro table name _ rule member mentions
    cases present : tables.chain table name with
    | none => simp [Tables.rules, present] at member
    | some entries =>
        rw [rules_of_chain present] at member
        rw [foreign.rules table _ (mem_listing_of_chain present) rule member] at mentions
        cases mentions

variable {initial tables after : Tables} {kernel : Kernel} {command : Command}

theorem distinct_apply (setUp : initial.SetUpOver tables)
    (applied : tables.apply kernel command = some after) (table : Table) :
    ((after.listing table).map Prod.fst).Nodup := by
  by_cases same : table = command.place.1
  · subst same
    by_cases ordinary : (∃ table name, command = .newChain table name) ∨
        ∃ table name, command = .deleteChain table name
    · rcases ordinary with ⟨table, name, rfl⟩ | ⟨table, name, rfl⟩
      · simp only [Tables.apply] at applied
        split at applied
        · cases applied
        · next absent =>
            cases applied
            rw [Command.place, listing_newChain, List.map_append]
            refine List.nodup_append.mpr ⟨setUp.distinct table, by simp, ?_⟩
            intro other member new inNew equal
            have isNew : new = name := by simpa using inNew
            rw [equal, isNew] at member
            exact absent (isSome_chain_iff.mpr member)
      · simp only [Tables.apply] at applied
        split at applied
        · cases applied
        · split at applied
          · cases applied
            rw [Command.place, listing_dropChain]
            exact (setUp.distinct table).sublist (List.filter_sublist.map Prod.fst)
          · cases applied
    · have notNew : ∀ table name, command ≠ .newChain table name :=
        fun table name equal => ordinary (.inl ⟨table, name, equal⟩)
      have notDelete : ∀ table name, command ≠ .deleteChain table name :=
        fun table name equal => ordinary (.inr ⟨table, name, equal⟩)
      rw [(listing_apply applied notNew notDelete).2, Overlay.map_fst_put]
      exact setUp.distinct _
  · rw [listing_apply_of_ne applied same]
    exact setUp.distinct table

theorem rest_apply (setUp : initial.SetUpOver tables)
    (applied : tables.apply kernel command = some after) (respects : command.Respects tables)
    (table : Table) :
    Overlay.rest daemons (after.listing table) = initial.listing table := by
  by_cases same : table = command.place.1
  · subst same
    rw [← setUp.rest]
    cases respects with
    | @create table name own =>
        simp only [Tables.apply] at applied
        split at applied
        · cases applied
        · cases applied
          rw [Command.place, listing_newChain]
          exact Overlay.rest_append_own (decide_eq_true (mem_ndsChains_of_daemonChains own)) []
    | edit notNew own =>
        by_cases deletes : ∃ table name, command = .deleteChain table name
        · rcases deletes with ⟨table, name, rfl⟩
          simp only [Tables.apply] at applied
          split at applied
          · cases applied
          · split at applied
            · cases applied
              rw [Command.place, listing_dropChain]
              exact Overlay.rest_filter_own (decide_eq_true own)
            · cases applied
        · rw [(listing_apply applied notNew fun table name equal => deletes ⟨table, name, equal⟩).2]
          exact Overlay.rest_put_own (decide_eq_true own) _
    | @hook table name target position rule hook jump =>
        have listed := listing_apply applied (fun _ _ equal => by cases equal)
          fun _ _ equal => by cases equal
        rw [listed.2]
        refine Overlay.rest_put (setUp.distinct _) listed.1 ?_
        rw [Tables.rules_apply applied, Command.effect, if_neg (by simp)]
        have own := mem_ndsChains_of_daemonChains (mem_daemonChains_of_hooks hook)
        exact filter_insert _ _ (by
          simpa [daemons] using mentionsDaemon_of_mentions own (mentions_of_jump jump))
    | @unhook table name number mentions =>
        have listed := listing_apply applied (fun _ _ equal => by cases equal)
          fun _ _ equal => by cases equal
        rw [listed.2]
        refine Overlay.rest_put (setUp.distinct _) listed.1 ?_
        rw [Tables.rules_apply applied, Command.effect, if_neg (by simp)]
        exact filter_eraseIdx fun rule found => by simpa [daemons] using mentions rule found
  · rw [listing_apply_of_ne applied same]
    exact setUp.rest table

theorem apply (setUp : initial.SetUpOver tables)
    (applied : tables.apply kernel command = some after) (respects : command.Respects tables) :
    initial.SetUpOver after where
  distinct := setUp.distinct_apply applied
  rest := setUp.rest_apply applied respects
  chains := by
    intro table name own present
    rcases Tables.isSome_of_apply applied present with old | rfl
    · exact setUp.chains table name own old
    · cases respects with
      | create inTable => exact inTable
      | edit notNew _ => exact absurd rfl (notNew table name)
  jumps := by
    intro table name others rule member mentions
    rw [Tables.rules_apply applied] at member
    by_cases same : command.place = (table, name)
    · cases respects with
      | create own =>
          cases same
          exact absurd (mem_ndsChains_of_daemonChains own) others
      | edit _ own =>
          rw [same] at own
          exact absurd own others
      | @hook _ _ target position inserted hook jump =>
          cases same
          rw [Command.effect, if_neg (by simp [Command.place])] at member
          rcases List.mem_append.mp member with first | rest
          · exact setUp.jumps _ _ others rule (List.mem_of_mem_take first) mentions
          · rcases List.mem_cons.mp rest with rfl | last
            · exact ⟨target, hook, jump⟩
            · exact setUp.jumps _ _ others rule (List.mem_of_mem_drop last) mentions
      | unhook _ =>
          cases same
          rw [Command.effect, if_neg (by simp [Command.place])] at member
          exact setUp.jumps _ _ others rule (List.mem_of_mem_eraseIdx member) mentions
    · rw [Command.effect_of_ne same] at member
      exact setUp.jumps table name others rule member mentions

end Tables.SetUpOver

/-! ## Setting up -/

namespace Firewall

variable {initial : Tables} {firewall : Firewall}

theorem setUpOver_doCommand {command : Command} (setUp : initial.SetUpOver firewall.tables)
    (respects : command.Respects firewall.tables) :
    initial.SetUpOver (iptablesDoCommand firewall command).2.tables := by
  rcases iptablesDoCommand_cases firewall command with ⟨tables, applied, equal⟩ | ⟨_, equal⟩
  · rw [equal]
    exact setUp.apply applied respects
  · rw [equal]
    exact setUp

theorem setUpOver_doCommands {commands : List Command}
    (setUp : initial.SetUpOver firewall.tables)
    (respect : ∀ command ∈ commands, ∀ tables, command.Respects tables) :
    initial.SetUpOver (iptablesDoCommands firewall commands).2.tables := by
  induction commands generalizing firewall with
  | nil => exact setUp
  | cons command commands induction =>
      rw [iptablesDoCommands_cons]
      exact induction
        (setUpOver_doCommand setUp (respect command List.mem_cons_self firewall.tables))
        fun other member => respect other (List.mem_cons_of_mem _ member)

end Firewall

theorem Command.respects_append {tables : Tables} {table : Table} {name : Chain} {rule : Rule}
    (own : name ∈ ndsChains) : (Command.append table name rule).Respects tables :=
  .edit (fun _ _ => nofun) own

theorem Command.respects_jump {tables : Tables} {table : Table} {name target : Chain}
    {position : Nat} {conditions : List Match} (hook : (name, target) ∈ hooks table) :
    (Command.insert table name position ⟨conditions, .jump target⟩).Respects tables :=
  .hook position hook rfl

theorem iptablesAppendRuleset_respects {stray : String → String} {config : Config}
    {table : Table} {ruleset : RulesetName} {chain : Chain} (own : chain ∈ ndsChains) :
    ∀ command ∈ iptablesAppendRuleset stray config table ruleset chain,
      ∀ tables, command.Respects tables := by
  intro command member tables
  rcases List.mem_map.mp member with ⟨rule, _, rfl⟩
  exact Command.respects_append own

theorem mangleCommands_respect (config : Config) (marks : Marks) (markop : MarkOp) :
    ∀ command ∈ mangleCommands config marks markop, ∀ tables, command.Respects tables := by
  rw [mangleCommands, List.forall_mem_append, List.forall_mem_append]
  refine ⟨⟨?_, ?_⟩, ?_⟩
  · simp only [List.forall_mem_cons]
    refine ⟨?_, ?_, ?_, ?_, ?_, ?_, ?_, ?_, ?_, by simp⟩
    · exact fun _ => .create (by decide)
    · exact fun _ => .create (by decide)
    · exact fun _ => .create (by decide)
    · exact fun _ => .create (by decide)
    · exact fun _ => .create (by decide)
    · exact fun _ => Command.respects_jump (by decide)
    · exact fun _ => Command.respects_jump (by decide)
    · exact fun _ => Command.respects_jump (by decide)
    · exact fun _ => Command.respects_jump (by decide)
  · rw [List.forall_mem_map]
    exact fun mac _ _ => Command.respects_append (by decide)
  · cases config.macmechanism with
    | block =>
        rw [List.forall_mem_map]
        exact fun mac _ _ => Command.respects_append (by decide)
    | allow =>
        rw [List.forall_mem_cons, List.forall_mem_map]
        refine ⟨fun _ => Command.respects_append (by decide), ?_⟩
        exact fun mac _ _ => .edit (fun _ _ equal => by cases equal)
          (show .blocked ∈ ndsChains by decide)

theorem natCommands_respect (stray : String → String) (config : Config) (marks : Marks)
    (markmask : Option (BitVec 32)) :
    ∀ command ∈ natCommands stray config marks markmask, ∀ tables, command.Respects tables := by
  rw [natCommands, List.forall_mem_append, List.forall_mem_append]
  refine ⟨⟨?_, iptablesAppendRuleset_respects (by decide)⟩, ?_⟩
  · simp only [List.forall_mem_cons]
    refine ⟨?_, ?_, ?_, ?_, by simp⟩
    · exact fun _ => .create (by decide)
    · exact fun _ => Command.respects_jump (by decide)
    · exact fun _ => Command.respects_append (by decide)
    · exact fun _ => Command.respects_append (by decide)
  · simp only [List.forall_mem_cons]
    refine ⟨?_, ?_, by simp⟩
    · exact fun _ => Command.respects_append (by decide)
    · exact fun _ => Command.respects_append (by decide)

theorem classCommands_respect {stray : String → String} {config : Config} {chain : Chain}
    {mark : BitVec 32} {markmask : Option (BitVec 32)} {ruleset : RulesetName}
    {classChain : Chain} (own : chain ∈ ndsChains) (ownClass : classChain ∈ ndsChains) :
    ∀ command ∈ classCommands stray config chain mark markmask ruleset classChain,
      ∀ tables, command.Respects tables := by
  rw [classCommands]
  split
  · rw [List.forall_mem_singleton]
    exact fun _ => Command.respects_append own
  · rw [List.forall_mem_append, List.forall_mem_append]
    refine ⟨⟨?_, iptablesAppendRuleset_respects ownClass⟩, ?_⟩
    · simp only [List.forall_mem_cons]
      refine ⟨?_, ?_, by simp⟩
      · exact fun _ => Command.respects_append own
      · exact fun _ => Command.respects_append ownClass
    · rw [List.forall_mem_singleton]
      exact fun _ => Command.respects_append ownClass

theorem inputCommands_respect (stray : String → String) (config : Config) (marks : Marks)
    (markmask : Option (BitVec 32)) :
    ∀ command ∈ inputCommands stray config marks markmask, ∀ tables, command.Respects tables := by
  rw [inputCommands, List.forall_mem_append, List.forall_mem_append]
  refine ⟨⟨?_, classCommands_respect (by decide) (by decide)⟩, ?_⟩
  · rw [List.forall_mem_cons]
    refine ⟨fun _ => Command.respects_jump (by decide), ?_⟩
    simp only [List.forall_mem_cons]
    refine ⟨?_, ?_, ?_, ?_, ?_, by simp⟩ <;> exact fun _ => Command.respects_append (by decide)
  · split
    · rw [List.forall_mem_singleton]
      exact fun _ => Command.respects_append (by decide)
    · rw [List.forall_mem_append, List.forall_mem_singleton]
      exact ⟨iptablesAppendRuleset_respects (by decide),
        fun _ => Command.respects_append (by decide)⟩

theorem mssCommands_respect (config : Config) :
    ∀ command ∈ mssCommands config, ∀ tables, command.Respects tables := by
  rw [mssCommands]
  split
  · rw [List.forall_mem_singleton]
    exact fun _ => Command.respects_append (by decide)
  · simp

theorem forwardCommands_respect (stray : String → String) (config : Config) (marks : Marks)
    (markmask : Option (BitVec 32)) :
    ∀ command ∈ forwardCommands stray config marks markmask,
      ∀ tables, command.Respects tables := by
  simp only [forwardCommands, List.forall_mem_append]
  refine ⟨⟨⟨⟨⟨?_, mssCommands_respect config⟩, classCommands_respect (by decide) (by decide)⟩,
    classCommands_respect (by decide) (by decide)⟩, ?_⟩, ?_⟩
  · simp only [List.forall_mem_cons]
    refine ⟨?_, ?_, ?_, by simp⟩
    · exact fun _ => Command.respects_jump (by decide)
    · exact fun _ => Command.respects_append (by decide)
    · exact fun _ => Command.respects_append (by decide)
  · split
    · rw [List.forall_mem_singleton]
      exact fun _ => Command.respects_append (by decide)
    · exact iptablesAppendRuleset_respects (by decide)
  · rw [List.forall_mem_singleton]
    exact fun _ => Command.respects_append (by decide)

theorem filterCommands_respect (stray : String → String) (config : Config) (marks : Marks)
    (markmask : Option (BitVec 32)) :
    ∀ command ∈ filterCommands stray config marks markmask,
      ∀ tables, command.Respects tables := by
  rw [filterCommands, List.forall_mem_append, List.forall_mem_append]
  refine ⟨⟨?_, inputCommands_respect stray config marks markmask⟩,
    forwardCommands_respect stray config marks markmask⟩
  simp only [List.forall_mem_cons]
  refine ⟨?_, ?_, ?_, ?_, ?_, by simp⟩ <;> exact fun _ => .create (by decide)

/-! ## Probing -/

namespace Tables

theorem put_get (tables : Tables) (table : Table) :
    tables.put (tables.get table) table = tables := by
  cases table <;> rfl

theorem setChain_setChain {tables : Tables} {table : Table} {name : Chain}
    {old : List Entry} (distinct : ((tables.listing table).map Prod.fst).Nodup)
    (present : tables.chain table name = some old) (entries : List Entry) :
    (tables.setChain table name entries).setChain table name old = tables := by
  have same : KeyedList.update ChainContents.name name
      (fun contents => { contents with entries := old }) (tables.get table) =
        tables.get table := by
    rw [KeyedList.update]
    refine (List.map_congr_left ?_).trans (List.map_id _)
    intro contents member
    split
    · next equal =>
        subst equal
        rw [chain_of_mem distinct member, Option.some.injEq] at present
        rw [← present]
        rfl
    · rfl
  have twice : (tables.setChain table name entries).setChain table name old =
      tables.put (KeyedList.update ChainContents.name name
        (fun contents => { contents with entries := old }) (tables.get table)) table := by
    rw [setChain, setChain, get_put_self, KeyedList.update_update]
    · cases table <;> rfl
    · intro contents
      rfl
  rw [twice, same, put_get]

end Tables

theorem tables_of_probe {firewall : Firewall} {table : Table} (name : Chain) (rule : Rule)
    (distinct : ((firewall.tables.listing table).map Prod.fst).Nodup) :
    let tried := iptablesDoCommand firewall (.insert table name 1 rule)
    (tried.1 = 0 → firewall.kernel.exitCode (firewall.issued + 1) = 0 →
      (iptablesDoCommand tried.2 (.deleteNumber table name 1)).2.tables = firewall.tables) ∧
    (tried.1 ≠ 0 → tried.2.tables = firewall.tables) := by
  rcases iptablesDoCommand_cases firewall (.insert table name 1 rule) with
    ⟨tables, applied, equal⟩ | ⟨failed, equal⟩
  · simp only [Tables.apply] at applied
    split at applied
    · cases applied
    · next old present =>
        split at applied
        · cases applied
          have created := Tables.chain_setChain_self present (⟨rule, 0⟩ :: old)
          refine ⟨?_, fun failed => absurd (by rw [equal]) failed⟩
          intro _ deleted
          have applies : (firewall.tables.setChain table name (⟨rule, 0⟩ :: old)).apply
              firewall.kernel (.deleteNumber table name 1) = some firewall.tables := by
            simp only [Tables.apply, created]
            simpa using Tables.setChain_setChain distinct present _
          simp only [equal, List.take_zero, List.drop_zero, List.nil_append, Nat.sub_self]
          simp [iptablesDoCommand, deleted, applies]
        · cases applied
  · refine ⟨fun succeeded => absurd succeeded failed, fun _ => ?_⟩
    rw [equal]

/-- When `_iptables_check_mark_masking` has inserted a rule, the command that
deletes it succeeds. -/
structure Firewall.DeletesProbes (firewall : Firewall) (marks : Marks)
    (mask : BitVec 32) : Prop where
  markop : (iptablesDoCommand firewall
      (.insert .mangle .prerouting 1 ⟨[], .mark .orMark marks.blocked⟩)).1 = 0 →
    firewall.kernel.exitCode (firewall.issued + 1) = 0
  markmask : (iptablesDoCommand (tryMarkop firewall marks)
      (.insert .filter .forward 1 ⟨[.mark marks.blocked (some mask)], .reject none⟩)).1 = 0 →
    firewall.kernel.exitCode ((tryMarkop firewall marks).issued + 1) = 0

theorem tables_iptablesCheckMarkMasking {firewall : Firewall} {marks : Marks} {mask : BitVec 32}
    (distinct : ∀ table, ((firewall.tables.listing table).map Prod.fst).Nodup)
    (deletes : firewall.DeletesProbes marks mask) :
    (iptablesCheckMarkMasking firewall marks mask).2.tables = firewall.tables := by
  have first : (tryMarkop firewall marks).tables = firewall.tables := by
    have probe := tables_of_probe .prerouting ⟨[], .mark .orMark marks.blocked⟩
      (distinct .mangle)
    simp only [tryMarkop]
    split
    · next succeeded => exact probe.1 succeeded (deletes.markop succeeded)
    · next failed => exact probe.2 failed
  have second : (tryMarkmask (tryMarkop firewall marks) marks mask).tables =
      (tryMarkop firewall marks).tables := by
    have distinctFirst := distinct .filter
    rw [← first] at distinctFirst
    have probe := tables_of_probe .forward
      ⟨[.mark marks.blocked (some mask)], .reject none⟩ distinctFirst
    simp only [tryMarkmask]
    split
    · next succeeded =>
        refine probe.1 succeeded ?_
        rw [tryMarkop_kernel]
        exact deletes.markmask succeeded
    · next failed => exact probe.2 failed
  exact second.trans first

/-- The deletions of `iptables_fw_init` succeed. -/
def Firewall.DeletesProbesOfInit (firewall : Firewall) (config : Config) : Prop :=
  minIptablesVersion ≤ firewall.kernel.iptablesVersion →
    firewall.DeletesProbes config.marks
      (if iptablesInitMarks config.marks = 0 then config.marks.mask else 0)

theorem setUpOver_iptablesFwInit {config : Config} {firewall : Firewall}
    (foreign : firewall.tables.IsForeign) (deletes : firewall.DeletesProbesOfInit config)
    (traffic : TrafficControl) :
    firewall.tables.SetUpOver (iptablesFwInit config firewall traffic).2.1.tables := by
  have untouched := Tables.SetUpOver.of_foreign foreign
  simp only [iptablesFwInit]
  split
  · exact untouched
  · split
    · exact untouched
    · next known =>
        have probed := tables_iptablesCheckMarkMasking foreign.distinct (deletes (by omega))
        have first : firewall.tables.SetUpOver (iptablesCheckMarkMasking firewall config.marks
            (if iptablesInitMarks config.marks = 0 then config.marks.mask else 0)).2.tables := by
          rw [probed]
          exact untouched
        generalize (iptablesCheckMarkMasking firewall config.marks
          (if iptablesInitMarks config.marks = 0 then config.marks.mask else 0)).2 = masked
            at first ⊢
        have mangle := Firewall.setUpOver_doCommands first
          (mangleCommands_respect config config.marks masked.markop)
        generalize (iptablesDoCommands masked
          (mangleCommands config config.marks masked.markop)).2 = mangled at mangle ⊢
        have nat : firewall.tables.SetUpOver
            (if config.ip6 then (0, mangled)
            else iptablesDoCommands mangled (natCommands firewall.kernel.stray config
              config.marks mangled.markmask)).2.tables := by
          split
          · exact mangle
          · exact Firewall.setUpOver_doCommands mangle (natCommands_respect _ _ _ _)
        generalize (if config.ip6 then (0, mangled)
          else iptablesDoCommands mangled (natCommands firewall.kernel.stray config
            config.marks mangled.markmask)) = natural at nat ⊢
        dsimp only
        exact Firewall.setUpOver_doCommands nat (filterCommands_respect _ _ _ _)

theorem iptablesFwInit_kernel (config : Config) (firewall : Firewall)
    (traffic : TrafficControl) :
    (iptablesFwInit config firewall traffic).2.1.kernel = firewall.kernel := by
  have masking (mask : BitVec 32) :
      (iptablesCheckMarkMasking firewall config.marks mask).2.kernel = firewall.kernel :=
    (tryMarkmask_kernel _ _ _).trans (tryMarkop_kernel _ _)
  simp only [iptablesFwInit]
  split
  · rfl
  · split
    · rfl
    · rw [iptablesDoCommands_kernel]
      split
      · rw [iptablesDoCommands_kernel, masking]
      · rw [iptablesDoCommands_kernel, iptablesDoCommands_kernel, masking]

/-! ## Running -/

namespace Gateway

theorem setUpOver_countBytes {initial : Tables} {gateway : Gateway}
    (setUp : initial.SetUpOver gateway.firewall.tables) (table : Table) (chain : Chain)
    (number bytes : Nat) :
    initial.SetUpOver (gateway.countBytes table chain number bytes).firewall.tables := by
  have counted (other : Table) :
      (gateway.countBytes table chain number bytes).firewall.tables.listing other =
        gateway.firewall.tables.listing other := by
    by_cases same : other = table
    · subst same
      have rules := Gateway.rules_countBytes gateway other chain number bytes other chain
      rw [countBytes, Tables.listing_setChain]
      refine Overlay.put_same ?_
      rintro part member rfl
      rcases Option.isSome_iff_exists.mp (Tables.isSome_chain_iff.mpr
        (List.mem_map_of_mem member)) with ⟨entries, present⟩
      rw [← Tables.rules_of_mem_listing (setUp.distinct other) member, ← rules]
      exact Tables.rules_of_chain (Tables.chain_setChain_self present _)
    · exact Tables.listing_put_of_ne _ _ same
  refine ⟨?_, ?_, ?_, ?_⟩
  · intro other
    rw [counted]
    exact setUp.distinct other
  · intro other
    rw [counted]
    exact setUp.rest other
  · intro other name own present
    rw [Tables.isSome_chain_iff, counted, ← Tables.isSome_chain_iff] at present
    exact setUp.chains other name own present
  · intro other name others rule member
    rw [Gateway.rules_countBytes] at member
    exact setUp.jumps other name others rule member

theorem setUpOver_editMacList {initial : Tables} {gateway : Gateway}
    (setUp : initial.SetUpOver gateway.firewall.tables) {edited : Int × Config}
    {command : Command} (notNew : ∀ table name, command ≠ .newChain table name)
    (own : command.place.2 ∈ ndsChains) :
    initial.SetUpOver (gateway.editMacList edited fun firewall =>
      iptablesDoCommand firewall command).2.firewall.tables := by
  simp only [editMacList]
  split
  · exact Firewall.setUpOver_doCommand setUp (.edit notNew own)
  · exact setUp

theorem setUpOver_iptablesFwDeauthenticate {initial : Tables} {gateway : Gateway}
    (setUp : initial.SetUpOver gateway.firewall.tables) (client : Client) :
    initial.SetUpOver (gateway.iptablesFwDeauthenticate client).2.firewall.tables := by
  rw [iptablesFwDeauthenticate_firewall]
  refine Firewall.setUpOver_doCommands setUp ?_
  rw [List.forall_mem_cons, List.forall_mem_map]
  exact ⟨fun _ => .edit (fun _ _ => nofun) (show .outgoing ∈ ndsChains by decide),
    fun _ _ _ => .edit (fun _ _ => nofun) (show .incoming ∈ ndsChains by decide)⟩

/-- Nothing the running daemon does concerns the rules of others. -/
theorem Transition.setUpOver {permits : Permissions} {initial : Tables} {gateway next : Gateway}
    (transition : Transition permits gateway next)
    (setUp : initial.SetUpOver gateway.firewall.tables) :
    initial.SetUpOver next.firewall.tables := by
  cases transition with
  | clock | authentications | delete | count | assign => exact setUp
  | bytes table chain number bytes => exact setUpOver_countBytes setUp table chain number bytes
  | add _ _ _ added =>
      rcases clientListAppend_eq added with ⟨_, _, rfl⟩
      exact setUp
  | authenticate =>
      rw [enterAuthenticated_firewall, iptablesFwAuthenticate_firewall]
      refine Firewall.setUpOver_doCommands setUp ?_
      rw [List.forall_mem_cons, List.forall_mem_map]
      exact ⟨fun _ => Command.respects_append (by decide),
        fun _ _ _ => Command.respects_append (by decide)⟩
  | deauthenticate =>
      rw [leaveAuthenticated_firewall]
      exact setUpOver_iptablesFwDeauthenticate setUp _
  | block =>
      rw [leaveBlocked_firewall]
      refine setUpOver_editMacList ?_ (fun _ _ => nofun) (show .blocked ∈ ndsChains by decide)
      exact setUpOver_iptablesFwDeauthenticate setUp _
  | editMacs mac command =>
      cases command with
      | trust | untrust =>
          exact setUpOver_editMacList setUp (fun _ _ => nofun) (show .trusted ∈ ndsChains by decide)
      | allow | unallow | block | unblock =>
          exact setUpOver_editMacList setUp (fun _ _ => nofun) (show .blocked ∈ ndsChains by decide)

theorem Transitions.setUpOver {permits : Permissions} {initial : Tables}
    {gateway next : Gateway} (transitions : Transitions permits gateway next)
    (setUp : initial.SetUpOver gateway.firewall.tables) :
    initial.SetUpOver next.firewall.tables := by
  induction transitions with
  | refl => exact setUp
  | tail _ transition induction => exact transition.setUpOver induction

end Gateway

/-! ## Removing -/

structure Firewall.Shrinks (before after : Firewall) : Prop where
  kernel : after.kernel = before.kernel
  issued : before.issued ≤ after.issued
  rules : ∀ table name,
    (after.tables.rules table name).Sublist (before.tables.rules table name)
  chains : ∀ table name, (after.tables.chain table name).isSome = true →
    (before.tables.chain table name).isSome = true

def Command.removes : Command → Bool
  | .deleteNumber _ _ _ | .flush _ _ | .deleteChain _ _ => true
  | _ => false

/-- From here on no command fails by itself. -/
def Firewall.ExitsWell (firewall : Firewall) : Prop :=
  ∀ number, firewall.issued ≤ number → firewall.kernel.exitCode number = 0

namespace Firewall.Shrinks

theorem refl (firewall : Firewall) : firewall.Shrinks firewall :=
  ⟨rfl, le_rfl, fun _ _ => List.Sublist.refl _, fun _ _ present => present⟩

theorem trans {first second third : Firewall} (left : first.Shrinks second)
    (right : second.Shrinks third) : first.Shrinks third where
  kernel := right.kernel.trans left.kernel
  issued := left.issued.trans right.issued
  rules := fun table name => (right.rules table name).trans (left.rules table name)
  chains := fun table name present => left.chains table name (right.chains table name present)

theorem exitsWell {before after : Firewall} (shrinks : before.Shrinks after)
    (exits : before.ExitsWell) : after.ExitsWell := by
  intro number issued
  rw [shrinks.kernel]
  exact exits number (shrinks.issued.trans issued)

theorem doCommand (firewall : Firewall) {command : Command} (removes : command.removes = true) :
    firewall.Shrinks (iptablesDoCommand firewall command).2 := by
  rcases iptablesDoCommand_cases firewall command with ⟨tables, applied, equal⟩ | ⟨_, equal⟩
  · rw [equal]
    refine ⟨rfl, Nat.le_succ _, ?_, ?_⟩
    · intro table name
      rw [Tables.rules_apply applied, Command.effect.eq_def]
      split
      · exact List.Sublist.refl _
      · cases command with
        | deleteNumber => exact List.eraseIdx_sublist _ _
        | flush | deleteChain => exact List.nil_sublist _
        | newChain | append | insert | delete => cases removes
    · intro table name present
      rcases Tables.isSome_of_apply applied present with old | rfl
      · exact old
      · cases removes
  · rw [equal]
    exact ⟨rfl, Nat.le_succ _, fun _ _ => List.Sublist.refl _, fun _ _ present => present⟩

theorem doCommands (firewall : Firewall) {commands : List Command}
    (remove : ∀ command ∈ commands, command.removes = true) :
    firewall.Shrinks (iptablesDoCommands firewall commands).2 := by
  induction commands generalizing firewall with
  | nil => exact refl firewall
  | cons command commands induction =>
      rw [iptablesDoCommands_cons]
      exact (doCommand firewall (remove command List.mem_cons_self)).trans
        (induction _ fun other member => remove other (List.mem_cons_of_mem _ member))

end Firewall.Shrinks

theorem tables_iptablesDoCommand {firewall : Firewall} {command : Command} {tables : Tables}
    (exits : firewall.kernel.exitCode firewall.issued = 0)
    (applied : firewall.tables.apply firewall.kernel command = some tables) :
    (iptablesDoCommand firewall command).2.tables = tables := by
  simp [iptablesDoCommand, exits, applied]

theorem rules_deleteNumber {firewall : Firewall} {table : Table} {chain : Chain} {index : Nat}
    (exits : firewall.kernel.exitCode firewall.issued = 0)
    (inRange : index < (firewall.tables.rules table chain).length) :
    (iptablesDoCommand firewall (.deleteNumber table chain (index + 1))).2.tables.rules
      table chain = (firewall.tables.rules table chain).eraseIdx index := by
  cases present : firewall.tables.chain table chain with
  | none => simp [Tables.rules, present] at inRange
  | some entries =>
      rw [Tables.rules_of_chain present, List.length_map] at inRange
      have applied : firewall.tables.apply firewall.kernel
          (.deleteNumber table chain (index + 1)) =
            some (firewall.tables.setChain table chain (entries.eraseIdx index)) := by
        simp only [Tables.apply, present, Nat.add_sub_cancel]
        exact if_pos (by simpa using Nat.succ_le_of_lt inRange)
      rw [tables_iptablesDoCommand exits applied, Tables.rules_apply applied, Command.effect,
        if_neg (by simp [Command.place]), Nat.add_sub_cancel]

theorem iptablesFwDestroyMention_removes {initial : Tables} {table : Table} {chain target : Chain}
    (own : target ∈ ndsChains) {fuel : Nat} {firewall : Firewall}
    (setUp : initial.SetUpOver firewall.tables) (exits : firewall.ExitsWell)
    (enough : (firewall.tables.rules table chain).length < fuel) :
    ∃ after, iptablesFwDestroyMention fuel firewall table chain target.name = some after ∧
      initial.SetUpOver after.tables ∧ firewall.Shrinks after ∧
      ∀ rule ∈ after.tables.rules table chain, rule.mentions target.name = false := by
  induction fuel generalizing firewall with
  | zero => omega
  | succ fuel induction =>
      rw [iptablesFwDestroyMention]
      split
      · next nowhere =>
          refine ⟨firewall, rfl, setUp, .refl firewall, ?_⟩
          simpa using List.findIdx?_eq_none_iff.mp nowhere
      · next index found =>
          rcases List.findIdx?_eq_some_iff_getElem.mp found with ⟨inRange, mentions, _⟩
          have respects : (Command.deleteNumber table chain (index + 1)).Respects
              firewall.tables := by
            refine .unhook ?_
            intro rule atIndex
            have same : (firewall.tables.rules table chain)[index] = rule := by
              simpa [inRange] using atIndex
            rw [← same]
            exact mentionsDaemon_of_mentions own mentions
          have shrinks : firewall.Shrinks (iptablesDoCommand firewall
              (.deleteNumber table chain (index + 1))).2 := .doCommand firewall rfl
          have fewer : ((iptablesDoCommand firewall
              (.deleteNumber table chain (index + 1))).2.tables.rules table chain).length <
                fuel := by
            have deleted := rules_deleteNumber (exits _ le_rfl) inRange
            rw [deleted, List.length_eraseIdx_of_lt inRange]
            omega
          rcases induction (Firewall.setUpOver_doCommand setUp respects)
            (shrinks.exitsWell exits) fewer with ⟨after, returned, stillOver, others, gone⟩
          exact ⟨after, returned, stillOver, shrinks.trans others, gone⟩

theorem iptablesFwDestroyMentions_remove {initial : Tables} {table : Table}
    {places : List (Chain × Chain)} (own : ∀ place ∈ places, place.2 ∈ ndsChains) {fuel : Nat}
    {firewall : Firewall} (setUp : initial.SetUpOver firewall.tables) (exits : firewall.ExitsWell)
    (enough : ∀ place ∈ places, (firewall.tables.rules table place.1).length < fuel) :
    ∃ after, iptablesFwDestroyMentions fuel table places firewall = some after ∧
      initial.SetUpOver after.tables ∧ firewall.Shrinks after ∧
      ∀ place ∈ places, ∀ rule ∈ after.tables.rules table place.1,
        rule.mentions place.2.name = false := by
  induction places generalizing firewall with
  | nil => exact ⟨firewall, rfl, setUp, .refl firewall, by simp⟩
  | cons place places induction =>
      rcases place with ⟨chain, target⟩
      rcases iptablesFwDestroyMention_removes (own _ List.mem_cons_self) setUp exits
        (enough _ List.mem_cons_self) with ⟨middle, first, stillOver, shrinks, gone⟩
      have enoughLeft : ∀ place ∈ places, (middle.tables.rules table place.1).length < fuel :=
        fun place member => lt_of_le_of_lt (shrinks.rules table place.1).length_le
          (enough place (List.mem_cons_of_mem _ member))
      rcases induction (fun place member => own place (List.mem_cons_of_mem _ member)) stillOver
        (shrinks.exitsWell exits) enoughLeft with ⟨after, rest, finallyOver, others, allGone⟩
      refine ⟨after, ?_, finallyOver, shrinks.trans others, ?_⟩
      · simp only [iptablesFwDestroyMentions, first, Option.bind_eq_bind, Option.bind_some, rest]
      · rw [List.forall_mem_cons]
        refine ⟨?_, allGone⟩
        intro rule member
        exact gone rule ((others.rules table chain).subset member)

theorem rules_flush {firewall : Firewall} (table : Table) (chain : Chain)
    (exits : firewall.ExitsWell) :
    (iptablesDoCommand firewall (.flush table chain)).2.tables.rules table chain = [] := by
  cases present : firewall.tables.chain table chain with
  | none =>
      have refused : firewall.tables.apply firewall.kernel (.flush table chain) = none := by
        simp only [Tables.apply, present]
      simp [iptablesDoCommand, exits _ le_rfl, refused, Tables.rules, present]
  | some entries =>
      have applied : firewall.tables.apply firewall.kernel (.flush table chain) =
          some (firewall.tables.setChain table chain []) := by
        simp only [Tables.apply, present]
      rw [tables_iptablesDoCommand (exits _ le_rfl) applied, Tables.rules_apply applied,
        Command.effect, if_neg (by simp [Command.place])]

theorem rules_flushes {firewall : Firewall} {table : Table} {chains : List Chain}
    (exits : firewall.ExitsWell) :
    ∀ name ∈ chains, (iptablesDoCommands firewall (chains.map (.flush table))).2.tables.rules
      table name = [] := by
  induction chains generalizing firewall with
  | nil => simp
  | cons chain chains induction =>
      have first : firewall.Shrinks (iptablesDoCommand firewall (.flush table chain)).2 :=
        .doCommand firewall rfl
      have rest : (iptablesDoCommand firewall (.flush table chain)).2.Shrinks
          (iptablesDoCommands (iptablesDoCommand firewall (.flush table chain)).2
            (chains.map (.flush table))).2 :=
        .doCommands _ (by simp [Command.removes])
      rw [List.forall_mem_cons, List.map_cons, iptablesDoCommands_cons]
      refine ⟨?_, induction (first.exitsWell exits)⟩
      have nothing := rest.rules table chain
      rw [rules_flush table chain exits] at nothing
      exact List.sublist_nil.mp nothing

theorem Tables.references_eq_false {tables : Tables} {table : Table} {chain : Chain}
    (distinct : ((tables.listing table).map Prod.fst).Nodup)
    (free : ∀ name, ∀ rule ∈ tables.rules table name, rule.target ≠ .jump chain) :
    tables.references table chain = false := by
  rw [references, List.any_eq_false]
  intro contents inTable
  rw [Bool.not_eq_true, List.any_eq_false]
  intro entry inChain jumps
  refine free contents.name entry.rule ?_ (of_decide_eq_true jumps)
  rw [rules_of_chain (chain_of_mem distinct inTable)]
  exact List.mem_map_of_mem inChain

theorem chain_deleteChain {firewall : Firewall} {table : Table} {chain : Chain}
    (exits : firewall.ExitsWell)
    (distinct : ((firewall.tables.listing table).map Prod.fst).Nodup)
    (bare : firewall.tables.rules table chain = [])
    (free : ∀ name, ∀ rule ∈ firewall.tables.rules table name, rule.target ≠ .jump chain) :
    (iptablesDoCommand firewall (.deleteChain table chain)).2.tables.chain table chain = none := by
  cases present : firewall.tables.chain table chain with
  | none =>
      have refused : firewall.tables.apply firewall.kernel (.deleteChain table chain) = none := by
        simp only [Tables.apply, present]
      simp [iptablesDoCommand, exits _ le_rfl, refused, present]
  | some entries =>
      rw [Tables.rules_of_chain present, List.map_eq_nil_iff] at bare
      have applied : firewall.tables.apply firewall.kernel (.deleteChain table chain) =
          some (firewall.tables.dropChain table chain) := by
        simp only [Tables.apply, present]
        exact if_pos (by simp [bare, Tables.references_eq_false distinct free])
      rw [tables_iptablesDoCommand (exits _ le_rfl) applied]
      exact Tables.chain_dropChain_self _ _ _

theorem chains_deleteChains {table : Table} {chains : List Chain} {initial : Tables}
    (own : ∀ name ∈ chains, name ∈ ndsChains) {firewall : Firewall}
    (setUp : initial.SetUpOver firewall.tables) (exits : firewall.ExitsWell)
    (bare : ∀ name ∈ chains, firewall.tables.rules table name = [])
    (free : ∀ name, ∀ rule ∈ firewall.tables.rules table name,
      ∀ chain ∈ chains, rule.target ≠ .jump chain) :
    ∀ name ∈ chains, (iptablesDoCommands firewall
      (chains.map (.deleteChain table))).2.tables.chain table name = none := by
  induction chains generalizing firewall with
  | nil => simp
  | cons chain chains induction =>
      have first : firewall.Shrinks (iptablesDoCommand firewall (.deleteChain table chain)).2 :=
        .doCommand firewall rfl
      have rest : (iptablesDoCommand firewall (.deleteChain table chain)).2.Shrinks
          (iptablesDoCommands (iptablesDoCommand firewall (.deleteChain table chain)).2
            (chains.map (.deleteChain table))).2 :=
        .doCommands _ (by simp [Command.removes])
      have respects : (Command.deleteChain table chain).Respects firewall.tables :=
        .edit (fun _ _ => nofun) (own chain List.mem_cons_self)
      rw [List.forall_mem_cons, List.map_cons, iptablesDoCommands_cons]
      constructor
      · have deleted : (iptablesDoCommand firewall (.deleteChain table chain)).2.tables.chain
            table chain = none :=
          chain_deleteChain exits (setUp.distinct table) (bare chain List.mem_cons_self)
            fun name rule member => free name rule member chain List.mem_cons_self
        rw [← Option.not_isSome_iff_eq_none] at deleted ⊢
        exact fun present => deleted (rest.chains table chain present)
      · refine induction (fun name member => own name (List.mem_cons_of_mem _ member))
          (Firewall.setUpOver_doCommand setUp respects) (first.exitsWell exits) ?_ ?_
        · intro name member
          have nothing := first.rules table name
          rw [bare name (List.mem_cons_of_mem _ member)] at nothing
          exact List.sublist_nil.mp nothing
        · intro name rule member other inRest
          exact free name rule ((first.rules table name).subset member) other
            (List.mem_cons_of_mem _ inRest)

structure Tables.Cleared (tables : Tables) (table : Table) : Prop where
  chains : ∀ name ∈ ndsChains, tables.chain table name = none
  rules : ∀ name, ∀ rule ∈ tables.rules table name, rule.mentionsDaemon = false

theorem Tables.Cleared.shrinks {before after : Firewall} {table : Table}
    (cleared : before.tables.Cleared table) (shrinks : before.Shrinks after) :
    after.tables.Cleared table where
  chains := by
    intro name own
    rw [← Option.not_isSome_iff_eq_none]
    intro present
    have old := shrinks.chains table name present
    rw [cleared.chains name own] at old
    cases old
  rules := fun name rule member =>
    cleared.rules name rule ((shrinks.rules table name).subset member)

theorem destroyTable_clears {initial : Tables} (table : Table) {fuel : Nat} {firewall : Firewall}
    (setUp : initial.SetUpOver firewall.tables) (exits : firewall.ExitsWell)
    (enough : ∀ place ∈ hooks table, (firewall.tables.rules table place.1).length < fuel) :
    ∃ after, destroyTable fuel table (hooks table) (daemonChains table) firewall = some after ∧
      initial.SetUpOver after.tables ∧ firewall.Shrinks after ∧ after.tables.Cleared table := by
  rcases iptablesFwDestroyMentions_remove (fun place member =>
    mem_ndsChains_of_daemonChains (mem_daemonChains_of_hooks member)) setUp exits enough with
    ⟨middle, returned, middleOver, toMiddle, gone⟩
  let flushed := (iptablesDoCommands middle ((daemonChains table).map (.flush table))).2
  let after := (iptablesDoCommands flushed ((daemonChains table).map (.deleteChain table))).2
  have own : ∀ name ∈ daemonChains table, name ∈ ndsChains :=
    fun name => mem_ndsChains_of_daemonChains
  have exitsMiddle : middle.ExitsWell := toMiddle.exitsWell exits
  have toFlushed : middle.Shrinks flushed := .doCommands middle (by simp [Command.removes])
  have flushedOver : initial.SetUpOver flushed.tables := by
    refine Firewall.setUpOver_doCommands middleOver ?_
    rw [List.forall_mem_map]
    exact fun name member _ => .edit (fun _ _ => nofun) (own name member)
  have toAfter : flushed.Shrinks after := .doCommands flushed (by simp [Command.removes])
  have afterOver : initial.SetUpOver after.tables := by
    refine Firewall.setUpOver_doCommands flushedOver ?_
    rw [List.forall_mem_map]
    exact fun name member _ => .edit (fun _ _ => nofun) (own name member)
  have empty : ∀ name ∈ daemonChains table, flushed.tables.rules table name = [] :=
    rules_flushes exitsMiddle
  have unmentioned (name : Chain) (rule : Rule)
      (member : rule ∈ flushed.tables.rules table name) : rule.mentionsDaemon = false := by
    by_cases daemons : name ∈ ndsChains
    · cases present : flushed.tables.chain table name with
      | none => simp [Tables.rules, present] at member
      | some entries =>
          have inTable := flushedOver.chains table name daemons (by simp [present])
          rw [empty name inTable] at member
          cases member
    · cases mentions : rule.mentionsDaemon with
      | false => rfl
      | true =>
          rcases flushedOver.jumps table name daemons rule member mentions with
            ⟨target, hook, jump⟩
          have before := (toFlushed.rules table name).subset member
          have absent := gone _ hook rule before
          rw [mentions_of_jump jump] at absent
          cases absent
  have deleted : ∀ name ∈ daemonChains table, after.tables.chain table name = none := by
    refine chains_deleteChains own flushedOver (toFlushed.exitsWell exitsMiddle) empty ?_
    intro name rule member chain inTable jump
    have mentions := mentionsDaemon_of_mentions (own chain inTable) (mentions_of_jump jump)
    rw [unmentioned name rule member] at mentions
    cases mentions
  refine ⟨after, ?_, afterOver, (toMiddle.trans toFlushed).trans toAfter, ?_, ?_⟩
  · rw [destroyTable, returned, removeChains, Option.map_some, iptablesDoCommands_append]
  · intro name daemons
    rw [← Option.not_isSome_iff_eq_none]
    intro present
    rw [deleted name (afterOver.chains table name daemons present)] at present
    cases present
  · exact fun name rule member =>
      unmentioned name rule ((toAfter.rules table name).subset member)

theorem iptablesFwDestroy_clears {initial : Tables} {config : Config} {firewall : Firewall}
    (setUp : initial.SetUpOver firewall.tables) (exits : firewall.ExitsWell)
    (ip4 : config.ip6 = false) {fuel : Nat}
    (enough : ∀ table, ∀ place ∈ hooks table,
      (firewall.tables.rules table place.1).length < fuel) (traffic : TrafficControl) :
    ∃ after removed, iptablesFwDestroy fuel config firewall traffic = some (after, removed) ∧
      initial.SetUpOver after.tables ∧ ∀ table, after.tables.Cleared table := by
  rcases destroyTable_clears .mangle setUp exits (enough .mangle) with
    ⟨first, mangle, firstOver, toFirst, firstCleared⟩
  have enoughFor {middle : Firewall} (shrinks : firewall.Shrinks middle) (table : Table)
      (place : Chain × Chain) (hook : place ∈ hooks table) :
      (middle.tables.rules table place.1).length < fuel :=
    lt_of_le_of_lt (shrinks.rules table place.1).length_le (enough table place hook)
  rcases destroyTable_clears .nat firstOver (toFirst.exitsWell exits)
    (enoughFor toFirst .nat) with ⟨second, nat, secondOver, toSecond, secondCleared⟩
  have soFar := toFirst.trans toSecond
  rcases destroyTable_clears .filter secondOver (soFar.exitsWell exits)
    (enoughFor soFar .filter) with ⟨third, filter, thirdOver, toThird, thirdCleared⟩
  refine ⟨third, if config.trafficControl then (tcDestroyTc config traffic).2 else traffic, ?_,
    thirdOver, ?_⟩
  · simp only [hooks, daemonChains] at mangle nat filter
    simp only [iptablesFwDestroy, mangle, ip4, nat, filter, Option.bind_eq_bind, Option.bind_some,
      Bool.false_eq_true, if_false]
    rfl
  · intro table
    cases table with
    | mangle => exact (firstCleared.shrinks toSecond).shrinks toThird
    | nat => exact secondCleared.shrinks toThird
    | filter => exact thirdCleared

theorem Tables.SetUpOver.listing_of_cleared {initial tables : Tables}
    (setUp : initial.SetUpOver tables) (cleared : ∀ table, tables.Cleared table) (table : Table) :
    tables.listing table = initial.listing table := by
  rw [← setUp.rest]
  refine (Overlay.rest_eq_self ?_ ?_).symm
  · intro part member
    by_contra own
    have present := isSome_chain_iff.mpr (List.mem_map_of_mem member)
    rw [(cleared table).chains part.1 (by simpa [daemons] using own)] at present
    cases present
  · intro part member rule inPart
    rw [← rules_of_mem_listing (setUp.distinct table) member] at inPart
    exact (cleared table).rules part.1 rule inPart

/-- `iptables_fw_destroy` undoes `iptables_fw_init`: on tables without a trace of
the daemon, whichever commands of the initialization other than deletions fail
and whatever the daemon does in between, the tables are in the end as they were. -/
theorem teardown_undoes_setup {permits : Permissions} {config : Config} {firewall : Firewall}
    {traffic : TrafficControl} {gateway final : Gateway}
    (foreign : firewall.tables.IsForeign) (ip4 : config.ip6 = false)
    (deletes : firewall.DeletesProbesOfInit config)
    (installed : gateway.firewall = (iptablesFwInit config firewall traffic).2.1)
    (settings : gateway.config = config) (between : Gateway.Transitions permits gateway final)
    (exits : final.firewall.ExitsWell) :
    ∃ enough, ∀ fuel, enough ≤ fuel →
      ∃ destroyed removed, iptablesFwDestroy fuel final.config final.firewall final.traffic =
          some (destroyed, removed) ∧
        (∀ table, destroyed.tables.listing table = firewall.tables.listing table) ∧
        (∀ table, ∀ name ∈ ndsChains, destroyed.tables.chain table name = none) ∧
        ∀ table, ∀ part ∈ destroyed.tables.listing table, ∀ rule ∈ part.2,
          ∀ name ∈ ndsChains, rule.target ≠ .jump name := by
  have started : firewall.tables.SetUpOver gateway.firewall.tables := by
    rw [installed]
    exact setUpOver_iptablesFwInit foreign deletes traffic
  have setUp := between.setUpOver started
  have still : final.config.ip6 = false := by
    rw [between.follows.settings.ip6, settings, ip4]
  have bound (table : Table) : ∃ bound, ∀ place ∈ hooks table,
      (final.firewall.tables.rules table place.1).length < bound :=
    ⟨((hooks table).map fun place => (final.firewall.tables.rules table place.1).length).sum + 1,
      fun place hook => Nat.lt_succ_of_le (List.le_sum_of_mem
        (List.mem_map.mpr ⟨place, hook, rfl⟩))⟩
  rcases bound .mangle with ⟨mangle, enoughMangle⟩
  rcases bound .nat with ⟨nat, enoughNat⟩
  rcases bound .filter with ⟨filter, enoughFilter⟩
  refine ⟨mangle + nat + filter, fun fuel enough => ?_⟩
  have enoughAll (table : Table) (place : Chain × Chain) (hook : place ∈ hooks table) :
      (final.firewall.tables.rules table place.1).length < fuel := by
    cases table with
    | mangle => exact lt_of_lt_of_le (enoughMangle place hook) (by omega)
    | nat => exact lt_of_lt_of_le (enoughNat place hook) (by omega)
    | filter => exact lt_of_lt_of_le (enoughFilter place hook) (by omega)
  rcases iptablesFwDestroy_clears setUp exits still enoughAll final.traffic with
    ⟨destroyed, removed, returned, destroyedOver, cleared⟩
  refine ⟨destroyed, removed, returned, destroyedOver.listing_of_cleared cleared,
    fun table => (cleared table).chains, ?_⟩
  intro table part member rule inPart name own jump
  rw [← Tables.rules_of_mem_listing (destroyedOver.distinct table) member] at inPart
  have mentions := mentionsDaemon_of_mentions own (mentions_of_jump jump)
  rw [(cleared table).rules part.1 rule inPart] at mentions
  cases mentions

def sharedTables : Tables where
  mangle := [⟨.prerouting, [⟨⟨[.protocol "udp"], .accept⟩, 0⟩]⟩, ⟨.input, []⟩, ⟨.forward, []⟩,
    ⟨.postrouting, [⟨⟨[], .jump (.foreign "qos")⟩, 0⟩]⟩, ⟨.foreign "qos", []⟩]
  nat := [⟨.prerouting, []⟩, ⟨.input, []⟩, ⟨.postrouting, []⟩]
  filter := [⟨.input, [⟨⟨[.source "10.0.0.1"], .drop⟩, 0⟩]⟩, ⟨.forward, []⟩]

/-- Before the initialization, of which three commands are going to fail. -/
def sharedFirewall : Firewall where
  kernel := { willingKernel with
    exitCode number := if number = 4 ∨ number = 12 ∨ number = 20 then 1 else 0 }
  tables := sharedTables
  issued := 0
  markop := .setMark
  markmask := none

def sharedGateway : Gateway :=
  { defaultGateway with
    config := defaultConfig
    firewall := (iptablesFwInit defaultConfig sharedFirewall ⟨fun _ => 0, []⟩).2.1 }

theorem teardown_undoes_setup_shared :
    let final := (sharedGateway.editMacs "00:16:3e:00:00:01" .block).editMacs
      "00:16:3e:00:00:02" .trust
    (sharedFirewall.tables.listing .mangle).length ≠
      (final.firewall.tables.listing .mangle).length ∧
    ∃ enough, ∀ fuel, enough ≤ fuel →
      ∃ destroyed removed, iptablesFwDestroy fuel final.config final.firewall final.traffic =
          some (destroyed, removed) ∧
        (∀ table, destroyed.tables.listing table = sharedFirewall.tables.listing table) ∧
        (∀ table, ∀ name ∈ ndsChains, destroyed.tables.chain table name = none) ∧
        ∀ table, ∀ part ∈ destroyed.tables.listing table, ∀ rule ∈ part.2,
          ∀ name ∈ ndsChains, rule.target ≠ .jump name := by
  have foreign : sharedFirewall.tables.IsForeign := by
    refine ⟨?_, ?_, ?_⟩
    · intro table
      cases table <;> decide +kernel
    · intro table
      cases table <;> decide +kernel
    · intro table
      cases table <;> decide +kernel
  have between : Gateway.Transitions (.all .counters) sharedGateway
      ((sharedGateway.editMacs "00:16:3e:00:00:01" .block).editMacs "00:16:3e:00:00:02" .trust) :=
    .tail (.single (.editMacs _ _ _ trivial)) (.editMacs _ _ _ trivial)
  have issued : ((sharedGateway.editMacs "00:16:3e:00:00:01" .block).editMacs
      "00:16:3e:00:00:02" .trust).firewall.issued > 20 := by
    decide +kernel
  have kernel : ((sharedGateway.editMacs "00:16:3e:00:00:01" .block).editMacs
      "00:16:3e:00:00:02" .trust).firewall.kernel = sharedFirewall.kernel :=
    (between.follows.firewall.kernel).trans (iptablesFwInit_kernel _ _ _)
  have exits : ((sharedGateway.editMacs "00:16:3e:00:00:01" .block).editMacs
      "00:16:3e:00:00:02" .trust).firewall.ExitsWell := by
    intro number later
    rw [kernel]
    exact if_neg (by omega)
  have deletes : sharedFirewall.DeletesProbesOfInit defaultConfig :=
    fun _ => ⟨by decide +kernel, by decide +kernel⟩
  have installed : sharedGateway.firewall =
      (iptablesFwInit defaultConfig sharedFirewall ⟨fun _ => 0, []⟩).2.1 := rfl
  have changed : (sharedFirewall.tables.listing .mangle).length ≠
      (((sharedGateway.editMacs "00:16:3e:00:00:01" .block).editMacs
        "00:16:3e:00:00:02" .trust).firewall.tables.listing .mangle).length := by
    decide +kernel
  exact ⟨changed, teardown_undoes_setup foreign rfl deletes installed rfl between exits⟩

end Nodogsplash
