import Nodogsplash.Foundation.KeyedList
import Nodogsplash.Foundation.RuleChain
import Nodogsplash.Text

/-! # iptables

The tables the daemon writes to, the commands it runs on them and what a
packet meets when it traverses a chain. A command that fails has no effect. -/

namespace Nodogsplash

/-! ## Rules -/

inductive Table
  | mangle
  | nat
  | filter
  deriving DecidableEq

/-- The built-in chains the daemon hooks into, its own chains under their
macro names, and the chains of other programs. -/
inductive Chain
  | prerouting
  | postrouting
  | input
  | forward
  | toInternet
  | toRouter
  | trustedToRouter
  | outgoing
  | incoming
  | authenticated
  | blocked
  | allowed
  | trusted
  | foreign (name : String)
  deriving DecidableEq

def Chain.name : Chain → String
  | .prerouting => "PREROUTING"
  | .postrouting => "POSTROUTING"
  | .input => "INPUT"
  | .forward => "FORWARD"
  | .toInternet => "ndsNET"
  | .toRouter => "ndsRTR"
  | .trustedToRouter => "ndsTRT"
  | .outgoing => "ndsOUT"
  | .incoming => "ndsINC"
  | .authenticated => "ndsAUT"
  | .blocked => "ndsBLK"
  | .allowed => "ndsALW"
  | .trusted => "ndsTRU"
  | .foreign name => name

/-- `--set-mark` replaces the packet mark, `--or-mark` ORs into it. -/
inductive MarkOp
  | setMark
  | orMark
  deriving DecidableEq

def MarkOp.apply : MarkOp → BitVec 32 → BitVec 32 → BitVec 32
  | .setMark, value, _ => value
  | .orMark, value, mark => mark ||| value

/-- One match of a rule. An ethernet address is kept as iptables reads it from
the text of the command. A mark match without mask compares all bits. -/
inductive Match
  | inInterface (device : String)
  | outInterface (device : String)
  | source (address : String)
  | destination (address : String)
  | macSource (address : Option EtherAddr)
  | mark (value : BitVec 32) (mask : Option (BitVec 32))
  | ctstateInvalid
  | ctstateRelatedEstablished
  | protocol (name : String)
  | destinationPort (ports : String)
  | synWithoutRst
  | synWithoutMssOption
  | setMember (set : String)
  deriving DecidableEq

inductive Target
  | accept
  | drop
  | reject (kind : Option String)
  | leave
  | log
  | ulog
  | mark (op : MarkOp) (value : BitVec 32)
  | tcpmss (value : Option Int)
  | dnat (destination : String)
  | jump (chain : Chain)
  deriving DecidableEq

structure Rule where
  conditions : List Match
  target : Target
  deriving DecidableEq

/-- A rule in a chain with its byte counter. -/
structure Entry where
  rule : Rule
  bytes : Nat
  deriving DecidableEq

/-! ## Packets -/

/-- `-m conntrack --ctstate`. -/
inductive Conntrack
  | new
  | established
  | related
  | invalid
  deriving DecidableEq

/-- What the matches can see of a packet, its mark apart. -/
structure Packet where
  inInterface : String
  outInterface : String
  sourceIn : String → Bool
  destinationIn : String → Bool
  macSource : EtherAddr
  conntrack : Conntrack
  protocolIs : String → Bool
  destinationPortIn : String → Bool
  synWithoutRst : Bool
  synWithoutMssOption : Bool
  inSet : String → Bool

def Match.holds (packet : Packet) (packetMark : BitVec 32) : Match → Bool
  | .inInterface device => packet.inInterface = device
  | .outInterface device => packet.outInterface = device
  | .source address => packet.sourceIn address
  | .destination address => packet.destinationIn address
  | .macSource address => address = some packet.macSource
  | .mark value mask => packetMark &&& mask.getD (BitVec.allOnes 32) = value
  | .ctstateInvalid => packet.conntrack = .invalid
  | .ctstateRelatedEstablished =>
      packet.conntrack = .related || packet.conntrack = .established
  | .protocol name => packet.protocolIs name
  | .destinationPort ports => packet.destinationPortIn ports
  | .synWithoutRst => packet.synWithoutRst
  | .synWithoutMssOption => packet.synWithoutMssOption
  | .setMember set => packet.inSet set

inductive Verdict
  | accept
  | drop
  | reject
  | dnat (destination : String)
  deriving DecidableEq

/-- The state a rule reads and writes is the packet's mark. MARK, LOG, ULOG
and TCPMSS let the packet continue. -/
def Target.action : Target → RuleChain.Action (BitVec 32) Verdict Chain
  | .accept => .decide .accept
  | .drop => .decide .drop
  | .reject _ => .decide .reject
  | .leave => .leave
  | .log => .update id
  | .ulog => .update id
  | .mark op value => .update (op.apply value)
  | .tcpmss _ => .update id
  | .dnat destination => .decide (.dnat destination)
  | .jump chain => .call chain

def Rule.holds (packet : Packet) (rule : Rule) (packetMark : BitVec 32) : Bool :=
  rule.conditions.all (Match.holds packet packetMark)

def filterSemantics (packet : Packet) : RuleChain.Semantics Rule (BitVec 32) Verdict Chain where
  guard := Rule.holds packet
  action rule := rule.target.action

/-! ## Tables -/

structure ChainContents where
  name : Chain
  entries : List Entry

structure Tables where
  mangle : List ChainContents
  nat : List ChainContents
  filter : List ChainContents

namespace Tables

def get (tables : Tables) : Table → List ChainContents
  | .mangle => tables.mangle
  | .nat => tables.nat
  | .filter => tables.filter

def put (tables : Tables) (contents : List ChainContents) : Table → Tables
  | .mangle => { tables with mangle := contents }
  | .nat => { tables with nat := contents }
  | .filter => { tables with filter := contents }

@[simp] theorem get_put_self (tables : Tables) (contents : List ChainContents)
    (table : Table) : (tables.put contents table).get table = contents := by
  cases table <;> rfl

theorem get_put_of_ne (tables : Tables) (contents : List ChainContents)
    {table other : Table} (different : other ≠ table) :
    (tables.put contents table).get other = tables.get other := by
  cases table <;> cases other <;> first | rfl | exact absurd rfl different

def chain (tables : Tables) (table : Table) (name : Chain) : Option (List Entry) :=
  ((tables.get table).find? fun contents => decide (contents.name = name)).map
    ChainContents.entries

/-- The rules of a chain, none if it does not exist. -/
def rules (tables : Tables) (table : Table) (name : Chain) : List Rule :=
  ((tables.chain table name).getD []).map Entry.rule

def setChain (tables : Tables) (table : Table) (name : Chain) (entries : List Entry) : Tables :=
  tables.put (KeyedList.update ChainContents.name name (fun contents => { contents with entries })
    (tables.get table)) table

/-- `-N` appends an empty chain. -/
def newChain (tables : Tables) (table : Table) (name : Chain) : Tables :=
  tables.put (tables.get table ++ [⟨name, []⟩]) table

/-- `-X` removes a chain. -/
def dropChain (tables : Tables) (table : Table) (name : Chain) : Tables :=
  tables.put ((tables.get table).filter fun contents => decide (contents.name ≠ name)) table

def references (tables : Tables) (table : Table) (name : Chain) : Bool :=
  (tables.get table).any fun contents =>
    contents.entries.any fun entry => decide (entry.rule.target = .jump name)

theorem chain_setChain_self {tables : Tables} {table : Table} {name : Chain}
    {old : List Entry} (present : tables.chain table name = some old) (entries : List Entry) :
    (tables.setChain table name entries).chain table name = some entries := by
  rw [chain, Option.map_eq_some_iff] at present
  rcases present with ⟨contents, found, _⟩
  rw [chain, setChain, get_put_self, KeyedList.find?_update_self]
  · simp [found]
  · intro contents
    rfl

theorem chain_setChain_of_ne (tables : Tables) {table otherTable : Table} {name other : Chain}
    (entries : List Entry) (different : (otherTable, other) ≠ (table, name)) :
    (tables.setChain table name entries).chain otherTable other =
      tables.chain otherTable other := by
  by_cases sameTable : otherTable = table
  · subst sameTable
    have chainDifferent : other ≠ name := fun equal => different (by rw [equal])
    rw [chain, chain, setChain, get_put_self, KeyedList.find?_update_of_ne _ _ chainDifferent]
    intro contents
    rfl
  · rw [chain, chain, setChain, get_put_of_ne _ _ sameTable]

theorem chain_newChain_self {tables : Tables} {table : Table} {name : Chain}
    (absent : tables.chain table name = none) :
    (tables.newChain table name).chain table name = some [] := by
  rw [chain, Option.map_eq_none_iff] at absent
  rw [chain, newChain, get_put_self, List.find?_append, absent]
  simp

theorem chain_newChain_of_ne (tables : Tables) {table otherTable : Table} {name other : Chain}
    (different : (otherTable, other) ≠ (table, name)) :
    (tables.newChain table name).chain otherTable other = tables.chain otherTable other := by
  by_cases sameTable : otherTable = table
  · subst sameTable
    have chainDifferent : name ≠ other := fun equal => different (by rw [equal])
    rw [chain, chain, newChain, get_put_self, List.find?_append]
    simp [chainDifferent]
  · rw [chain, chain, newChain, get_put_of_ne _ _ sameTable]

theorem chain_dropChain_self (tables : Tables) (table : Table) (name : Chain) :
    (tables.dropChain table name).chain table name = none := by
  rw [chain, dropChain, get_put_self, Option.map_eq_none_iff, List.find?_eq_none]
  intro contents member
  simpa using (List.mem_filter.mp member).2

theorem chain_dropChain_of_ne (tables : Tables) {table otherTable : Table} {name other : Chain}
    (different : (otherTable, other) ≠ (table, name)) :
    (tables.dropChain table name).chain otherTable other = tables.chain otherTable other := by
  by_cases sameTable : otherTable = table
  · subst sameTable
    have chainDifferent : other ≠ name := fun equal => different (by rw [equal])
    rw [chain, chain, dropChain, get_put_self, List.find?_filter]
    congr 2
    funext contents
    by_cases equal : contents.name = other <;> simp [equal, chainDifferent]
  · rw [chain, chain, dropChain, get_put_of_ne _ _ sameTable]

end Tables

/-! ## Commands -/

inductive Command
  | newChain (table : Table) (chain : Chain)
  | append (table : Table) (chain : Chain) (rule : Rule)
  | insert (table : Table) (chain : Chain) (position : Nat) (rule : Rule)
  | delete (table : Table) (chain : Chain) (rule : Rule)
  | deleteNumber (table : Table) (chain : Chain) (number : Nat)
  | flush (table : Table) (chain : Chain)
  | deleteChain (table : Table) (chain : Chain)
  deriving DecidableEq

def Command.place : Command → Table × Chain
  | .newChain table chain => (table, chain)
  | .append table chain _ => (table, chain)
  | .insert table chain _ _ => (table, chain)
  | .delete table chain _ => (table, chain)
  | .deleteNumber table chain _ => (table, chain)
  | .flush table chain => (table, chain)
  | .deleteChain table chain => (table, chain)

/-- What the world outside the daemon contributes to its iptables commands:
whether the kernel knows `--or-mark` and masked mark matches, the version
`iptables -V` prints, the exit code of the n-th command once its retries are
over, and the results of conversions that have no argument. The address of a MAC
match is one word of its command, also in those of `iptables_fw_authenticate` and
`iptables_fw_deauthenticate`. -/
structure Kernel where
  orMark : Bool
  markMask : Bool
  iptablesVersion : Int
  exitCode : Nat → BitVec 32
  stray : String → String

def MarkOp.supported (kernel : Kernel) : MarkOp → Bool
  | .setMark => true
  | .orMark => kernel.orMark

def Target.supported (kernel : Kernel) : Target → Bool
  | .mark op _ => op.supported kernel
  | _ => true

def Match.supported (kernel : Kernel) : Match → Bool
  | .mark _ mask => mask.isNone || kernel.markMask
  | .macSource address => address.isSome
  | _ => true

def Kernel.supports (kernel : Kernel) (rule : Rule) : Bool :=
  rule.target.supported kernel && rule.conditions.all (Match.supported kernel)

def Tables.hasTarget (tables : Tables) (table : Table) (rule : Rule) : Bool :=
  match rule.target with
  | .jump chain => (tables.chain table chain).isSome
  | _ => true

def Tables.apply (kernel : Kernel) (tables : Tables) : Command → Option Tables
  | .newChain table name =>
      if (tables.chain table name).isSome then none else some (tables.newChain table name)
  | .append table name rule =>
      match tables.chain table name with
      | none => none
      | some entries =>
          if kernel.supports rule && tables.hasTarget table rule then
            some (tables.setChain table name (entries ++ [⟨rule, 0⟩]))
          else none
  | .insert table name position rule =>
      match tables.chain table name with
      | none => none
      | some entries =>
          if kernel.supports rule && tables.hasTarget table rule &&
              (1 ≤ position && position ≤ entries.length + 1) then
            some (tables.setChain table name
              (entries.take (position - 1) ++ ⟨rule, 0⟩ :: entries.drop (position - 1)))
          else none
  | .delete table name rule =>
      match tables.chain table name with
      | none => none
      | some entries =>
          if entries.any (fun entry => decide (entry.rule = rule)) then
            some (tables.setChain table name (KeyedList.remove Entry.rule rule entries))
          else none
  | .deleteNumber table name number =>
      match tables.chain table name with
      | none => none
      | some entries =>
          if 1 ≤ number && number ≤ entries.length then
            some (tables.setChain table name (entries.eraseIdx (number - 1)))
          else none
  | .flush table name =>
      match tables.chain table name with
      | none => none
      | some _ => some (tables.setChain table name [])
  | .deleteChain table name =>
      match tables.chain table name with
      | none => none
      | some entries =>
          if entries.isEmpty && !tables.references table name then
            some (tables.dropChain table name)
          else none

theorem Tables.chain_apply_of_ne {kernel : Kernel} {tables after : Tables} {command : Command}
    (applied : tables.apply kernel command = some after) {table : Table} {name : Chain}
    (different : (table, name) ≠ command.place) :
    after.chain table name = tables.chain table name := by
  cases command with
  | newChain place chain =>
      simp only [apply] at applied
      split at applied
      · cases applied
      · cases applied
        exact chain_newChain_of_ne _ different
  | deleteChain place chain =>
      simp only [apply] at applied
      split at applied
      · cases applied
      · split at applied
        · cases applied
          exact chain_dropChain_of_ne _ different
        · cases applied
  | flush place chain =>
      simp only [apply] at applied
      split at applied
      · cases applied
      · cases applied
        exact chain_setChain_of_ne _ _ different
  | append place chain rule
  | insert place chain position rule
  | delete place chain rule
  | deleteNumber place chain number =>
      simp only [apply] at applied
      split at applied
      · cases applied
      · split at applied
        · cases applied
          exact chain_setChain_of_ne _ _ different
        · cases applied

theorem Tables.rules_eq_of_chain_eq {tables other : Tables} {table : Table} {name : Chain}
    (same : other.chain table name = tables.chain table name) :
    other.rules table name = tables.rules table name := by
  rw [rules, rules, same]

theorem Tables.rules_of_chain {tables : Tables} {table : Table} {name : Chain}
    {entries : List Entry} (present : tables.chain table name = some entries) :
    tables.rules table name = entries.map Entry.rule := by
  simp [rules, present]

/-- What a command that iptables accepts does to the rules of a chain. -/
def Command.effect (table : Table) (name : Chain) (rules : List Rule) (command : Command) :
    List Rule :=
  if command.place ≠ (table, name) then rules
  else
    match command with
    | .newChain _ _ => []
    | .append _ _ rule => rules ++ [rule]
    | .insert _ _ position rule =>
        rules.take (position - 1) ++ rule :: rules.drop (position - 1)
    | .delete _ _ rule => rules.erase rule
    | .deleteNumber _ _ number => rules.eraseIdx (number - 1)
    | .flush _ _ => []
    | .deleteChain _ _ => []

theorem Command.effect_of_ne {command : Command} {table : Table} {name : Chain}
    (different : command.place ≠ (table, name)) (rules : List Rule) :
    command.effect table name rules = rules := by
  rw [effect.eq_def, if_pos different]

theorem Tables.rules_apply_self {kernel : Kernel} {tables after : Tables} {command : Command}
    {table : Table} {name : Chain} (applied : tables.apply kernel command = some after)
    (same : command.place = (table, name)) :
    after.rules table name = command.effect table name (tables.rules table name) := by
  cases command with
  | newChain place chain =>
      simp only [Command.place, Prod.mk.injEq] at same
      rcases same with ⟨rfl, rfl⟩
      simp only [apply] at applied
      split at applied
      · cases applied
      · rename_i absent
        cases applied
        have created := chain_newChain_self (by simpa using absent)
        simp [rules_of_chain created, Command.effect, Command.place]
  | deleteChain place chain =>
      simp only [Command.place, Prod.mk.injEq] at same
      rcases same with ⟨rfl, rfl⟩
      simp only [apply] at applied
      split at applied
      · cases applied
      · split at applied
        · cases applied
          simp [rules, chain_dropChain_self, Command.effect, Command.place]
        · cases applied
  | flush place chain =>
      simp only [Command.place, Prod.mk.injEq] at same
      rcases same with ⟨rfl, rfl⟩
      simp only [apply] at applied
      split at applied
      · cases applied
      · rename_i entries present
        cases applied
        have content := chain_setChain_self present []
        simp [rules_of_chain content, Command.effect, Command.place]
  | append place chain rule
  | insert place chain position rule
  | delete place chain rule
  | deleteNumber place chain number =>
      simp only [Command.place, Prod.mk.injEq] at same
      rcases same with ⟨rfl, rfl⟩
      simp only [apply] at applied
      split at applied
      · cases applied
      · rename_i entries present
        split at applied
        · cases applied
          rw [rules_of_chain (chain_setChain_self present _), rules_of_chain present]
          simp [Command.effect, Command.place, KeyedList.map_key_remove, List.map_take,
            List.map_drop, List.eraseIdx_map]
        · cases applied

theorem Tables.rules_apply {kernel : Kernel} {tables after : Tables} {command : Command}
    (applied : tables.apply kernel command = some after) (table : Table) (name : Chain) :
    after.rules table name = command.effect table name (tables.rules table name) := by
  by_cases same : command.place = (table, name)
  · exact rules_apply_self applied same
  · rw [Command.effect_of_ne same]
    exact rules_eq_of_chain_eq (chain_apply_of_ne applied (Ne.symm same))

theorem Tables.isSome_apply {kernel : Kernel} {tables after : Tables} {command : Command}
    (applied : tables.apply kernel command = some after) {table : Table} {name : Chain}
    (kept : command ≠ .deleteChain table name)
    (present : (tables.chain table name).isSome = true) :
    (after.chain table name).isSome = true := by
  by_cases same : command.place = (table, name)
  · cases command with
    | newChain place chain =>
        simp only [Command.place, Prod.mk.injEq] at same
        rcases same with ⟨rfl, rfl⟩
        simp [apply, present] at applied
    | deleteChain place chain =>
        simp only [Command.place, Prod.mk.injEq] at same
        rcases same with ⟨rfl, rfl⟩
        exact absurd rfl kept
    | flush place chain =>
        simp only [Command.place, Prod.mk.injEq] at same
        rcases same with ⟨rfl, rfl⟩
        simp only [apply] at applied
        split at applied
        · cases applied
        · rename_i entries present
          cases applied
          simp [chain_setChain_self present]
    | append place chain rule
    | insert place chain position rule
    | delete place chain rule
    | deleteNumber place chain number =>
        simp only [Command.place, Prod.mk.injEq] at same
        rcases same with ⟨rfl, rfl⟩
        simp only [apply] at applied
        split at applied
        · cases applied
        · rename_i entries present
          split at applied
          · cases applied
            simp [chain_setChain_self present]
          · cases applied
  · rw [chain_apply_of_ne applied (Ne.symm same)]
    exact present

theorem Tables.isSome_apply_newChain {kernel : Kernel} {tables after : Tables} {table : Table}
    {name : Chain} (applied : tables.apply kernel (.newChain table name) = some after) :
    (after.chain table name).isSome = true := by
  simp only [apply] at applied
  split at applied
  · cases applied
  · rename_i absent
    cases applied
    simp [chain_newChain_self (by simpa using absent)]

theorem Tables.apply_delete_isSome (kernel : Kernel) {tables : Tables} {table : Table}
    {name : Chain} {rule : Rule} (member : rule ∈ tables.rules table name) :
    (tables.apply kernel (.delete table name rule)).isSome = true := by
  rw [rules] at member
  cases present : tables.chain table name with
  | none => simp [present] at member
  | some entries =>
      simp only [present, Option.getD_some, List.mem_map] at member
      rcases member with ⟨entry, entryMember, equal⟩
      have found : entries.any (fun entry => decide (entry.rule = rule)) = true :=
        List.any_eq_true.mpr ⟨entry, entryMember, by simpa using equal⟩
      simp [apply, present, found]

theorem Tables.apply_append_isSome {kernel : Kernel} {tables : Tables} {table : Table}
    {name : Chain} {rule : Rule} (present : (tables.chain table name).isSome = true)
    (supported : kernel.supports rule = true) (target : tables.hasTarget table rule = true) :
    (tables.apply kernel (.append table name rule)).isSome = true := by
  cases content : tables.chain table name with
  | none => simp [content] at present
  | some entries => simp [apply, content, supported, target]

end Nodogsplash
