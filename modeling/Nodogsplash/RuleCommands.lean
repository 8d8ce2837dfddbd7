import Nodogsplash.ControlProtocol
import Nodogsplash.Rulesets
import Nodogsplash.RuleWords

/-! # The commands of firewall rules

`_iptables_compile` prints a rule into a buffer of `MAX_BUF` bytes, and
`iptables_do_command` takes the text for a format. -/

namespace Nodogsplash

open Words

/-! ## The text of a command -/

def Table.name : Table → String
  | .mangle => "mangle"
  | .nat => "nat"
  | .filter => "filter"

/-- `mode` in `_iptables_compile`. -/
def FirewallTarget.mode : FirewallTarget → String
  | .drop => "DROP"
  | .reject => "REJECT"
  | .accept => "ACCEPT"
  | .log => "LOG"
  | .ulog => "ULOG"

/-- What `_iptables_compile` prints, one call of `snprintf` after the other. -/
def compilePieces (table : Table) (chain : Chain) (rule : FirewallRule) : List String :=
  ["-t " ++ table.name ++ " -A " ++ chain.name ++ " "] ++
    rule.mask.toList.map (fun mask => "-d " ++ mask ++ " ") ++
    rule.protocol.toList.map (fun protocol => "-p " ++ protocol ++ " ") ++
    rule.port.toList.map (fun port => "--dport " ++ port ++ " ") ++
    rule.ipset.toList.map (fun ipset => "-m set --match-set " ++ ipset ++ " dst ") ++
    ["-j " ++ rule.target.mode]

/-- `snprintf` at the end of the text in `command`. -/
def appendPiece (command : List Char) (piece : String) : List Char :=
  command ++ piece.toList.take (maxBuf - command.length - 1)

/-- The text that `_iptables_compile` returns. -/
def compileText (table : Table) (chain : Chain) (rule : FirewallRule) : List Char :=
  (compilePieces table chain rule).foldl appendPiece []

def commandText (table : Table) (chain : Chain) (rule : FirewallRule) : List Char :=
  (compilePieces table chain rule).flatMap String.toList

example : commandText .filter .toRouter ⟨.accept, some "tcp", some "53", some "0.0.0.0/0", none⟩ =
    "-t filter -A ndsRTR -d 0.0.0.0/0 -p tcp --dport 53 -j ACCEPT".toList := by decide

theorem take_append_take {α : Type} (front rest : List α) (room : Nat) :
    (front.take room ++ rest).take room = (front ++ rest).take room := by
  rw [List.take_append, List.take_append, List.take_take, Nat.min_self, List.length_take]
  congr 2
  omega

/-- What is printed into the buffer is the beginning of all that is printed. -/
theorem foldl_appendPiece (pieces : List String) (command : List Char)
    (fits : command.length < maxBuf) :
    pieces.foldl appendPiece command =
      (command ++ pieces.flatMap String.toList).take (maxBuf - 1) := by
  induction pieces generalizing command with
  | nil => simp [List.take_of_length_le (show command.length ≤ maxBuf - 1 by omega)]
  | cons piece pieces induction =>
      have room : (appendPiece command piece).length < maxBuf := by
        rw [appendPiece, List.length_append, List.length_take]
        omega
      have left : maxBuf - 1 - command.length = maxBuf - command.length - 1 := by omega
      have front (rest : List Char) : (command ++ rest).take (maxBuf - 1) =
          command.take (maxBuf - 1) ++ rest.take (maxBuf - command.length - 1) := by
        rw [List.take_append, left]
      rw [List.foldl_cons, induction _ room, List.flatMap_cons, appendPiece, List.append_assoc,
        front, front, take_append_take]

theorem compileText_eq_take (table : Table) (chain : Chain) (rule : FirewallRule) :
    compileText table chain rule = (commandText table chain rule).take (maxBuf - 1) :=
  foldl_appendPiece _ [] (by decide)

def Match.option : Match → String
  | .destination address => "-d " ++ address ++ " "
  | .protocol name => "-p " ++ name ++ " "
  | .destinationPort ports => "--dport " ++ ports ++ " "
  | .setMember set => "-m set --match-set " ++ set ++ " dst "
  | _ => ""

theorem compilePieces_eq (table : Table) (chain : Chain) (rule : FirewallRule) :
    compilePieces table chain rule =
      ("-t " ++ table.name ++ " -A " ++ chain.name ++ " ") ::
        ((iptablesCompile rule).conditions.map Match.option ++ ["-j " ++ rule.target.mode]) := by
  rcases rule with ⟨target, protocol, port, mask, ipset⟩
  cases mask <;> cases protocol <;> cases port <;> cases ipset <;> rfl

/-! ## The text as a format -/

/-- Printing a format loses characters unless there is no conversion in it. -/
theorem length_expandFormat {format printed : List Char}
    (expands : expandFormat format = some printed) :
    printed.length ≤ format.length ∧ (printed.length = format.length → '%' ∉ format) := by
  fun_induction expandFormat format generalizing printed with
  | case1 =>
      cases expands
      exact ⟨le_rfl, fun _ => List.not_mem_nil⟩
  | case2 rest induction =>
      rcases Option.map_eq_some_iff.mp expands with ⟨shorter, later, rfl⟩
      have bound := (induction later).1
      simp only [List.length_cons]
      exact ⟨by omega, by omega⟩
  | case3 => cases expands
  | case4 char rest _ other induction =>
      rcases Option.map_eq_some_iff.mp expands with ⟨shorter, later, rfl⟩
      rcases induction later with ⟨bound, plain⟩
      have different : '%' ≠ char := fun same => other same.symm
      simp only [List.length_cons, List.mem_cons, not_or]
      exact ⟨by omega, fun same => ⟨different, plain (by omega)⟩⟩

/-- The whole command is executed exactly if it fits and has no conversion. -/
theorem expandFormat_compileText_iff (table : Table) (chain : Chain) (rule : FirewallRule) :
    expandFormat (compileText table chain rule) = some (commandText table chain rule) ↔
      (commandText table chain rule).length < maxBuf ∧ '%' ∉ commandText table chain rule := by
  rw [compileText_eq_take]
  have size : maxBuf = 4096 := rfl
  constructor
  · intro expands
    rcases length_expandFormat expands with ⟨bound, plain⟩
    rw [List.length_take] at bound plain
    have fits : (commandText table chain rule).length ≤ maxBuf - 1 := by omega
    rw [List.take_of_length_le fits] at plain
    exact ⟨by omega, plain (by omega)⟩
  · rintro ⟨fits, plain⟩
    rw [List.take_of_length_le (by omega)]
    exact expandFormat_of_plain plain

/-! ## Rules that are read and installed as they are -/

/-- Where `iptables_fw_init` loads the rules of a ruleset. -/
def rulesetPlaces : RulesetName → List (Table × Chain)
  | .trustedUsers => [(.filter, .trusted)]
  | .trustedUsersToRouter => [(.filter, .trustedToRouter)]
  | .usersToRouter => [(.filter, .toRouter)]
  | .authenticatedUsers => [(.filter, .authenticated)]
  | .preauthenticatedUsers => [(.nat, .outgoing), (.filter, .toInternet)]

/-- The line is a rule exactly if it has the documented form; its record is then added to
the ruleset and its command carried out with all its words. -/
structure RuleExact (line : List Char) (name : RulesetName) : Prop where
  accepted : (parseRuleLine (stripWhitespace line)).isSome = true ↔
    ∃ form : RuleForm, form.Strict ∧ lineWords line = "firewallrule".toList :: form.words
  appended : ∀ form : RuleForm, form.Strict →
    lineWords line = "firewallrule".toList :: form.words →
    ∀ isExecutable settings rest,
      configRead isExecutable (some name) settings (line :: rest) =
        configRead isExecutable (some name) (settings.addRule name form.record) rest
  passed : ∀ form : RuleForm, form.Strict →
    lineWords line = "firewallrule".toList :: form.words →
    ∀ place ∈ rulesetPlaces name,
      expandFormat (compileText place.1 place.2 form.record) =
        some (commandText place.1 place.2 form.record)

namespace RuleForm

/-- The words are spelled as documented, none is missing and none is left over. -/
structure Spelled (form : RuleForm) : Prop where
  protocol : ∀ name ∈ form.protocol,
    name ∈ ["tcp".toList, "udp".toList, "icmp".toList, "all".toList]
  port : ∀ part ∈ form.port, part.1 = "port".toList ∧ part.2 ≠ []
  ipset : ∀ part ∈ form.ipset, part.1 = "ipset".toList ∧ part.2 ≠ []
  extra : form.extra = []

/-- In addition the set has no conversion in its name and the commands fit. -/
structure Kept (form : RuleForm) (name : RulesetName) : Prop where
  spelled : form.Spelled
  plain : ∀ part ∈ form.ipset, '%' ∉ part.2
  fits : ∀ place ∈ rulesetPlaces name,
    (commandText place.1 place.2 form.record).length < maxBuf

theorem Strict.spelled {form : RuleForm} (strict : form.Strict) : form.Spelled where
  protocol := strict.protocol
  port := fun part isPort => ⟨(strict.port part isPort).1, (strict.port part isPort).2.1⟩
  ipset := strict.ipset
  extra := strict.extra

theorem Spelled.strict {form : RuleForm} (spelled : form.Spelled) (loose : form.Loose)
    (nonempty : ∀ word ∈ form.words, word ≠ []) : form.Strict where
  protocol := spelled.protocol
  port := by
    intro part isPort
    rcases spelled.port part isPort with ⟨keyword, argument⟩
    rcases loose.port part isPort with ⟨_, chars, named, _⟩
    refine ⟨keyword, argument, chars, ?_⟩
    cases protocol : form.protocol with
    | none =>
        rw [protocol] at named
        cases named
    | some name =>
        rw [protocol] at named
        have known := spelled.protocol name protocol
        simp only [List.mem_cons, List.not_mem_nil, or_false] at known
        rcases known with rfl | rfl | rfl | rfl
        · exact .inl rfl
        · exact .inr rfl
        · exact absurd named (by decide)
        · exact absurd named (by decide)
  ipset := spelled.ipset
  mask := by
    intro mask isMask
    refine ⟨nonempty mask ?_, loose.mask mask isMask⟩
    rw [words, Option.mem_def.mp isMask]
    simp
  extra := spelled.extra

theorem Loose.unique {form other : RuleForm} (loose : form.Loose) (otherLoose : other.Loose)
    (same : form.words = other.words) : form = other := by
  have read := readRule_of_loose loose
  rw [same, readRule_of_loose otherLoose] at read
  exact (Option.some.inj read).symm

end RuleForm

section

variable {name : RulesetName} {form : RuleForm}

theorem place_plain {place : Table × Chain} (member : place ∈ rulesetPlaces name) :
    '%' ∉ ("-t " ++ place.1.name ++ " -A " ++ place.2.name ++ " ").toList := by
  have all : ((rulesetPlaces name).all fun place =>
      !("-t " ++ place.1.name ++ " -A " ++ place.2.name ++ " ").toList.contains '%') = true := by
    cases name <;> decide
  simpa using List.all_eq_true.mp all place member

theorem plain_of_commandText {table : Table} {chain : Chain}
    (plain : '%' ∉ commandText table chain form.record) :
    ∀ part ∈ form.ipset, '%' ∉ part.2 := by
  intro part isSet percent
  apply plain
  rw [commandText, List.mem_flatMap]
  refine ⟨"-m set --match-set " ++ String.ofList part.2 ++ " dst ", ?_, by simp [percent]⟩
  rw [compilePieces, RuleForm.record, Option.mem_def.mp isSet]
  simp

theorem percent_of_piece {front word back : String} (frontPlain : '%' ∉ front.toList)
    (backPlain : '%' ∉ back.toList) (percent : '%' ∈ (front ++ word ++ back).toList) :
    '%' ∈ word.toList := by
  simp only [String.toList_append, List.mem_append] at percent
  rcases percent with (inFront | inWord) | inBack
  · exact absurd inFront frontPlain
  · exact inWord
  · exact absurd inBack backPlain

theorem plain_of_all {keep : Char → Bool} {word : List Char} (chars : word.all keep = true)
    (excludes : keep '%' = false) : '%' ∉ word := by
  intro percent
  rw [List.all_eq_true.mp chars '%' percent] at excludes
  cases excludes

theorem record_plain (strict : form.Strict) (plain : ∀ part ∈ form.ipset, '%' ∉ part.2) :
    ∀ word ∈ form.record.words, '%' ∉ word.toList := by
  intro word member
  simp only [FirewallRule.words, RuleForm.record, List.mem_append, Option.mem_toList,
    Option.map_eq_some_iff, Option.some.injEq] at member
  rcases member with ((rfl | ⟨name, isProtocol, rfl⟩) | ⟨part, isPort, rfl⟩) | ⟨part, isSet, rfl⟩
  · cases isMask : form.mask with
    | none => decide
    | some mask =>
        rw [Option.elim_some, String.toList_ofList]
        exact plain_of_all (strict.mask mask isMask).2 (by decide)
  · rw [String.toList_ofList]
    have known := strict.protocol name isProtocol
    simp only [List.mem_cons, List.not_mem_nil, or_false] at known
    rcases known with rfl | rfl | rfl | rfl <;> decide
  · rw [String.toList_ofList]
    exact plain_of_all (strict.port part isPort).2.2.1 (by decide)
  · rw [String.toList_ofList]
    exact plain part isSet

theorem commandText_plain {rule : FirewallRule} (plain : ∀ word ∈ rule.words, '%' ∉ word.toList)
    {place : Table × Chain} (member : place ∈ rulesetPlaces name) :
    '%' ∉ commandText place.1 place.2 rule := by
  intro percent
  rcases List.mem_flatMap.mp percent with ⟨piece, inPieces, inPiece⟩
  simp only [compilePieces, List.mem_append, List.mem_map, List.mem_singleton] at inPieces
  simp only [FirewallRule.words, List.mem_append] at plain
  rcases inPieces with
    ((((rfl | ⟨word, isMask, rfl⟩) | ⟨word, isProtocol, rfl⟩) | ⟨word, isPort, rfl⟩) |
      ⟨word, isSet, rfl⟩) | rfl
  · exact place_plain member inPiece
  · exact plain word (by simp [isMask]) (percent_of_piece (by decide) (by decide) inPiece)
  · exact plain word (by simp [isProtocol]) (percent_of_piece (by decide) (by decide) inPiece)
  · exact plain word (by simp [isPort]) (percent_of_piece (by decide) (by decide) inPiece)
  · exact plain word (by simp [isSet]) (percent_of_piece (by decide) (by decide) inPiece)
  · cases target : rule.target <;> rw [target] at inPiece <;> exact absurd inPiece (by decide)

theorem RuleForm.Kept.printed_record (kept : form.Kept name) (strict : form.Strict)
    (stray : String → String) : form.record.printed stray = form.record :=
  FirewallRule.printed_of_plain stray (record_plain strict kept.plain)

theorem iptablesAppendRuleset_subset {stray : String → String} {config : Config}
    {markop : MarkOp} {markmask : Option (BitVec 32)} {place : Table × Chain}
    (member : place ∈ rulesetPlaces name) (version : place.1 = .nat → config.ip6 = false)
    (nonempty : config.isEmptyRuleset name = false) :
    iptablesAppendRuleset stray config place.1 name place.2 ⊆
      initCommands stray config markop markmask := by
  intro command inRuleset
  cases name with
  | preauthenticatedUsers =>
      simp only [rulesetPlaces, List.mem_cons, List.not_mem_nil, or_false] at member
      rcases member with rfl | rfl
      · simp [initCommands, natCommands, version rfl, inRuleset]
      · simp [initCommands, filterCommands, forwardCommands, nonempty, inRuleset]
  | _ =>
      rw [rulesetPlaces, List.mem_singleton] at member
      subst member
      simp [initCommands, filterCommands, inputCommands, forwardCommands, classCommands, nonempty,
        inRuleset]

end

theorem shape_of_lineWords {line : List Char} {rest : List (List Char)}
    (spelled : lineWords line = "firewallrule".toList :: rest) :
    ∃ char tail, stripWhitespace line = char :: tail ∧ char ≠ '}' := by
  cases shape : stripWhitespace line with
  | nil =>
      rw [lineWords, shape] at spelled
      cases spelled
  | cons char tail =>
      refine ⟨char, tail, rfl, ?_⟩
      rintro rfl
      have trimmed := (trimmed_stripWhitespace line).map isBlankChar_toLower
      rw [lineWords, trimmed.words_eq (by simp [shape]), shape] at spelled
      cases (List.cons.inj spelled).1

/-- A line is read and installed exactly as documented if and only if each form it can be
read in is spelled as documented and kept by the printing of its commands. -/
theorem firewall_rule_exact_iff (line : List Char) (name : RulesetName) :
    RuleExact line name ↔
      ∀ form : RuleForm, form.Loose → lineWords line = "firewallrule".toList :: form.words →
        form.Kept name := by
  constructor
  · intro exact form loose spelled
    have read : parseRuleLine (stripWhitespace line) = some form.record :=
      parseRuleLine_eq_some_iff.mpr ⟨form, loose, spelled, rfl⟩
    rcases exact.accepted.mp (by rw [read]; rfl) with ⟨other, strict, same⟩
    have words : form.words = other.words := (List.cons.inj (spelled.symm.trans same)).2
    rw [loose.unique strict.loose words]
    have kept (place : Table × Chain) (member : place ∈ rulesetPlaces name) :=
      (expandFormat_compileText_iff place.1 place.2 other.record).mp
        (exact.passed other strict same place member)
    refine ⟨strict.spelled, ?_, fun place member => (kept place member).1⟩
    rcases List.exists_mem_of_ne_nil (rulesetPlaces name) (by cases name <;> nofun) with
      ⟨place, member⟩
    exact plain_of_commandText (kept place member).2
  · intro kept
    have strict (form : RuleForm) (loose : form.Loose)
        (spelled : lineWords line = "firewallrule".toList :: form.words) : form.Strict := by
      refine (kept form loose spelled).spelled.strict loose fun word member => ?_
      have inLine : word ∈ lineWords line := by
        rw [spelled]
        exact List.mem_cons_of_mem _ member
      exact (mem_words inLine).1
    refine ⟨⟨?_, ?_⟩, ?_, ?_⟩
    · intro read
      rcases Option.isSome_iff_exists.mp read with ⟨rule, read⟩
      rcases parseRuleLine_eq_some_iff.mp read with ⟨form, loose, spelled, _⟩
      exact ⟨form, strict form loose spelled, spelled⟩
    · rintro ⟨form, documented, spelled⟩
      rw [parseRuleLine_eq_some_iff.mpr ⟨form, documented.loose, spelled, rfl⟩]
      rfl
    · intro form documented spelled isExecutable settings rest
      rcases shape_of_lineWords spelled with ⟨char, tail, shape, other⟩
      rw [configRead_inside isExecutable settings rest shape, if_neg other, ← shape,
        parseRuleLine_eq_some_iff.mpr ⟨form, documented.loose, spelled, rfl⟩]
      rfl
    · intro form documented spelled place member
      have kept := kept form documented.loose spelled
      exact (expandFormat_compileText_iff place.1 place.2 form.record).mpr
        ⟨kept.fits place member, commandText_plain (record_plain documented kept.plain) member⟩

/-- The line `FirewallRule allow tcpx port 80`. -/
def mistypedLine : List Char := "FirewallRule allow tcpx port 80\n".toList

/-- A word that begins with `tcp` is accepted for the protocol. -/
theorem mistyped_protocol_accepted :
    parseRuleLine (stripWhitespace mistypedLine) =
        some ⟨.accept, some "tcpx", some "80", some "0.0.0.0/0", none⟩ ∧
      ∀ name, ¬ RuleExact mistypedLine name := by
  have parsed : parseRuleLine (stripWhitespace mistypedLine) =
      some ⟨.accept, some "tcpx", some "80", some "0.0.0.0/0", none⟩ := by
    decide
  refine ⟨parsed, fun name exact => ?_⟩
  rcases exact.accepted.mp (by rw [parsed]; rfl) with ⟨form, strict, spelled⟩
  have line : lineWords mistypedLine =
      "firewallrule".toList :: ["allow", "tcpx", "port", "80"].map String.toList := by
    decide
  have words := (List.cons.inj (spelled.symm.trans line)).2
  have read := readRule_of_loose strict.loose
  rw [words] at read
  have protocol : form.protocol = some "tcpx".toList :=
    congrArg RuleForm.protocol (Option.some.inj read).symm
  have named := strict.protocol _ protocol
  exact absurd named (by decide)

end Nodogsplash
