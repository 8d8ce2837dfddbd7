import Nodogsplash.ConfigOrder
import Nodogsplash.EtherAddress
import Nodogsplash.Foundation.Words

/-! # The words of a firewall rule

The forms of the lines that `_parse_firewall_rule` accepts, among them the documented ones,
and the record it makes of each. -/

namespace Nodogsplash

open Words

/-- The words of a line, in lower case. -/
def lineWords (line : List Char) : List (List Char) :=
  words isBlankChar ((stripWhitespace line).map Char.toLower)

/-! ## Forms -/

def FirewallTarget.word : FirewallTarget → List Char
  | .reject => "block".toList
  | .drop => "drop".toList
  | .accept => "allow".toList
  | .log => "log".toList
  | .ulog => "ulog".toList

/-- The parts of a rule: the word for the protocol; the keyword and the argument, which may
be missing, of the ports and of the set; the mask, and what follows it. -/
structure RuleForm where
  target : FirewallTarget
  protocol : Option (List Char)
  port : Option (List Char × List Char)
  ipset : Option (List Char × List Char)
  mask : Option (List Char)
  extra : List (List Char)

def isPortChar (char : Char) : Bool := char.isDigit || char = ':'

def isMaskChar (char : Char) : Bool := char.isDigit || char = '.' || char = '/'

def namesPorts (name : List Char) : Bool :=
  "tcp".toList.isPrefixOf name || "udp".toList.isPrefixOf name

def namesProtocol (name : List Char) : Bool :=
  ["tcp", "udp", "all", "icmp"].any fun protocol => protocol.toList.isPrefixOf name

namespace RuleForm

def argumentWords (part : List Char × List Char) : List (List Char) :=
  part.1 :: if part.2 = [] then [] else [part.2]

def words (form : RuleForm) : List (List Char) :=
  form.target.word :: (form.protocol.toList ++ (form.port.elim [] argumentWords ++
    (form.ipset.elim [] argumentWords ++
      form.mask.elim [] fun mask => "to".toList :: mask :: form.extra)))

def record (form : RuleForm) : FirewallRule where
  target := form.target
  protocol := form.protocol.map String.ofList
  port := form.port.map fun part => String.ofList part.2
  mask := some (form.mask.elim "0.0.0.0/0" String.ofList)
  ipset := form.ipset.map fun part => String.ofList part.2

/-- A rule as documented: exact names and keywords, an argument after each keyword, and
nothing behind the mask. -/
structure Strict (form : RuleForm) : Prop where
  protocol : ∀ name ∈ form.protocol,
    name ∈ ["tcp".toList, "udp".toList, "icmp".toList, "all".toList]
  port : ∀ part ∈ form.port, part.1 = "port".toList ∧ part.2 ≠ [] ∧
    part.2.all isPortChar = true ∧
    (form.protocol = some "tcp".toList ∨ form.protocol = some "udp".toList)
  ipset : ∀ part ∈ form.ipset, part.1 = "ipset".toList ∧ part.2 ≠ []
  mask : ∀ mask ∈ form.mask, mask ≠ [] ∧ mask.all isMaskChar = true
  extra : form.extra = []

/-- A rule as it is read: words that begin with a name or a keyword, arguments that are
missing at the end of the line, and anything behind the mask. -/
structure Loose (form : RuleForm) : Prop where
  protocol : ∀ name ∈ form.protocol, namesProtocol name = true
  port : ∀ part ∈ form.port, "port".toList.isPrefixOf part.1 = true ∧
    part.2.all isPortChar = true ∧ form.protocol.any namesPorts = true ∧
    (part.2 = [] → form.ipset = none ∧ form.mask = none)
  ipset : ∀ part ∈ form.ipset, "ipset".toList.isPrefixOf part.1 = true ∧
    (part.2 = [] → form.mask = none)
  mask : ∀ mask ∈ form.mask, mask.all isMaskChar = true
  extra : form.mask = none → form.extra = []

theorem Strict.loose {form : RuleForm} (strict : form.Strict) : form.Loose where
  protocol := by
    intro name isProtocol
    have named := strict.protocol name isProtocol
    simp only [List.mem_cons, List.not_mem_nil, or_false] at named
    rcases named with rfl | rfl | rfl | rfl <;> decide
  port := by
    intro part isPort
    rcases strict.port part isPort with ⟨keyword, argument, digits, protocol⟩
    refine ⟨by rw [keyword]; decide, digits, ?_, fun missing => absurd missing argument⟩
    rcases protocol with named | named <;> rw [named] <;> decide
  ipset := by
    intro part isSet
    rcases strict.ipset part isSet with ⟨keyword, argument⟩
    exact ⟨by rw [keyword]; decide, fun missing => absurd missing argument⟩
  mask := fun mask isMask => (strict.mask mask isMask).2
  extra := fun _ => strict.extra

end RuleForm

/-! ## Reading the words -/

def takeProtocol : List (List Char) → Option (List Char) × List (List Char)
  | [] => (none, [])
  | word :: rest => if namesProtocol word then (some word, rest) else (none, word :: rest)

def takeArgument (keyword : String) :
    List (List Char) → Option (List Char × List Char) × List (List Char)
  | [] => (none, [])
  | word :: rest =>
      if keyword.toList.isPrefixOf word then (some (word, rest.headD []), rest.tail)
      else (none, word :: rest)

def takeMask : List (List Char) → Option (Option (List Char) × List (List Char))
  | [] => some (none, [])
  | [_] => none
  | word :: mask :: extra =>
      if word = "to".toList ∧ mask.all isMaskChar then some (some mask, extra) else none

def portAllowed (protocol : Option (List Char)) (port : Option (List Char × List Char)) : Bool :=
  port.all fun part => protocol.any namesPorts && part.2.all isPortChar

def readRule : List (List Char) → Option RuleForm
  | [] => none
  | token :: rest =>
      (parseTarget token).bind fun target =>
        let (protocol, rest) := takeProtocol rest
        let (port, rest) := takeArgument "port" rest
        let (ipset, rest) := takeArgument "ipset" rest
        if portAllowed protocol port then
          (takeMask rest).map fun mask => ⟨target, protocol, port, ipset, mask.1, mask.2⟩
        else none

/-! ## Words and forms -/

theorem takeProtocol_parts {words rest : List (List Char)} {protocol : Option (List Char)}
    (taken : takeProtocol words = (protocol, rest)) :
    words = protocol.toList ++ rest ∧ ∀ name ∈ protocol, namesProtocol name = true := by
  cases words with
  | nil =>
      cases taken
      exact ⟨rfl, fun _ => nofun⟩
  | cons word words =>
      rw [takeProtocol] at taken
      split at taken
      · next names =>
          cases taken
          refine ⟨rfl, fun name same => ?_⟩
          cases same
          exact names
      · cases taken
        exact ⟨rfl, fun _ => nofun⟩

theorem takeArgument_parts {keyword : String} {words rest : List (List Char)}
    {part : Option (List Char × List Char)} (nonempty : ∀ word ∈ words, word ≠ [])
    (taken : takeArgument keyword words = (part, rest)) :
    words = part.elim [] RuleForm.argumentWords ++ rest ∧
      ∀ given ∈ part, keyword.toList.isPrefixOf given.1 = true ∧ (given.2 = [] → rest = []) := by
  cases words with
  | nil =>
      cases taken
      exact ⟨rfl, fun _ => nofun⟩
  | cons word words =>
      rw [takeArgument] at taken
      split at taken
      · next begins =>
          cases taken
          cases words with
          | nil =>
              refine ⟨rfl, fun given same => ?_⟩
              cases same
              exact ⟨begins, fun _ => rfl⟩
          | cons argument words =>
              have given : argument ≠ [] := nonempty argument (by simp)
              refine ⟨by simp [RuleForm.argumentWords, given], fun part same => ?_⟩
              cases same
              exact ⟨begins, fun missing => absurd missing given⟩
      · cases taken
        exact ⟨rfl, fun _ => nofun⟩

theorem takeMask_parts {words extra : List (List Char)} {mask : Option (List Char)}
    (taken : takeMask words = some (mask, extra)) :
    words = mask.elim [] (fun mask => "to".toList :: mask :: extra) ∧
      (∀ given ∈ mask, given.all isMaskChar = true) ∧ (mask = none → extra = []) := by
  match words, taken with
  | [], rfl => exact ⟨rfl, fun _ => nofun, fun _ => rfl⟩
  | word :: given :: rest, taken =>
      rw [takeMask] at taken
      split at taken
      · next both =>
          cases taken
          refine ⟨by rw [both.1]; rfl, fun mask same => ?_, nofun⟩
          cases same
          exact both.2
      · cases taken

theorem parseTarget_eq_some_iff {token : List Char} {target : FirewallTarget} :
    parseTarget token = some target ↔ token = target.word := by
  constructor
  · intro parsed
    simp only [parseTarget] at parsed
    split_ifs at parsed with block drop allow log ulog <;> cases parsed <;> assumption
  · rintro rfl
    cases target <;> rfl

theorem portAllowed_iff {protocol : Option (List Char)} {port : Option (List Char × List Char)} :
    portAllowed protocol port = true ↔
      ∀ part ∈ port, protocol.any namesPorts = true ∧ part.2.all isPortChar = true := by
  cases port <;> simp [portAllowed]

theorem loose_of_readRule {words : List (List Char)} {form : RuleForm}
    (nonempty : ∀ word ∈ words, word ≠ []) (read : readRule words = some form) :
    form.Loose ∧ words = form.words := by
  cases words with
  | nil => cases read
  | cons token words =>
      rcases Option.bind_eq_some_iff.mp read with ⟨target, named, read⟩
      have later := (List.forall_mem_cons.mp nonempty).2
      rcases protocolTaken : takeProtocol words with ⟨protocol, afterProtocol⟩
      rcases portTaken : takeArgument "port" afterProtocol with ⟨port, afterPort⟩
      rcases setTaken : takeArgument "ipset" afterPort with ⟨ipset, afterSet⟩
      simp only [protocolTaken, portTaken, setTaken] at read
      split at read
      · next allowed =>
          rcases Option.map_eq_some_iff.mp read with ⟨⟨mask, extra⟩, maskTaken, rfl⟩
          rcases takeProtocol_parts protocolTaken with ⟨protocolWords, protocolNamed⟩
          rw [protocolWords] at later
          have afterWords := (List.forall_mem_append.mp later).2
          rcases takeArgument_parts afterWords portTaken with ⟨portWords, portNamed⟩
          rw [portWords] at afterWords
          have lastWords := (List.forall_mem_append.mp afterWords).2
          rcases takeArgument_parts lastWords setTaken with ⟨setWords, setNamed⟩
          rcases takeMask_parts maskTaken with ⟨maskWords, maskChars, unmasked⟩
          have ends : afterSet = [] → mask = none := by
            intro empty
            rw [empty] at maskTaken
            cases maskTaken
            rfl
          refine ⟨⟨protocolNamed, ?_, ?_, maskChars, unmasked⟩, ?_⟩
          · intro part isPort
            have chars := portAllowed_iff.mp allowed part isPort
            refine ⟨(portNamed part isPort).1, chars.2, chars.1, fun missing => ?_⟩
            rw [(portNamed part isPort).2 missing] at setTaken
            cases setTaken
            exact ⟨rfl, ends rfl⟩
          · intro part isSet
            exact ⟨(setNamed part isSet).1, fun missing =>
              ends ((setNamed part isSet).2 missing)⟩
          · rw [parseTarget_eq_some_iff.mp named, protocolWords, portWords, setWords, maskWords]
            rfl
      · cases read

/-! ## Forms and words -/

theorem keyword_apart {word : List Char} :
    ("port".toList.isPrefixOf word = true → namesProtocol word = false) ∧
    ("ipset".toList.isPrefixOf word = true →
      namesProtocol word = false ∧ "port".toList.isPrefixOf word = false) := by
  constructor
  · intro begins
    rcases List.isPrefixOf_iff_prefix.mp begins with ⟨rest, rfl⟩
    rfl
  · intro begins
    rcases List.isPrefixOf_iff_prefix.mp begins with ⟨rest, rfl⟩
    exact ⟨rfl, rfl⟩

theorem takeProtocol_of_parts {protocol : Option (List Char)} {rest : List (List Char)}
    (named : ∀ name ∈ protocol, namesProtocol name = true)
    (apart : ∀ word ∈ rest.head?, namesProtocol word = false) :
    takeProtocol (protocol.toList ++ rest) = (protocol, rest) := by
  cases protocol with
  | some name => exact if_pos (named name rfl)
  | none =>
      cases rest with
      | nil => rfl
      | cons word rest => exact if_neg (by simp [apart word rfl])

theorem takeArgument_of_parts {keyword : String} {part : Option (List Char × List Char)}
    {rest : List (List Char)}
    (begins : ∀ given ∈ part, keyword.toList.isPrefixOf given.1 = true ∧
      (given.2 = [] → rest = []))
    (apart : ∀ word ∈ rest.head?, keyword.toList.isPrefixOf word = false) :
    takeArgument keyword (part.elim [] RuleForm.argumentWords ++ rest) = (part, rest) := by
  cases part with
  | some given =>
      rcases given with ⟨word, argument⟩
      rcases begins _ rfl with ⟨named, ended⟩
      by_cases missing : argument = []
      · rw [ended missing, missing]
        exact if_pos named
      · have words : (some (word, argument)).elim [] RuleForm.argumentWords ++ rest =
            word :: argument :: rest := by
          simp [RuleForm.argumentWords, missing]
        rw [words]
        exact if_pos named
  | none =>
      cases rest with
      | nil => rfl
      | cons word rest => exact if_neg (by simp [apart word rfl])

theorem takeMask_of_parts {mask : Option (List Char)} {extra : List (List Char)}
    (chars : ∀ given ∈ mask, given.all isMaskChar = true) (unmasked : mask = none → extra = []) :
    takeMask (mask.elim [] fun mask => "to".toList :: mask :: extra) = some (mask, extra) := by
  cases mask with
  | none =>
      rw [unmasked rfl]
      rfl
  | some mask => exact if_pos ⟨rfl, chars mask rfl⟩

/-- The first word that follows the optional parts so far is the next keyword. -/
theorem head_argumentWords {Apart : List Char → Prop} {part : Option (List Char × List Char)}
    {rest : List (List Char)} (keyword : ∀ given ∈ part, Apart given.1)
    (later : ∀ word ∈ rest.head?, Apart word) :
    ∀ word ∈ (part.elim [] RuleForm.argumentWords ++ rest).head?, Apart word := by
  cases part with
  | none => exact later
  | some given =>
      intro word head
      cases head
      exact keyword given rfl

theorem readRule_of_loose {form : RuleForm} (loose : form.Loose) :
    readRule form.words = some form := by
  rcases form with ⟨target, protocol, port, ipset, mask, extra⟩
  let maskWords : List (List Char) := mask.elim [] fun mask => "to".toList :: mask :: extra
  have maskApart : ∀ word ∈ maskWords.head?, namesProtocol word = false ∧
      "port".toList.isPrefixOf word = false ∧ "ipset".toList.isPrefixOf word = false := by
    cases mask with
    | none => exact fun _ => nofun
    | some mask =>
        intro word head
        cases head
        exact ⟨rfl, rfl, rfl⟩
  let setWords : List (List Char) := ipset.elim [] RuleForm.argumentWords ++ maskWords
  have setApart : ∀ word ∈ setWords.head?, namesProtocol word = false ∧
      "port".toList.isPrefixOf word = false :=
    head_argumentWords (fun given isSet => keyword_apart.2 (loose.ipset given isSet).1)
      fun word head => ⟨(maskApart word head).1, (maskApart word head).2.1⟩
  let portWords : List (List Char) := port.elim [] RuleForm.argumentWords ++ setWords
  have portApart : ∀ word ∈ portWords.head?, namesProtocol word = false :=
    head_argumentWords (fun given isPort => keyword_apart.1 (loose.port given isPort).1)
      fun word head => (setApart word head).1
  have ended (missing : mask = none) : maskWords = [] := by
    subst missing
    rfl
  have protocolTaken : takeProtocol (protocol.toList ++ portWords) = (protocol, portWords) :=
    takeProtocol_of_parts loose.protocol portApart
  have portTaken : takeArgument "port" portWords = (port, setWords) := by
    refine takeArgument_of_parts (fun part isPort => ?_) fun word head => (setApart word head).2
    rcases loose.port part isPort with ⟨keyword, _, _, last⟩
    refine ⟨keyword, fun missing => ?_⟩
    rcases last missing with ⟨noSet, noMask⟩
    have noSet : ipset = none := noSet
    change ipset.elim [] RuleForm.argumentWords ++ maskWords = []
    rw [noSet, ended noMask]
    rfl
  have setTaken : takeArgument "ipset" setWords = (ipset, maskWords) := by
    refine takeArgument_of_parts (fun part isSet => ?_) fun word head => (maskApart word head).2.2
    rcases loose.ipset part isSet with ⟨keyword, last⟩
    exact ⟨keyword, fun missing => ended (last missing)⟩
  have allowed : portAllowed protocol port = true :=
    portAllowed_iff.mpr fun part isPort =>
      ⟨(loose.port part isPort).2.2.1, (loose.port part isPort).2.1⟩
  have maskTaken : takeMask maskWords = some (mask, extra) :=
    takeMask_of_parts loose.mask loose.extra
  change readRule (target.word :: (protocol.toList ++ portWords)) = _
  rw [readRule, parseTarget_eq_some_iff.mpr rfl, Option.bind_some]
  simp only [protocolTaken, portTaken, setTaken, allowed, if_true, maskTaken, Option.map_some]

theorem readRule_eq_some_iff {words : List (List Char)} {form : RuleForm}
    (nonempty : ∀ word ∈ words, word ≠ []) :
    readRule words = some form ↔ form.Loose ∧ words = form.words := by
  constructor
  · exact loose_of_readRule nonempty
  · rintro ⟨loose, rfl⟩
    exact readRule_of_loose loose

/-! ## Reading the text -/

/-- The part of `_parse_firewall_rule` that takes the protocol. -/
def protocolPart (leftover : List Char) (finished : Bool) :
    Option (List Char) × List Char × Bool :=
  if ["tcp", "udp", "all", "icmp"].any fun name => name.toList.isPrefixOf leftover then
    (some (toNextWord leftover).1, (toNextWord leftover).2.1,
      finished || (toNextWord leftover).2.2)
  else (none, leftover, finished)

theorem protocolPart_eq (leftover : List Char) (finished : Bool) :
    protocolPart leftover finished =
      if namesProtocol leftover then
        (some (toNextWord leftover).1, (toNextWord leftover).2.1,
          finished || (toNextWord leftover).2.2)
      else (none, leftover, finished) := rfl

def maskPart (leftover : List Char) (finished : Bool) : Option (List Char) :=
  if finished then some "0.0.0.0/0".toList
  else
    if (toNextWord leftover).1 ≠ "to".toList || (toNextWord leftover).2.2 then none
    else
      if (toNextWord (toNextWord leftover).2.1).1.all isMaskChar then
        some (toNextWord (toNextWord leftover).2.1).1
      else none

theorem any_not_isMaskChar (mask : List Char) :
    (mask.any fun char => !(char.isDigit || char = '.' || char = '/')) = !mask.all isMaskChar := by
  rw [List.not_all_eq_any_not]
  rfl

theorem any_not_isPortChar (port : List Char) :
    (port.any fun char => !(char.isDigit || char = ':')) = !port.all isPortChar := by
  rw [List.not_all_eq_any_not]
  rfl

theorem parseFirewallRule_eq {text token first second third fourth : List Char}
    {ended protocolEnded portEnded setEnded : Bool} {protocol port ipset : Option (List Char)}
    (tokenTaken : toNextWord (text.map Char.toLower) = (token, first, ended))
    (protocolTaken : protocolPart first ended = (protocol, second, protocolEnded))
    (portTaken : optionalArgument "port" second protocolEnded = (port, third, portEnded))
    (setTaken : optionalArgument "ipset" third portEnded = (ipset, fourth, setEnded)) :
    parseFirewallRule text =
      (parseTarget token).bind fun target =>
        if port.all fun digits => protocol.any namesPorts && digits.all isPortChar then
          (maskPart fourth setEnded).map fun mask =>
            { target := target
              protocol := protocol.map String.ofList
              port := port.map String.ofList
              mask := some (String.ofList mask)
              ipset := ipset.map String.ofList }
        else none := by
  rw [protocolPart] at protocolTaken
  simp only [parseFirewallRule, tokenTaken, protocolTaken, portTaken, setTaken]
  simp only [any_not_isMaskChar, any_not_isPortChar]
  refine congrArg (Option.bind _) (funext fun target => ?_)
  have ports : (protocol.any fun name =>
      "tcp".toList.isPrefixOf name || "udp".toList.isPrefixOf name) =
        protocol.any namesPorts := rfl
  have last (make : List Char → FirewallRule) :
      (if setEnded = true then (some "0.0.0.0/0".toList).bind fun mask => some (make mask)
      else
        if (decide ((toNextWord fourth).1 ≠ "to".toList) || (toNextWord fourth).2.2) = true then
          none
        else
          if (!(toNextWord (toNextWord fourth).2.1).1.all isMaskChar) = true then none
          else (some (toNextWord (toNextWord fourth).2.1).1).bind fun mask => some (make mask)) =
        (maskPart fourth setEnded).map make := by
    rw [maskPart]
    cases setEnded with
    | true => rfl
    | false =>
        cases (toNextWord (toNextWord fourth).2.1).1.all isMaskChar <;>
          cases decide ((toNextWord fourth).1 ≠ "to".toList) || (toNextWord fourth).2.2 <;> rfl
  rw [ports]
  cases port with
  | none => exact last _
  | some digits =>
      have wrongProtocol : ((some digits).isSome && !protocol.any namesPorts) = true ↔
          protocol.any namesPorts = false := by simp
      have wrongPort : (some digits).any (fun digits => !digits.all isPortChar) = true ↔
          digits.all isPortChar = false := by simp
      have allowed : (some digits).all (fun digits =>
            protocol.any namesPorts && digits.all isPortChar) = true ↔
          protocol.any namesPorts = true ∧ digits.all isPortChar = true := by simp
      simp only [wrongProtocol, wrongPort, allowed]
      cases named : protocol.any namesPorts with
      | false => rfl
      | true =>
          cases chars : digits.all isPortChar with
          | false => rfl
          | true => exact last _

theorem toNextWord_eq {leftover : List Char} (trimmed : Trimmed isBlankChar leftover) :
    toNextWord leftover = (firstWord isBlankChar leftover, otherWords isBlankChar leftover,
      (otherWords isBlankChar leftover).isEmpty) := by
  have ends : (leftover.dropWhile fun char => !isBlankChar char).isEmpty =
      (otherWords isBlankChar leftover).isEmpty := by
    rw [Bool.eq_iff_iff, List.isEmpty_iff, List.isEmpty_iff]
    exact trimmed.otherWords_eq_nil_iff.symm
  rw [toNextWord, ends]
  rfl

theorem no_blank_of_all {name : String}
    (plain : name.toList.all (fun char => !isBlankChar char) = true) :
    ∀ char ∈ name.toList, isBlankChar char = false := by
  intro char member
  simpa using List.all_eq_true.mp plain char member

theorem namesProtocol_firstWord (leftover : List Char) :
    namesProtocol (firstWord isBlankChar leftover) = namesProtocol leftover := by
  have plain (name : String) (known : name ∈ ["tcp", "udp", "all", "icmp"]) :
      ∀ char ∈ name.toList, isBlankChar char = false := by
    simp only [List.mem_cons, List.not_mem_nil, or_false] at known
    rcases known with rfl | rfl | rfl | rfl <;> exact no_blank_of_all (by decide)
  simp only [namesProtocol, List.any_cons, List.any_nil,
    isPrefixOf_firstWord (plain "tcp" (by simp)), isPrefixOf_firstWord (plain "udp" (by simp)),
    isPrefixOf_firstWord (plain "all" (by simp)), isPrefixOf_firstWord (plain "icmp" (by simp))]

structure Leaves (leftover : List Char) (rest : List (List Char)) : Prop where
  trimmed : Trimmed isBlankChar leftover
  spelled : words isBlankChar leftover = rest

namespace Leaves

variable {leftover : List Char} {rest : List (List Char)}

theorem tail (leaves : Leaves leftover rest) :
    Leaves (otherWords isBlankChar leftover) rest.tail where
  trimmed := leaves.trimmed.otherWords
  spelled := by rw [leaves.trimmed.words_otherWords, leaves.spelled]

theorem firstWord_eq (leaves : Leaves leftover rest) :
    firstWord isBlankChar leftover = rest.headD [] := by
  rw [leaves.trimmed.firstWord_eq, leaves.spelled]

theorem isEmpty (leaves : Leaves leftover rest) : leftover.isEmpty = rest.isEmpty := by
  rw [← leaves.trimmed.words_isEmpty, leaves.spelled]

theorem eq_nil (leaves : Leaves leftover []) : leftover = [] :=
  List.isEmpty_iff.mp leaves.isEmpty

theorem isEmpty_cons {word : List Char} (leaves : Leaves leftover (word :: rest)) :
    leftover.isEmpty = false := leaves.isEmpty

theorem protocolPart (leaves : Leaves leftover rest) :
    ∃ next, Leaves next (takeProtocol rest).2 ∧
      protocolPart leftover leftover.isEmpty = ((takeProtocol rest).1, next, next.isEmpty) := by
  cases rest with
  | nil =>
      have empty := leaves.eq_nil
      subst empty
      exact ⟨[], leaves, rfl⟩
  | cons word rest =>
      have names : namesProtocol leftover = namesProtocol word := by
        rw [← namesProtocol_firstWord, leaves.firstWord_eq]
        rfl
      cases named : namesProtocol word with
      | true =>
          refine ⟨otherWords isBlankChar leftover, ?_, ?_⟩
          · rw [takeProtocol, if_pos named]
            exact leaves.tail
          · rw [takeProtocol, if_pos named, protocolPart_eq, if_pos (names.trans named),
              toNextWord_eq leaves.trimmed, leaves.firstWord_eq, leaves.isEmpty_cons]
            rfl
      | false =>
          have unnamed : ¬ namesProtocol leftover = true := by simp [names, named]
          refine ⟨leftover, ?_, ?_⟩
          · rw [takeProtocol, if_neg (by simp [named])]
            exact leaves
          · rw [takeProtocol, if_neg (by simp [named]), protocolPart_eq, if_neg unnamed]

theorem optionalArgument (leaves : Leaves leftover rest) (keyword : String)
    (plain : ∀ char ∈ keyword.toList, isBlankChar char = false)
    (nonempty : keyword.toList.isPrefixOf [] = false) :
    ∃ next, Leaves next (takeArgument keyword rest).2 ∧
      optionalArgument keyword leftover leftover.isEmpty =
        ((takeArgument keyword rest).1.map Prod.snd, next, next.isEmpty) := by
  cases rest with
  | nil =>
      have empty := leaves.eq_nil
      subst empty
      refine ⟨[], leaves, ?_⟩
      rw [Nodogsplash.optionalArgument, if_neg (by simp [nonempty])]
      rfl
  | cons word rest =>
      have begins : keyword.toList.isPrefixOf leftover = keyword.toList.isPrefixOf word := by
        rw [← isPrefixOf_firstWord plain leftover, leaves.firstWord_eq]
        rfl
      cases named : keyword.toList.isPrefixOf word with
      | true =>
          refine ⟨otherWords isBlankChar (otherWords isBlankChar leftover), ?_, ?_⟩
          · rw [takeArgument, if_pos named]
            exact leaves.tail.tail
          · rw [takeArgument, if_pos named, Nodogsplash.optionalArgument,
              if_pos (begins.trans named), toNextWord_eq leaves.trimmed, leaves.isEmpty_cons]
            simp only [toNextWord_eq leaves.tail.trimmed, leaves.tail.firstWord_eq]
            -- the first flag implies the second
            have ends : ((otherWords isBlankChar leftover).isEmpty ||
                (otherWords isBlankChar (otherWords isBlankChar leftover)).isEmpty) =
                  (otherWords isBlankChar (otherWords isBlankChar leftover)).isEmpty := by
              rw [leaves.tail.isEmpty, leaves.tail.tail.isEmpty]
              cases rest <;> rfl
            rw [Bool.false_or, ends]
            rfl
      | false =>
          refine ⟨leftover, ?_, ?_⟩
          · rw [takeArgument, if_neg (by simp [named])]
            exact leaves
          · rw [takeArgument, if_neg (by simp [named]), Nodogsplash.optionalArgument,
              if_neg (by simp [begins, named])]
            rfl

theorem maskPart (leaves : Leaves leftover rest) :
    maskPart leftover leftover.isEmpty =
      (takeMask rest).map fun mask => mask.1.getD "0.0.0.0/0".toList := by
  cases rest with
  | nil =>
      rw [leaves.eq_nil]
      rfl
  | cons word rest =>
      rw [Nodogsplash.maskPart, leaves.isEmpty_cons, if_neg Bool.false_ne_true,
        toNextWord_eq leaves.trimmed, leaves.firstWord_eq]
      simp only [toNextWord_eq leaves.tail.trimmed, leaves.tail.firstWord_eq, leaves.tail.isEmpty]
      cases rest with
      | nil => simp [takeMask]
      | cons mask extra =>
          by_cases both : word = "to".toList ∧ mask.all isMaskChar = true
          · rw [takeMask, if_pos both]
            simp [both.1, both.2]
          · rw [takeMask, if_neg both]
            by_cases other : word = "to".toList
            · have chars : ¬ mask.all isMaskChar = true := fun chars => both ⟨other, chars⟩
              simp [other, chars]
            · have different : decide (word ≠ "to".toList) = true := decide_eq_true other
              exact if_pos (Bool.or_eq_true_iff.mpr (.inl different))

end Leaves

theorem parseFirewallRule_eq_readRule {text : List Char} {rest : List (List Char)}
    (leaves : Leaves (text.map Char.toLower) rest) (nonempty : text ≠ []) :
    parseFirewallRule text = (readRule rest).map RuleForm.record := by
  cases rest with
  | nil =>
      have empty := leaves.eq_nil
      exact absurd (List.map_eq_nil_iff.mp empty) nonempty
  | cons token words =>
      rcases leaves.tail.protocolPart with ⟨second, secondLeaves, protocolTaken⟩
      rcases secondLeaves.optionalArgument "port" (no_blank_of_all (by decide)) rfl with
        ⟨third, thirdLeaves, portTaken⟩
      rcases thirdLeaves.optionalArgument "ipset" (no_blank_of_all (by decide)) rfl with
        ⟨fourth, fourthLeaves, setTaken⟩
      rw [parseFirewallRule_eq (toNextWord_eq leaves.trimmed) protocolTaken portTaken setTaken,
        leaves.firstWord_eq, fourthLeaves.maskPart, readRule, List.headD_cons, List.tail_cons]
      cases parseTarget token with
      | none => rfl
      | some target =>
          rcases protocolRead : takeProtocol words with ⟨protocol, afterProtocol⟩
          rcases portRead : takeArgument "port" afterProtocol with ⟨port, afterPort⟩
          rcases setRead : takeArgument "ipset" afterPort with ⟨ipset, afterSet⟩
          have allowed : ((port.map Prod.snd).all fun digits =>
              protocol.any namesPorts && digits.all isPortChar) = portAllowed protocol port := by
            cases port <;> rfl
          simp only [Option.bind_some, portRead, setRead, allowed]
          split
          · cases takeMask afterSet with
            | none => rfl
            | some part =>
                rcases part with ⟨mask, extra⟩
                cases mask <;> cases port <;> cases ipset <;> rfl
          · rfl

/-! ## Lines -/

theorem isBlankChar_iff (char : Char) :
    isBlankChar char = true ↔ char.toNat = 32 ∨ char.toNat = 9 := by
  simp only [isBlankChar, Bool.or_eq_true, decide_eq_true_eq]
  rw [← Char.toNat_inj, ← Char.toNat_inj (d := '\t')]
  rfl

theorem isBlankChar_toLower (char : Char) : isBlankChar char.toLower = isBlankChar char := by
  rw [Bool.eq_iff_iff, isBlankChar_iff, isBlankChar_iff, toNat_toLower]
  split <;> omega

theorem isBlankChar_of_not_isSpace {char : Char} (other : ¬ isSpace char = true) :
    isBlankChar char = false := by
  rw [Bool.eq_false_iff]
  intro blank
  apply other
  rcases (isBlankChar_iff char).mp blank with code | code
  · have space : char = ' ' := Char.toNat_inj.mp code
    rw [space]
    rfl
  · simp [isSpace, code]

theorem trimmed_stripWhitespace (line : List Char) :
    Trimmed isBlankChar (stripWhitespace line) where
  first := by
    intro char head
    rcases List.rdropWhile_prefix isSpace ((stripComment none line).dropWhile isSpace) with
      ⟨rest, parts⟩
    apply isBlankChar_of_not_isSpace
    rw [head_dropWhile isSpace (stripComment none line) char]
    · exact Bool.false_ne_true
    · rw [← parts]
      exact List.mem_head?_append_of_mem_head? head
  last := by
    intro char final
    apply isBlankChar_of_not_isSpace
    have nonempty : stripWhitespace line ≠ [] := by
      intro empty
      rw [empty] at final
      cases final
    rw [← (List.getLast_eq_iff_getLast?_eq_some nonempty).mpr final]
    exact List.rdropWhile_last_not isSpace _ nonempty

theorem configParseOpcode_eq_firewallRule_iff (word : List Char) :
    configParseOpcode word = .firewallRule ↔ word.map Char.toLower = "firewallrule".toList := by
  have key (keyword : String) : sameIgnoringCase (String.ofList word) keyword = true ↔
      word.map Char.toLower = macKey keyword := by
    rw [sameIgnoringCase_iff, macKey, String.toList_ofList]
  constructor
  · intro parsed
    cases found : keywords.find? fun keyword =>
        sameIgnoringCase (String.ofList word) keyword.1 with
    | none =>
        rw [configParseOpcode, found] at parsed
        cases parsed
    | some keyword =>
        rw [configParseOpcode, found] at parsed
        have only : ∀ other ∈ keywords, other.2 = .firewallRule → other.1 = "firewallrule" := by
          decide
        have same := (key keyword.1).mp (List.find?_some (p := fun keyword : String × Opcode =>
          sameIgnoringCase (String.ofList word) keyword.1) found)
        rw [same, only keyword (List.mem_of_find?_eq_some found) parsed]
        rfl
  · intro same
    have test : (fun keyword : String × Opcode =>
        sameIgnoringCase (String.ofList word) keyword.1) =
          fun keyword => decide ("firewallrule".toList = macKey keyword.1) := by
      funext keyword
      rw [Bool.eq_iff_iff, key, same, decide_eq_true_eq]
    rw [configParseOpcode, test]
    decide

theorem parseRuleLine_eq (line : List Char) :
    parseRuleLine (stripWhitespace line) =
      match lineWords line with
      | [] => none
      | keyword :: rest =>
          if keyword = "firewallrule".toList then (readRule rest).map RuleForm.record
          else none := by
  have trimmed := trimmed_stripWhitespace line
  have lower : lineWords line =
      (words isBlankChar (stripWhitespace line)).map (List.map Char.toLower) :=
    words_map isBlankChar_toLower _
  by_cases empty : stripWhitespace line = []
  · rw [lower, empty]
    rfl
  · rw [lower, trimmed.words_eq empty, List.map_cons]
    simp only [← configParseOpcode_eq_firewallRule_iff]
    have leaves : Leaves ((otherWords isBlankChar (stripWhitespace line)).map Char.toLower)
        ((words isBlankChar (otherWords isBlankChar (stripWhitespace line))).map
          (List.map Char.toLower)) :=
      ⟨trimmed.otherWords.map isBlankChar_toLower, words_map isBlankChar_toLower _⟩
    cases after : (stripWhitespace line).dropWhile fun char => !isBlankChar char with
    | nil =>
        rw [parseRuleLine, after, trimmed.otherWords_eq_nil_iff.mpr after]
        simp [readRule]
    | cons separator rest =>
        have text : rest.dropWhile isBlankChar = otherWords isBlankChar (stripWhitespace line) := by
          rw [otherWords, after]
          rfl
        have nonempty : otherWords isBlankChar (stripWhitespace line) ≠ [] := by
          rw [Ne, trimmed.otherWords_eq_nil_iff, after]
          exact List.cons_ne_nil _ _
        rw [parseRuleLine, after]
        simp only [text]
        split
        · next rule =>
            have keyword : configParseOpcode (firstWord isBlankChar (stripWhitespace line)) =
                .firewallRule := rule
            rw [if_pos keyword, parseFirewallRule_eq_readRule leaves nonempty]
        · next other =>
            have keyword : configParseOpcode (firstWord isBlankChar (stripWhitespace line)) ≠
                .firewallRule := other
            rw [if_neg keyword]

theorem parseRuleLine_eq_some_iff {line : List Char} {rule : FirewallRule} :
    parseRuleLine (stripWhitespace line) = some rule ↔
      ∃ form : RuleForm, form.Loose ∧ lineWords line = "firewallrule".toList :: form.words ∧
        rule = form.record := by
  rw [parseRuleLine_eq]
  have nonempty : ∀ word ∈ lineWords line, word ≠ [] := fun word member => (mem_words member).1
  cases spelled : lineWords line with
  | nil =>
      refine iff_of_false nofun ?_
      rintro ⟨form, _, absurd, _⟩
      cases absurd
  | cons keyword rest =>
      rw [spelled] at nonempty
      have later := (List.forall_mem_cons.mp nonempty).2
      simp only
      split
      · next isRule =>
          rw [Option.map_eq_some_iff]
          constructor
          · rintro ⟨form, read, rfl⟩
            rcases (readRule_eq_some_iff later).mp read with ⟨loose, parts⟩
            exact ⟨form, loose, by rw [isRule, parts], rfl⟩
          · rintro ⟨form, loose, parts, rfl⟩
            exact ⟨form, (readRule_eq_some_iff later).mpr ⟨loose, (List.cons.inj parts).2⟩, rfl⟩
      · next other =>
          refine iff_of_false nofun ?_
          rintro ⟨form, _, parts, _⟩
          exact other (List.cons.inj parts).1

end Nodogsplash
