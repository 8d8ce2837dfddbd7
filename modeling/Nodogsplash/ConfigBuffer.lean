import Nodogsplash.ControlProtocol
import Nodogsplash.OriginalUrl
import Nodogsplash.RuleWords
import Nodogsplash.Foundation.StoredStrings

/-! # The line buffer of the configuration

`config_read` reads every line into one buffer and cuts it there. What a line does not
write stays from the lines before. -/

namespace Nodogsplash

open Buffers StoredStrings Words

/-! ## The code -/

/-- `fgets` stores the line and a terminator. -/
def fgetsInto (buffer line : List Char) : List Char := overwrite buffer 0 (line ++ ['\x00'])

/-- `_strip_whitespace`: the changed buffer and the position that is returned. -/
def stripWhitespaceInto (buffer : List Char) : List Char × Nat :=
  -- a line without a comment is ended where it ends
  let buffer := terminate '\x00' buffer (stripComment none (textAt '\x00' buffer 0)).length
  let start := advance '\x00' isSpace buffer 0
  (trimEnd '\x00' isSpace buffer start, start)

/-- The option at `start` is ended; its argument begins at the position that is returned. -/
def splitOptionInto (buffer : List Char) (start : Nat) : Option (List Char × Nat) :=
  let ended := advance '\x00' (fun char => !isSpace char) buffer start
  if textAt '\x00' buffer ended = [] then none
  else
    let buffer := terminate '\x00' buffer ended
    some (buffer, advance '\x00' isBlankChar buffer (ended + 1))

def wordAt (buffer : List Char) (position : Nat) : List Char :=
  (textAt '\x00' buffer position).takeWhile fun char => !isBlankChar char

/-- `parse_empty_ruleset_policy`: what it leaves in the buffer, and its directive.
`beyond` is what stands behind the buffer. -/
def parseEmptyRulesetPolicyInto (buffer beyond : List Char) (position : Nat) :
    Option (List Char × RulesetName × EmptyRulesetPolicy) :=
  let start := advance '\x00' isBlankChar buffer position
  let name := wordAt buffer start
  (getRuleset name).bind fun ruleset =>
    -- the terminator of the name is stepped over, also where the line ends with it
    let memory := terminate '\x00' buffer (start + name.length) ++ beyond
    let start := advance '\x00' isBlankChar memory (start + name.length + 1)
    let word := wordAt memory start
    (parsePolicy word).map fun policy =>
      ((terminate '\x00' memory (start + word.length)).take buffer.length, ruleset, policy)

/-- The string is ended at the first `sign` in it. -/
def cutAt (sign : Char) (buffer : List Char) (position : Nat) : List Char :=
  terminate '\x00' buffer (advance '\x00' (fun char => char ≠ sign) buffer position)

structure Reader where
  buffer : List Char
  settings : Settings
  inside : Option RulesetName

/-- A line as `fgets` reads it, and the memory behind the buffer at that time. -/
structure BufferedLine where
  text : List Char
  beyond : List Char

section

variable (isExecutable : String → Bool)

/-- The `switch` of `config_read` on an argument in the buffer. -/
def readArgument (settings : Settings) (opcode : Opcode) (buffer beyond : List Char)
    (position : Nat) : Option Reader :=
  match opcode with
  | .firewallRuleSet =>
      let buffer := cutAt '\t' (cutAt ' ' buffer position) position
      (getRuleset (textAt '\x00' buffer position)).map fun ruleset =>
        { buffer := buffer, settings := settings, inside := some ruleset }
  | .emptyRuleSetPolicy =>
      (parseEmptyRulesetPolicyInto buffer beyond position).map fun read =>
        { buffer := read.1, settings := settings.setPolicy read.2.1 read.2.2, inside := none }
  | .webRoot =>
      (readOption isExecutable settings .webRoot (textAt '\x00' buffer position)).map
        fun settings =>
          { buffer := trimEnd '\x00' (fun char => char = '/') buffer position,
            settings := settings, inside := none }
  | opcode =>
      (readOption isExecutable settings opcode (textAt '\x00' buffer position)).map
        fun settings => { buffer := buffer, settings := settings, inside := none }

/-- One line of `config_read`, or of `parse_firewall_ruleset`, whose lines have a buffer of
their own. -/
def Reader.readLine (reader : Reader) (line : BufferedLine) : Option Reader :=
  match reader.inside with
  | some ruleset =>
      match stripWhitespace (cString line.text) with
      | [] => some reader
      | first :: rest =>
          if first = '}' then some { reader with inside := none }
          else
            (parseRuleLine (first :: rest)).map fun rule =>
              { reader with settings := reader.settings.addRule ruleset rule }
  | none =>
      let stripped := stripWhitespaceInto (fgetsInto reader.buffer line.text)
      if textAt '\x00' stripped.1 stripped.2 = [] then some { reader with buffer := stripped.1 }
      else
        (splitOptionInto stripped.1 stripped.2).bind fun cut =>
          let opcode := configParseOpcode (textAt '\x00' cut.1 stripped.2)
          readArgument isExecutable reader.settings opcode cut.1 line.beyond cut.2

def Reader.readLines (reader : Reader) (lines : List BufferedLine) : Option Reader :=
  lines.foldlM (Reader.readLine isExecutable) reader

end

/-- The directive that is read from an `EmptyRuleSetPolicy` line, unless the program exits. -/
def Reader.directive (reader : Reader) (line : BufferedLine) :
    Option (RulesetName × EmptyRulesetPolicy) :=
  let stripped := stripWhitespaceInto (fgetsInto reader.buffer line.text)
  (splitOptionInto stripped.1 stripped.2).bind fun cut =>
    (parseEmptyRulesetPolicyInto cut.1 line.beyond cut.2).map Prod.snd

/-- The start of a file, which `config_read` reads without exiting to a line at its top. -/
structure ReadStart (isExecutable : String → Bool) where
  /-- what the buffer holds before the first line -/
  memory : List Char
  lines : List BufferedLine
  reader : Reader
  size : memory.length = maxBuf
  fits : ∀ line ∈ lines, line.text.length < maxBuf
  reads : ({ buffer := memory, settings := configInit, inside := none } : Reader).readLines
    isExecutable lines = some reader
  top : reader.inside = none

/-! ## What a line says -/

def lineArgument (line : List Char) : List Char :=
  ((splitOption (stripWhitespace (cString line))).map Prod.snd).getD []

/-- The ruleset that an `EmptyRuleSetPolicy` line names, if there is one of that name. -/
def lineRuleset (line : List Char) : Option RulesetName := (rulesetWord (lineArgument line)).1

def policyWord (arg : List Char) : List Char :=
  ((rulesetWord arg).2.dropWhile isBlankChar).takeWhile fun char => !isBlankChar char

def NamesPolicy (line : List Char) : Prop := policyWord (lineArgument line) ≠ []

instance (line : List Char) : Decidable (NamesPolicy line) :=
  inferInstanceAs (Decidable (policyWord (lineArgument line) ≠ []))

def lineBehind (buffer line : List Char) : List Char :=
  let uncommented := stripComment none (cString line)
  (((uncommented.dropWhile isSpace).rtakeWhile isSpace).map fun _ => '\x00') ++
    (fgetsInto buffer line).drop (uncommented.length + 1)

def firstPolicyWord (memory : List Char) : List Char :=
  ((cString memory).dropWhile isBlankChar).takeWhile fun char => !isBlankChar char

/-- A policy in the memory behind the end of the line. -/
def Reader.policyBehind (reader : Reader) (line : BufferedLine) : Option EmptyRulesetPolicy :=
  parsePolicy (firstPolicyWord (lineBehind reader.buffer line.text ++ line.beyond))

/-! ## What stands in the buffer -/

section

variable {buffer beyond text rest : List Char} {position : Nat}

theorem fgetsInto_eq (buffer line : List Char) :
    fgetsInto buffer line = line ++ '\x00' :: buffer.drop (line.length + 1) := by
  rw [fgetsInto, overwrite, List.take_zero, List.nil_append, List.append_assoc, Nat.zero_add,
    List.length_append]
  rfl

theorem textAt_fgetsInto (buffer line : List Char) :
    textAt '\x00' (fgetsInto buffer line) 0 = cString line := by
  rw [fgetsInto_eq, textAt, List.drop_zero, cString, List.takeWhile_append]
  split
  · next whole =>
      have same := (List.takeWhile_prefix (l := line) fun char => decide (char ≠ '\x00'))
        |>.eq_of_length whole
      rw [same]
      simp
  · rfl

theorem stripComment_prefix (previous : Option Char) (line : List Char) :
    stripComment previous line <+: line := by
  induction line generalizing previous with
  | nil => exact List.prefix_rfl
  | cons char line induction =>
      rw [stripComment]
      split
      · exact List.nil_prefix
      · exact List.cons_prefix_cons.mpr ⟨rfl, induction (some char)⟩

theorem holds_stripWhitespaceInto (buffer line : List Char) :
    Holds '\x00' (stripWhitespaceInto (fgetsInto buffer line)).1
      (stripWhitespaceInto (fgetsInto buffer line)).2 (stripWhitespace (cString line))
      (lineBehind buffer line) := by
  have ended : '\x00' ∈ (fgetsInto buffer line).drop 0 := by
    rw [fgetsInto_eq]
    exact List.mem_append_right _ List.mem_cons_self
  have whole := holds_textAt ended
  rw [textAt_fgetsInto] at whole
  rcases stripComment_prefix none (cString line) with ⟨comment, parts⟩
  have split := whole
  rw [← parts] at split
  have uncommented := split.terminate
  rw [Nat.zero_add] at uncommented
  have stripped := (uncommented.advance isSpace).trimEnd isSpace
  rw [stripWhitespaceInto, textAt_fgetsInto]
  exact stripped

theorem splitOptionInto_eq (holds : Holds '\x00' buffer position text rest) :
    (splitOption text = none ∧ splitOptionInto buffer position = none) ∨
      ∃ word arg cut start behind, splitOption text = some (word, arg) ∧
        splitOptionInto buffer position = some (cut, start) ∧
        Holds '\x00' cut position word behind ∧ Holds '\x00' cut start arg rest := by
  have pieces := List.takeWhile_append_dropWhile (p := fun char => !isSpace char) (l := text)
  have atEnd := holds.advance fun char => !isSpace char
  rw [splitOption, splitOptionInto, atEnd.textAt_eq]
  cases shape : text.dropWhile fun char => !isSpace char with
  | nil => exact .inl ⟨rfl, rfl⟩
  | cons space more =>
      rw [shape] at pieces
      have parts := holds
      rw [← pieces] at parts
      have option := parts.terminate
      have argument := parts.second.advance isBlankChar
      rw [← holds.advance_eq] at option argument
      exact .inr ⟨_, _, _, _, _, rfl, rfl, option, argument⟩

theorem policyWord_cons {blank : Char} {more : List Char}
    (shape : (rulesetWord text).2 = blank :: more) :
    policyWord text = (more.dropWhile isBlankChar).takeWhile fun char => !isBlankChar char := by
  have stops := head_dropWhile (fun char => !isBlankChar char) (text.dropWhile isBlankChar) blank
    (congrArg List.head? shape)
  rw [policyWord, shape, List.dropWhile_cons_of_pos (by simpa using stops)]

/-- One character behind the name, there is the policy or what follows the line. -/
theorem firstPolicyWord_drop (plain : '\x00' ∉ (rulesetWord text).2) (behind : List Char) :
    firstPolicyWord (((rulesetWord text).2 ++ '\x00' :: behind).drop 1) =
      if (rulesetWord text).2 = [] then firstPolicyWord behind else policyWord text := by
  cases shape : (rulesetWord text).2 with
  | nil => rfl
  | cons blank more =>
      have others : ∀ char ∈ more, decide (char ≠ '\x00') = true := by
        intro char member
        have other : char ≠ '\x00' := by
          rintro rfl
          apply plain
          rw [shape]
          exact List.mem_cons_of_mem _ member
        simpa using other
      rw [if_neg (List.cons_ne_nil _ _), policyWord_cons shape, List.cons_append, List.drop_one,
        List.tail_cons, firstPolicyWord, cString, List.takeWhile_append_of_pos others,
        List.takeWhile_cons_of_neg (by simp), List.append_nil]

theorem parseEmptyRulesetPolicyInto_eq (holds : Holds '\x00' buffer position text rest)
    (beyond : List Char) :
    (parseEmptyRulesetPolicyInto buffer beyond position).map Prod.snd =
      (rulesetWord text).1.bind fun ruleset =>
        (parsePolicy (if (rulesetWord text).2 = [] then firstPolicyWord (rest ++ beyond)
          else policyWord text)).map fun policy => (ruleset, policy) := by
  let name := (text.dropWhile isBlankChar).takeWhile fun char => !isBlankChar char
  have named := holds.advance isBlankChar
  have word : wordAt buffer (advance '\x00' isBlankChar buffer position) = name := by
    rw [wordAt, named.textAt_eq]
  have pieces : name ++ (rulesetWord text).2 = text.dropWhile isBlankChar :=
    List.takeWhile_append_dropWhile
  generalize same : advance '\x00' isBlankChar buffer position = start at named word
  rw [← pieces] at named
  have ended := named.terminate
  have plain : '\x00' ∉ (rulesetWord text).2 := fun member =>
    named.plain (List.mem_append_right _ member)
  have behind : (terminate '\x00' buffer (start + name.length) ++ beyond).drop
      (start + name.length + 1) = buffer.drop (start + name.length + 1) ++ beyond := by
    rw [List.drop_append_of_le_length ended.inside, ended.behind]
  have atLeast : 1 ≤ ((rulesetWord text).2 ++ '\x00' :: rest).length := by
    rw [List.length_append, List.length_cons]
    omega
  have policy : wordAt (terminate '\x00' buffer (start + name.length) ++ beyond)
      (advance '\x00' isBlankChar (terminate '\x00' buffer (start + name.length) ++ beyond)
        (start + name.length + 1)) =
      if (rulesetWord text).2 = [] then firstPolicyWord (rest ++ beyond) else policyWord text := by
    rw [← firstPolicyWord_drop plain, wordAt, textAt_advance, textAt, behind, ← List.drop_drop,
      named.drop_front, ← List.drop_append_of_le_length atLeast, List.append_assoc,
      List.cons_append]
    rfl
  simp only [parseEmptyRulesetPolicyInto, same, word, policy]
  rw [Option.map_bind]
  refine congrArg _ (funext fun ruleset => ?_)
  rw [Function.comp_apply, Option.map_map]
  rfl

end

/-! ## The directive of a line -/

theorem policyWord_eq (arg : List Char) :
    policyWord arg =
      firstWord isBlankChar (otherWords isBlankChar (arg.dropWhile isBlankChar)) := by
  have others : otherWords isBlankChar (arg.dropWhile isBlankChar) =
      ((rulesetWord arg).2.drop 1).dropWhile isBlankChar := rfl
  rw [others, firstWord]
  cases shape : (rulesetWord arg).2 with
  | nil =>
      rw [policyWord, shape]
      rfl
  | cons blank more => rw [policyWord_cons shape, List.drop_one, List.tail_cons]

theorem lineArgument_eq {line word arg : List Char}
    (split : splitOption (stripWhitespace (cString line)) = some (word, arg)) :
    lineArgument line = arg := by
  rw [lineArgument, split]
  rfl

theorem trimmed_lineArgument (line : List Char) :
    Trimmed isBlankChar ((lineArgument line).dropWhile isBlankChar) := by
  have trimmed := trimmed_stripWhitespace (cString line)
  apply trimmed.suffix _ (head_dropWhile isBlankChar _)
  apply (List.dropWhile_suffix _).trans
  rw [lineArgument, splitOption]
  split
  · exact List.nil_suffix
  · next space more shape =>
      have behind : space :: more <:+ stripWhitespace (cString line) :=
        shape ▸ List.dropWhile_suffix _
      exact (List.dropWhile_suffix _).trans ((List.suffix_cons space more).trans behind)

theorem namesPolicy_iff (line : List Char) :
    NamesPolicy line ↔ (rulesetWord (lineArgument line)).2 ≠ [] := by
  have trimmed := trimmed_lineArgument line
  rw [NamesPolicy, policyWord_eq, ne_eq, trimmed.otherWords.firstWord_eq_nil_iff,
    trimmed.otherWords_eq_nil_iff]
  rfl

theorem Reader.directive_eq (line : BufferedLine)
    (policy : lineOption (cString line.text) = some .emptyRuleSetPolicy) (reader : Reader) :
    reader.directive line =
      (lineRuleset line.text).bind fun ruleset =>
        (if NamesPolicy line.text then parsePolicy (policyWord (lineArgument line.text))
          else reader.policyBehind line).map fun policy => (ruleset, policy) := by
  have stored := holds_stripWhitespaceInto reader.buffer line.text
  rcases splitOptionInto_eq stored with ⟨missing, _⟩ | ⟨word, arg, cut, start, behind, split, into,
    _, argument⟩
  · rw [lineOption, missing] at policy
    cases policy
  · have given := lineArgument_eq split
    have word : (if (rulesetWord arg).2 = [] then
          firstPolicyWord (lineBehind reader.buffer line.text ++ line.beyond)
        else policyWord arg) =
        if NamesPolicy line.text then policyWord (lineArgument line.text)
        else firstPolicyWord (lineBehind reader.buffer line.text ++ line.beyond) := by
      simp only [namesPolicy_iff, given, ite_not]
    rw [directive, into, Option.bind_some, parseEmptyRulesetPolicyInto_eq argument line.beyond,
      lineRuleset, given, word, given, policyBehind]
    refine congrArg _ (funext fun ruleset => ?_)
    rw [apply_ite parsePolicy]

/-! ## The buffer and the texts -/

section

variable {buffer text rest : List Char} {position : Nat}

theorem holds_cutAt (sign : Char) (holds : Holds '\x00' buffer position text rest) :
    ∃ behind, Holds '\x00' (cutAt sign buffer position) position
      (text.takeWhile fun char => char ≠ sign) behind := by
  have pieces := List.takeWhile_append_dropWhile (p := fun char => decide (char ≠ sign)) (l := text)
  have parts := holds
  rw [← pieces] at parts
  have cut := parts.terminate
  rw [← holds.advance_eq] at cut
  exact ⟨_, cut⟩

/-- Cutting at a space and then at a tab leaves what is before the first blank. -/
theorem textAt_cutAt (holds : Holds '\x00' buffer position text rest) :
    textAt '\x00' (cutAt '\t' (cutAt ' ' buffer position) position) position =
      text.takeWhile fun char => !isBlankChar char := by
  rcases holds_cutAt ' ' holds with ⟨behind, spaces⟩
  rcases holds_cutAt '\t' spaces with ⟨behind, tabs⟩
  rw [tabs.textAt_eq, List.takeWhile_takeWhile]
  congr 1
  funext char
  simp [isBlankChar, Bool.and_comm]

end

theorem parseEmptyRulesetPolicy_eq (arg : List Char) :
    parseEmptyRulesetPolicy arg =
      (rulesetWord arg).1.bind fun ruleset =>
        (parsePolicy (policyWord arg)).map fun policy => (ruleset, policy) := by
  rw [parseEmptyRulesetPolicy]
  cases named : (rulesetWord arg).1 with
  | none => simp [named]
  | some ruleset => simp [named, policyWord, Option.map_eq_bind]

section

variable (isExecutable : String → Bool)

theorem readArgument_eq {buffer arg rest : List Char} {position : Nat} {opcode : Opcode}
    (holds : Holds '\x00' buffer position arg rest)
    (named : opcode = .emptyRuleSetPolicy → (rulesetWord arg).2 ≠ []) (settings : Settings)
    (beyond : List Char) :
    (readArgument isExecutable settings opcode buffer beyond position).map
        (fun reader => (reader.settings, reader.inside)) =
      if opcode = .firewallRuleSet then
        (getRuleset (arg.takeWhile fun char => !isBlankChar char)).map
          fun ruleset => (settings, some ruleset)
      else (readOption isExecutable settings opcode arg).map fun settings => (settings, none) := by
  unfold readArgument
  split
  · simp only [textAt_cutAt holds, if_true, Option.map_map]
    rfl
  · have read := parseEmptyRulesetPolicyInto_eq holds beyond
    rw [if_neg (named rfl), ← parseEmptyRulesetPolicy_eq] at read
    rw [if_neg (by decide), readOption, ← read, Option.map_map, Option.map_map, Option.map_map]
    rfl
  · rw [if_neg (by decide), holds.textAt_eq, Option.map_map]
    rfl
  · next other _ _ =>
      rw [if_neg other, holds.textAt_eq, Option.map_map]
      rfl

theorem Reader.readLine_inside (buffer : List Char) (settings : Settings) (ruleset : RulesetName)
    (line : BufferedLine) (lines : List (List Char)) :
    configRead isExecutable (some ruleset) settings (cString line.text :: lines) =
      (Reader.readLine isExecutable ⟨buffer, settings, some ruleset⟩ line).bind fun next =>
        configRead isExecutable next.inside next.settings lines := by
  cases shape : stripWhitespace (cString line.text) with
  | nil =>
      rw [configRead_blank isExecutable settings lines shape]
      simp only [readLine, shape, Option.bind_some]
  | cons first rest =>
      rw [configRead_inside isExecutable settings lines shape]
      simp only [readLine, shape]
      split
      · rfl
      · rw [Option.bind_map]
        rfl

theorem rulesetWord_of_named {line word arg : List Char}
    (named : lineOption (cString line) = some .emptyRuleSetPolicy → NamesPolicy line)
    (split : splitOption (stripWhitespace (cString line)) = some (word, arg))
    (policy : configParseOpcode word = .emptyRuleSetPolicy) : (rulesetWord arg).2 ≠ [] := by
  rw [← lineArgument_eq split]
  apply (namesPolicy_iff line).mp
  apply named
  rw [lineOption, split, Option.map_some, policy]

theorem Reader.readLine_top {line : BufferedLine}
    (named : lineOption (cString line.text) = some .emptyRuleSetPolicy → NamesPolicy line.text)
    (buffer : List Char) (settings : Settings) (lines : List (List Char)) :
    configRead isExecutable none settings (cString line.text :: lines) =
      (Reader.readLine isExecutable ⟨buffer, settings, none⟩ line).bind fun next =>
        configRead isExecutable next.inside next.settings lines := by
  have stored := holds_stripWhitespaceInto buffer line.text
  cases shape : stripWhitespace (cString line.text) with
  | nil =>
      rw [configRead_blank isExecutable settings lines shape]
      rw [shape] at stored
      simp only [readLine, stored.textAt_eq, if_true, Option.bind_some]
  | cons first rest =>
      rw [configRead_top isExecutable settings lines shape, ← shape]
      have nonempty : stripWhitespace (cString line.text) ≠ [] := by
        rw [shape]
        exact List.cons_ne_nil first rest
      simp only [readLine, stored.textAt_eq, if_neg nonempty]
      rcases splitOptionInto_eq stored with ⟨missing, exits⟩ | ⟨word, arg, cut, start, behind,
        split, into, option, argument⟩
      · rw [missing, exits]
        rfl
      · rw [split, into, Option.bind_some, Option.bind_some, option.textAt_eq]
        have read := readArgument_eq isExecutable argument (rulesetWord_of_named named split)
          settings line.beyond
        have next (outcome : Option Reader) :
            (outcome.bind fun next => configRead isExecutable next.inside next.settings lines) =
              (outcome.map fun next => (next.settings, next.inside)).bind fun next =>
                configRead isExecutable next.2 next.1 lines := by
          rw [Option.bind_map]
          rfl
        rw [next, read]
        split
        · rw [Option.bind_map]
          rfl
        · rw [Option.bind_map]
          rfl

theorem Reader.readLine_configRead {line : BufferedLine}
    (named : lineOption (cString line.text) = some .emptyRuleSetPolicy → NamesPolicy line.text)
    (reader : Reader) (lines : List (List Char)) :
    configRead isExecutable reader.inside reader.settings (cString line.text :: lines) =
      (reader.readLine isExecutable line).bind fun next =>
        configRead isExecutable next.inside next.settings lines := by
  rcases reader with ⟨buffer, settings, inside⟩
  cases inside with
  | none => exact readLine_top isExecutable named buffer settings lines
  | some ruleset => exact readLine_inside isExecutable buffer settings ruleset line lines

theorem Reader.readLines_settings {lines : List BufferedLine}
    (named : ∀ line ∈ lines, lineOption (cString line.text) = some .emptyRuleSetPolicy →
      NamesPolicy line.text) (reader : Reader) :
    (reader.readLines isExecutable lines).map Reader.settings =
      configRead isExecutable reader.inside reader.settings
        (lines.map fun line => cString line.text) := by
  induction lines generalizing reader with
  | nil => rfl
  | cons line lines induction =>
      rcases List.forall_mem_cons.mp named with ⟨first, others⟩
      rw [List.map_cons, readLine_configRead isExecutable first, readLines, List.foldlM_cons,
        Option.bind_eq_bind, Option.map_bind]
      exact congrArg _ (funext fun next => induction others next)

theorem Reader.readLine_settings {reader : Reader} {line : BufferedLine}
    (top : reader.inside = none)
    (policy : lineOption (cString line.text) = some .emptyRuleSetPolicy) :
    (reader.readLine isExecutable line).map Reader.settings =
      (reader.directive line).map fun directive =>
        reader.settings.setPolicy directive.1 directive.2 := by
  have stored := holds_stripWhitespaceInto reader.buffer line.text
  rw [readLine, top, directive]
  rcases splitOptionInto_eq stored with ⟨missing, _⟩ | ⟨word, arg, cut, start, behind, split, into,
    option, _⟩
  · rw [lineOption, missing] at policy
    cases policy
  · rw [lineOption, split, Option.map_some, Option.some_inj] at policy
    have nonempty : stripWhitespace (cString line.text) ≠ [] := by
      intro empty
      rw [empty] at split
      cases split
    simp only [stored.textAt_eq, if_neg nonempty, into, Option.bind_some, option.textAt_eq, policy,
      readArgument, Option.map_map]
    rfl

end

/-! ## Two files -/

section

variable {isExecutable : String → Bool}

/-- Both files say the same to the line, and nothing unless it names a policy. -/
def ReadAlone (first second : ReadStart isExecutable) (text beyond other : List Char) : Prop :=
  first.reader.directive ⟨text, beyond⟩ = second.reader.directive ⟨text, other⟩ ∧
    (¬ NamesPolicy text → first.reader.directive ⟨text, beyond⟩ = none ∧
      second.reader.directive ⟨text, other⟩ = none)

/-- A policy line is read on its own unless it names a ruleset, ends there, and what one of
the files left behind it is a policy. -/
theorem readAlone_iff {text : List Char}
    (policy : lineOption (cString text) = some .emptyRuleSetPolicy)
    (first second : ReadStart isExecutable) (beyond other : List Char) :
    ReadAlone first second text beyond other ↔
      lineRuleset text = none ∨ NamesPolicy text ∨
        first.reader.policyBehind ⟨text, beyond⟩ = none ∧
          second.reader.policyBehind ⟨text, other⟩ = none := by
  rw [ReadAlone, Reader.directive_eq ⟨text, beyond⟩ policy,
    Reader.directive_eq ⟨text, other⟩ policy]
  cases lineRuleset text with
  | none => simp
  | some ruleset =>
      by_cases named : NamesPolicy text
      · simp [named]
      · simp only [Option.bind_some, if_neg named, Option.map_eq_none_iff, reduceCtorEq, false_or]
        constructor
        · exact fun ⟨_, rejected⟩ => .inr (rejected named)
        · rintro (names | ⟨left, right⟩)
          · exact absurd names named
          · exact ⟨by rw [left, right], fun _ => ⟨left, right⟩⟩

end

def ReadStart.ofIsSome (isExecutable : String → Bool) (memory : List Char)
    (lines : List BufferedLine) (size : memory.length = maxBuf)
    (fits : ∀ line ∈ lines, line.text.length < maxBuf)
    (reads : (({ buffer := memory, settings := configInit, inside := none } : Reader).readLines
      isExecutable lines).isSome = true)
    (top : (Option.get _ reads).inside = none) : ReadStart isExecutable where
  memory := memory
  lines := lines
  reader := Option.get _ reads
  size := size
  fits := fits
  reads := (Option.some_get reads).symm
  top := top

def emptyStart : ReadStart fun _ => false :=
  .ofIsSome _ (List.replicate maxBuf '\x00') [] List.length_replicate
    (fun _ member => absurd member List.not_mem_nil) rfl rfl

/-- A policy for another ruleset in the line before. -/
def policyStart : ReadStart fun _ => false :=
  .ofIsSome _ (List.replicate maxBuf '\x00')
    [⟨"EmptyRuleSetPolicy trusted-users   allow\n".toList, []⟩] List.length_replicate
    (by decide +kernel) (by decide +kernel) (by decide +kernel)

theorem readAlone_iff_named :
    ReadAlone policyStart emptyStart "EmptyRuleSetPolicy users-to-router block".toList [] [] :=
  (readAlone_iff (by decide +kernel) policyStart emptyStart [] []).mpr
    (.inr (.inl (by decide +kernel)))

/-- A line that names no policy takes that of the line before it. -/
theorem policy_of_line_before :
    lineOption (cString "EmptyRuleSetPolicy users-to-router".toList) = some .emptyRuleSetPolicy ∧
      policyStart.reader.directive ⟨"EmptyRuleSetPolicy users-to-router".toList, []⟩ =
        some (.usersToRouter, .accept) ∧
      emptyStart.reader.directive ⟨"EmptyRuleSetPolicy users-to-router".toList, []⟩ = none ∧
      ¬ ReadAlone policyStart emptyStart "EmptyRuleSetPolicy users-to-router".toList [] [] := by
  have taken : policyStart.reader.directive ⟨"EmptyRuleSetPolicy users-to-router".toList, []⟩ =
      some (.usersToRouter, .accept) := by decide +kernel
  have rejected : emptyStart.reader.directive ⟨"EmptyRuleSetPolicy users-to-router".toList, []⟩ =
      none := by decide +kernel
  refine ⟨by decide +kernel, taken, rejected, fun alone => ?_⟩
  have same := alone.1
  rw [taken, rejected] at same
  cases same

end Nodogsplash
