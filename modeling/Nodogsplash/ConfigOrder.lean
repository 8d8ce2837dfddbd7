import Nodogsplash.ConfigRead

/-! # The order of the options

When the items of a configuration file can be rearranged without a change. What an
item says is an effect; reading a file runs the effects one after the other. A line
with `EmptyRuleSetPolicy` and no policy is rejected here; what the code finds behind
it is left from the line before, and the subject of `ConfigBuffer`. -/

namespace Nodogsplash

/-! ## Items -/

/-- The option of a line, if it has an argument. -/
def lineOption (line : List Char) : Option Opcode :=
  (splitOption (stripWhitespace line)).map fun words => configParseOpcode words.1

/-- An item at the top of a file: a line, or a whole block of rules. -/
inductive ConfigItem
  | line (text : List Char) (single : lineOption text ≠ some .firewallRuleSet)
  | block (head : List Char) (rules : List (List Char)) (closing : List Char)
      (opens : lineOption head = some .firewallRuleSet)
      (inner : ∀ rule ∈ rules, (stripWhitespace rule).head? ≠ some '}')
      (closes : (stripWhitespace closing).head? = some '}')

namespace ConfigItem

def lines : ConfigItem → List (List Char)
  | .line text _ => [text]
  | .block head rules closing _ _ _ => head :: (rules ++ [closing])

def option : ConfigItem → Option Opcode
  | .line text _ => lineOption text
  | .block .. => some .firewallRuleSet

end ConfigItem

section

variable (isExecutable : String → Bool)

/-- `config_read` on a file of items, from the values of `config_init`. -/
def readFile (file : List ConfigItem) : Option Settings :=
  configRead isExecutable none configInit (file.flatMap ConfigItem.lines)

/-- Some configuration accepts the item. -/
def ConfigItem.Readable (item : ConfigItem) : Prop :=
  ∃ settings, (configRead isExecutable none settings item.lines).isSome = true

end

/-! ## What is compared -/

inductive MarkName
  | authenticated
  | blocked
  | trusted
  deriving DecidableEq

structure Access where
  macmechanism : MacMechanism
  rulesets : RulesetName → FirewallRuleset
  trusted : List String
  blocked : List String
  allowed : List String
  mark : MarkName → BitVec 32

def Settings.access (settings : Settings) : Access where
  macmechanism := settings.macmechanism
  rulesets := settings.rulesets
  trusted := settings.trustedmaclist
  blocked := settings.blockedmaclist
  allowed := settings.allowedmaclist
  mark
    | .authenticated => settings.fwMarkAuthenticated
    | .blocked => settings.fwMarkBlocked
    | .trusted => settings.fwMarkTrusted

structure Access.Same (left right : Access) : Prop where
  macmechanism : left.macmechanism = right.macmechanism
  rulesets : left.rulesets = right.rulesets
  trusted : ∀ mac, mac ∈ left.trusted ↔ mac ∈ right.trusted
  blocked : ∀ mac, mac ∈ left.blocked ↔ mac ∈ right.blocked
  allowed : ∀ mac, mac ∈ left.allowed ↔ mac ∈ right.allowed
  mark : left.mark = right.mark

def SameOutcome (left right : Option Settings) : Prop :=
  match left, right with
  | none, none => True
  | some left, some right => left.access.Same right.access
  | _, _ => False

/-! ## Effects -/

/-- What an item says, without regard to what was read before it. -/
inductive Effect
  | rejected
  | neutral
  | mechanism (mechanism : MacMechanism)
  | trusted (text : String)
  | blocked (text : String)
  | allowed (text : String)
  | mark (name : MarkName) (value : BitVec 32)
  | policy (name : RulesetName) (policy : EmptyRulesetPolicy)
  | rules (name : RulesetName) (rules : List FirewallRule)

def parseRules : List (List Char) → Option (List FirewallRule)
  | [] => some []
  | line :: rest =>
      match stripWhitespace line with
      | [] => parseRules rest
      | first :: line =>
          (parseRuleLine (first :: line)).bind fun rule => (parseRules rest).map (rule :: ·)

section

variable (isExecutable : String → Bool)

def optionEffect (opcode : Opcode) (arg : List Char) : Effect :=
  match opcode with
  | .emptyRuleSetPolicy =>
      (parseEmptyRulesetPolicy arg).elim .rejected fun directive => .policy directive.1 directive.2
  | .trustedMACList => .trusted (String.ofList arg)
  | .blockedMACList => .blocked (String.ofList arg)
  | .allowedMACList => .allowed (String.ofList arg)
  | .macMechanism => (parseMacMechanism arg).elim .rejected .mechanism
  | .fwMarkAuthenticated => (scanHex arg).elim .rejected (.mark .authenticated)
  | .fwMarkBlocked => (scanHex arg).elim .rejected (.mark .blocked)
  | .fwMarkTrusted => (scanHex arg).elim .rejected (.mark .trusted)
  -- the other arguments are judged without regard to the configuration
  | opcode =>
      if (readOption isExecutable configInit opcode arg).isSome then .neutral else .rejected

namespace ConfigItem

def effect : ConfigItem → Effect
  | .line text _ =>
      if stripWhitespace text = [] then .neutral
      else
        (splitOption (stripWhitespace text)).elim .rejected fun words =>
          optionEffect isExecutable (configParseOpcode words.1) words.2
  | .block head rules _ _ _ _ =>
      ((splitOption (stripWhitespace head)).bind fun words =>
        getRuleset (words.2.takeWhile fun char => !isBlankChar char)).elim .rejected fun name =>
          (parseRules rules).elim .rejected fun rules => .rules name rules

end ConfigItem

end

/-- The body of the `parse_*_mac_list` functions on the list alone. -/
def macListAdded (invalid : Int) (enabled : Bool) (list : List String) (text : String) :
    Option (List String) :=
  (macListPieces text).foldlM (fun list piece =>
    let added := addToMacList invalid enabled list piece
    if added.1 < 0 then none else some added.2) list

def macListMerged (list : List String) (text : String) : List String :=
  (macListPieces text).foldl (fun list piece => (addToMacList 1 true list piece).2) list

namespace Access

def setPolicy (access : Access) (name : RulesetName) (policy : EmptyRulesetPolicy) : Access :=
  { access with
    rulesets := Function.update access.rulesets name
      { access.rulesets name with emptyrulesetpolicy := policy } }

def addRules (access : Access) (name : RulesetName) (rules : List FirewallRule) : Access :=
  { access with
    rulesets := Function.update access.rulesets name
      { access.rulesets name with rules := (access.rulesets name).rules ++ rules } }

end Access

namespace Effect

open Classical in
noncomputable def apply (access : Access) : Effect → Option Access
  | .rejected => none
  | .neutral => some access
  | .mechanism chosen => some { access with macmechanism := chosen }
  | .trusted text =>
      (macListAdded 1 true access.trusted text).map fun list => { access with trusted := list }
  | .blocked text =>
      (macListAdded (-1) (access.macmechanism = .block) access.blocked text).map fun list =>
        { access with blocked := list }
  | .allowed text =>
      (macListAdded (-1) (access.macmechanism = .allow) access.allowed text).map fun list =>
        { access with allowed := list }
  | .mark name value =>
      if value = 0 ∨ ∃ other, other ≠ name ∧ value = access.mark other then none
      else some { access with mark := Function.update access.mark name value }
  | .policy name ending => some (access.setPolicy name ending)
  | .rules name added => some (access.addRules name added)

end Effect

/-! ## Reading is running the effects -/

theorem parseMacList_eq {add : Config → String → Int × Config} {list : Config → List String}
    {invalid : Int} {enabled : Bool} (set : Config → List String → Config)
    (holds : Config → Prop)
    (added : ∀ config piece, holds config → add config piece =
      ((addToMacList invalid enabled (list config) piece).1,
        set config (addToMacList invalid enabled (list config) piece).2))
    (kept : ∀ config new, holds config → holds (set config new))
    (listSet : ∀ config new, list (set config new) = new)
    (setSet : ∀ config first second, set (set config first) second = set config second)
    (setList : ∀ config, set config (list config) = config)
    (config : Config) (text : String) (start : holds config) :
    parseMacList add config text =
      (macListAdded invalid enabled (list config) text).map (set config) := by
  rw [parseMacList, macListAdded]
  generalize macListPieces text = pieces
  induction pieces generalizing config with
  | nil =>
      rw [List.foldlM_nil, List.foldlM_nil]
      exact congrArg some (setList config).symm
  | cons piece pieces induction =>
      rw [List.foldlM_cons, List.foldlM_cons, added config piece start]
      by_cases failed : (addToMacList invalid enabled (list config) piece).1 < 0
      · simp [failed]
      · have rest := induction
          (set config (addToMacList invalid enabled (list config) piece).2) (kept _ _ start)
        simp only [failed, if_false, Option.bind_eq_bind, Option.bind_some, listSet] at rest ⊢
        rw [rest]
        congr 1
        funext new
        exact setSet config _ new

theorem parseTrustedMacList_eq (config : Config) (text : String) :
    config.parseTrustedMacList text =
      (macListAdded 1 true config.trustedmaclist text).map fun list =>
        { config with trustedmaclist := list } :=
  parseMacList_eq (fun config list => { config with trustedmaclist := list }) (fun _ => True)
    (fun _ _ _ => rfl) (fun _ _ _ => trivial) (fun _ _ => rfl) (fun _ _ _ => rfl) (fun _ => rfl)
    config text trivial

theorem parseBlockedMacList_eq (config : Config) (text : String) :
    config.parseBlockedMacList text =
      (macListAdded (-1) (config.macmechanism = .block) config.blockedmaclist text).map fun list =>
        { config with blockedmaclist := list } :=
  parseMacList_eq (fun config list => { config with blockedmaclist := list })
    (fun other => other.macmechanism = config.macmechanism)
    (fun other piece same => by rw [Config.addToBlockedMacList, same]) (fun _ _ same => same)
    (fun _ _ => rfl) (fun _ _ _ => rfl) (fun _ => rfl) config text rfl

theorem parseAllowedMacList_eq (config : Config) (text : String) :
    config.parseAllowedMacList text =
      (macListAdded (-1) (config.macmechanism = .allow) config.allowedmaclist text).map fun list =>
        { config with allowedmaclist := list } :=
  parseMacList_eq (fun config list => { config with allowedmaclist := list })
    (fun other => other.macmechanism = config.macmechanism)
    (fun other piece same => by rw [Config.addToAllowedMacList, same]) (fun _ _ same => same)
    (fun _ _ => rfl) (fun _ _ _ => rfl) (fun _ => rfl) config text rfl

/-- An argument that is judged by itself, and changes nothing that is compared. -/
theorem checked_access {α : Type} {value : Option α} {bad : α → Bool} {set other : α → Settings}
    {access : Access} (keeps : ∀ value, (set value).access = access) :
    (checked value bad set).map Settings.access =
      (if (checked value bad other).isSome then Effect.neutral else .rejected).apply access := by
  cases value with
  | none => rfl
  | some value =>
      simp only [checked, Option.bind_some]
      split
      · rfl
      · exact congrArg some (keeps value)

/-- The marks are told apart by comparing each with the two others. -/
theorem checked_mark {value : Option (BitVec 32)} {bad : BitVec 32 → Bool}
    {set : BitVec 32 → Settings} {access : Access} {name : MarkName}
    (same : ∀ value, bad value = true ↔
      value = 0 ∨ ∃ other, other ≠ name ∧ value = access.mark other)
    (stored : ∀ value, (set value).access =
      { access with mark := Function.update access.mark name value }) :
    (checked value bad set).map Settings.access =
      (value.elim .rejected (Effect.mark name)).apply access := by
  cases value with
  | none => rfl
  | some value =>
      simp only [checked, Option.bind_some, Option.elim_some, Effect.apply]
      by_cases rejected : bad value = true
      · rw [if_pos rejected, if_pos ((same value).mp rejected)]
        rfl
      · rw [if_neg rejected, if_neg fun holds => rejected ((same value).mpr holds)]
        exact congrArg some (stored value)

theorem exists_otherMark (access : Access) {name : MarkName} (first second : MarkName)
    (others : ∀ other, other ≠ name ↔ other = first ∨ other = second) (value : BitVec 32) :
    (∃ other, other ≠ name ∧ value = access.mark other) ↔
      value = access.mark first ∨ value = access.mark second := by
  constructor
  · rintro ⟨other, apart, equal⟩
    rcases (others other).mp apart with rfl | rfl
    · exact .inl equal
    · exact .inr equal
  · rintro (equal | equal)
    · exact ⟨first, (others first).mpr (.inl rfl), equal⟩
    · exact ⟨second, (others second).mpr (.inr rfl), equal⟩

theorem access_marked {settings changed : Settings} {name : MarkName} {value : BitVec 32}
    (others : changed.access = { settings.access with mark := changed.access.mark })
    (marks : ∀ other,
      changed.access.mark other = Function.update settings.access.mark name value other) :
    changed.access =
      { settings.access with mark := Function.update settings.access.mark name value } :=
  calc
    changed.access = { settings.access with mark := changed.access.mark } := others
    _ = _ := by rw [funext marks]

section

variable (isExecutable : String → Bool)

theorem readOption_access (settings : Settings) (opcode : Opcode) (arg : List Char) :
    (readOption isExecutable settings opcode arg).map Settings.access =
      (optionEffect isExecutable opcode arg).apply settings.access := by
  cases opcode with
  | emptyRuleSetPolicy =>
      simp only [readOption, optionEffect]
      cases parseEmptyRulesetPolicy arg <;> rfl
  | trustedMACList =>
      simp only [readOption, optionEffect, Effect.apply, parseTrustedMacList_eq, Option.map_map]
      rfl
  | blockedMACList =>
      simp only [readOption, optionEffect, Effect.apply, parseBlockedMacList_eq, Option.map_map]
      rfl
  | allowedMACList =>
      simp only [readOption, optionEffect, Effect.apply, parseAllowedMacList_eq, Option.map_map]
      rfl
  | macMechanism =>
      simp only [readOption, optionEffect]
      cases parseMacMechanism arg <;> rfl
  | fwMarkAuthenticated =>
      refine checked_mark (fun value => ?_) (fun value => ?_)
      · rw [exists_otherMark settings.access .blocked .trusted]
        · simp [Settings.access, or_assoc]
        · intro other
          cases other <;> simp
      · apply access_marked
        · rfl
        · intro other
          cases other <;> rfl
  | fwMarkBlocked =>
      refine checked_mark (fun value => ?_) (fun value => ?_)
      · rw [exists_otherMark settings.access .authenticated .trusted]
        · simp [Settings.access, or_assoc]
        · intro other
          cases other <;> simp
      · apply access_marked
        · rfl
        · intro other
          cases other <;> rfl
  | fwMarkTrusted =>
      refine checked_mark (fun value => ?_) (fun value => ?_)
      · rw [exists_otherMark settings.access .authenticated .blocked]
        · simp [Settings.access, or_assoc]
        · intro other
          cases other <;> simp
      · apply access_marked
        · rfl
        · intro other
          cases other <;> rfl
  | _ =>
      first
        | rfl
        | exact checked_access fun _ => rfl

/-! ## The two loops -/

section

variable {text first : List Char} {char : Char} {line : List Char} (settings : Settings)
  (rest : List (List Char))

theorem configRead_blank (shape : stripWhitespace text = []) (inside : Option RulesetName) :
    configRead isExecutable inside settings (text :: rest) =
      configRead isExecutable inside settings rest := by
  simp only [configRead, shape]

theorem configRead_inside (shape : stripWhitespace text = char :: line) (name : RulesetName) :
    configRead isExecutable (some name) settings (text :: rest) =
      if char = '}' then configRead isExecutable none settings rest
      else
        (parseRuleLine (char :: line)).bind fun rule =>
          configRead isExecutable (some name) (settings.addRule name rule) rest := by
  simp only [configRead, shape]

theorem configRead_top (shape : stripWhitespace text = char :: line) :
    configRead isExecutable none settings (text :: rest) =
      (splitOption (char :: line)).bind fun words =>
        if configParseOpcode words.1 = .firewallRuleSet then
          (getRuleset (words.2.takeWhile fun char => !isBlankChar char)).bind fun ruleset =>
            configRead isExecutable (some ruleset) settings rest
        else
          (readOption isExecutable settings (configParseOpcode words.1) words.2).bind
            fun settings => configRead isExecutable none settings rest := by
  simp only [configRead, shape]

end

theorem configRead_rules {rules : List (List Char)} {closing : List Char}
    (inner : ∀ rule ∈ rules, (stripWhitespace rule).head? ≠ some '}')
    (closes : (stripWhitespace closing).head? = some '}') (name : RulesetName)
    (settings : Settings) (rest : List (List Char)) :
    configRead isExecutable (some name) settings (rules ++ closing :: rest) =
      (parseRules rules).bind fun added =>
        configRead isExecutable none (added.foldl (·.addRule name ·) settings) rest := by
  induction rules generalizing settings with
  | nil =>
      rw [List.nil_append, parseRules, Option.bind_some, List.foldl_nil]
      cases shape : stripWhitespace closing with
      | nil => simp [shape] at closes
      | cons first line =>
          have brace : first = '}' := by simpa [shape] using closes
          rw [configRead_inside isExecutable settings rest shape, if_pos brace]
  | cons rule rules induction =>
      have continues := induction fun rule member => inner rule (List.mem_cons_of_mem _ member)
      rw [List.cons_append]
      cases shape : stripWhitespace rule with
      | nil =>
          have parsed : parseRules (rule :: rules) = parseRules rules := by
            simp only [parseRules, shape]
          rw [configRead_blank isExecutable settings _ shape, parsed, continues]
      | cons first line =>
          have noBrace : first ≠ '}' := by
            have starts := inner rule List.mem_cons_self
            simpa [shape] using starts
          have parsed : parseRules (rule :: rules) =
              (parseRuleLine (first :: line)).bind fun rule =>
                (parseRules rules).map (rule :: ·) := by
            simp only [parseRules, shape]
          rw [configRead_inside isExecutable settings _ shape, if_neg noBrace, parsed]
          cases parseRuleLine (first :: line) with
          | none => rfl
          | some rule =>
              rw [Option.bind_some, Option.bind_some, continues, Option.bind_map]
              rfl

theorem configRead_block {head closing : List Char} {rules : List (List Char)}
    (opens : lineOption head = some .firewallRuleSet)
    (inner : ∀ rule ∈ rules, (stripWhitespace rule).head? ≠ some '}')
    (closes : (stripWhitespace closing).head? = some '}') (settings : Settings)
    (rest : List (List Char)) :
    configRead isExecutable none settings (head :: (rules ++ closing :: rest)) =
      ((splitOption (stripWhitespace head)).bind fun words =>
        getRuleset (words.2.takeWhile fun char => !isBlankChar char)).bind fun name =>
          (parseRules rules).bind fun added =>
            configRead isExecutable none (added.foldl (·.addRule name ·) settings) rest := by
  cases shape : stripWhitespace head with
  | nil => simp [lineOption, shape, splitOption] at opens
  | cons first line =>
      rw [lineOption, shape] at opens
      rw [configRead_top isExecutable settings _ shape]
      cases found : splitOption (first :: line) with
      | none => rfl
      | some words =>
          have block : configParseOpcode words.1 = .firewallRuleSet := by
            rw [found] at opens
            simpa using opens
          rw [Option.bind_some, Option.bind_some, if_pos block]
          congr 1
          funext name
          exact configRead_rules isExecutable inner closes name settings rest

theorem configRead_line {text : List Char} (single : lineOption text ≠ some .firewallRuleSet)
    (settings : Settings) (rest : List (List Char)) :
    configRead isExecutable none settings (text :: rest) =
      (if stripWhitespace text = [] then some settings
        else
          (splitOption (stripWhitespace text)).bind fun words =>
            readOption isExecutable settings (configParseOpcode words.1) words.2).bind
        fun settings => configRead isExecutable none settings rest := by
  cases shape : stripWhitespace text with
  | nil => rw [configRead_blank isExecutable settings _ shape, if_pos rfl, Option.bind_some]
  | cons first line =>
      rw [lineOption, shape] at single
      rw [configRead_top isExecutable settings _ shape, if_neg (List.cons_ne_nil _ _)]
      cases found : splitOption (first :: line) with
      | none => rfl
      | some words =>
          have other : configParseOpcode words.1 ≠ .firewallRuleSet := by
            intro equal
            rw [found] at single
            exact single (congrArg some equal)
          rw [Option.bind_some, Option.bind_some, if_neg other]

theorem configRead_append (item : ConfigItem) (settings : Settings) (rest : List (List Char)) :
    configRead isExecutable none settings (item.lines ++ rest) =
      (configRead isExecutable none settings item.lines).bind fun settings =>
        configRead isExecutable none settings rest := by
  cases item with
  | line text single =>
      rw [ConfigItem.lines, List.singleton_append, configRead_line isExecutable single,
        configRead_line isExecutable single, Option.bind_assoc]
      rfl
  | block head rules closing opens inner closes =>
      rw [ConfigItem.lines, List.cons_append, List.append_assoc, List.singleton_append,
        configRead_block isExecutable opens inner closes,
        configRead_block isExecutable opens inner closes]
      generalize (splitOption (stripWhitespace head)).bind _ = found
      cases found with
      | none => rfl
      | some name =>
          rw [Option.bind_some, Option.bind_some, Option.bind_assoc]
          rfl

theorem readFile_eq (file : List ConfigItem) (settings : Settings) :
    configRead isExecutable none settings (file.flatMap ConfigItem.lines) =
      file.foldlM (fun settings item => configRead isExecutable none settings item.lines)
        settings := by
  induction file generalizing settings with
  | nil => rfl
  | cons item file induction =>
      rw [List.flatMap_cons, configRead_append, List.foldlM_cons]
      exact congrArg _ (funext induction)

theorem addRules_access (settings : Settings) (name : RulesetName) (added : List FirewallRule) :
    (added.foldl (·.addRule name ·) settings).access = settings.access.addRules name added := by
  induction added generalizing settings with
  | nil => simp [Access.addRules]
  | cons rule added induction =>
      rw [List.foldl_cons, induction]
      simp only [Access.addRules, Settings.access, Settings.addRule, Function.update_idem,
        Function.update_self, List.append_assoc, List.singleton_append]

theorem configRead_access (item : ConfigItem) (settings : Settings) :
    (configRead isExecutable none settings item.lines).map Settings.access =
      (item.effect isExecutable).apply settings.access := by
  cases item with
  | line text single =>
      rw [ConfigItem.lines, configRead_line isExecutable single, ConfigItem.effect]
      split
      · rfl
      · cases splitOption (stripWhitespace text) with
        | none => rfl
        | some words =>
            rw [Option.bind_some, Option.elim_some, ← readOption_access]
            exact congrArg _ (Option.bind_fun_some _)
  | block head rules closing opens inner closes =>
      rw [ConfigItem.lines, configRead_block isExecutable opens inner closes, ConfigItem.effect]
      cases (splitOption (stripWhitespace head)).bind fun words =>
          getRuleset (words.2.takeWhile fun char => !isBlankChar char) with
      | none => rfl
      | some name =>
          rw [Option.bind_some, Option.elim_some]
          cases parseRules rules with
          | none => rfl
          | some added => exact congrArg some (addRules_access settings name added)

theorem readFile_access (file : List ConfigItem) :
    (readFile isExecutable file).map Settings.access =
      file.foldlM (fun access item => (item.effect isExecutable).apply access)
        configInit.access := by
  rw [readFile, readFile_eq]
  generalize configInit = settings
  induction file generalizing settings with
  | nil => rfl
  | cons item file induction =>
      rw [List.foldlM_cons, List.foldlM_cons, ← configRead_access]
      cases configRead isExecutable none settings item.lines with
      | none => rfl
      | some settings => exact induction settings

end

/-! ## The lists -/

theorem macListMerged_of_empty {text : String} (empty : macListPieces text = [])
    (list : List String) : macListMerged list text = list := by
  rw [macListMerged, empty]
  rfl

theorem macListAdded_eq {invalid : Int} {text : String}
    (added : ∀ list, ∀ piece ∈ macListPieces text,
      0 ≤ (addToMacList invalid true list piece).1) (list : List String) :
    macListAdded invalid true list text = some (macListMerged list text) := by
  rw [macListAdded, macListMerged]
  generalize macListPieces text = pieces at added
  induction pieces generalizing list with
  | nil => rfl
  | cons piece pieces induction =>
      have first := added list piece List.mem_cons_self
      have sameList : (addToMacList invalid true list piece).2 =
          (addToMacList 1 true list piece).2 := by
        simp only [addToMacList]
        split
        · rfl
        · split <;> rfl
      rw [List.foldlM_cons, List.foldl_cons, if_neg (by omega), Option.bind_eq_bind,
        Option.bind_some, sameList]
      exact induction _ fun list other member => added list other (List.mem_cons_of_mem _ member)

theorem macListAdded_trusted (list : List String) (text : String) :
    macListAdded 1 true list text = some (macListMerged list text) := by
  refine macListAdded_eq (fun list piece _ => ?_) list
  simp only [addToMacList]
  split
  · simp
  · split
    · contradiction
    · split <;> simp

theorem macListAdded_of_valid {text : String}
    (valid : ∀ piece ∈ macListPieces text, checkMacFormat piece = true) (list : List String) :
    macListAdded (-1) true list text = some (macListMerged list text) := by
  refine macListAdded_eq (fun list piece member => ?_) list
  rw [addToMacList_of_valid (valid piece member)]
  split <;> simp

theorem macListAdded_eq_none {enabled : Bool} {text : String} {piece : String}
    (member : piece ∈ macListPieces text)
    (refused : ∀ list, (addToMacList (-1) enabled list piece).1 < 0) (list : List String) :
    macListAdded (-1) enabled list text = none := by
  rw [macListAdded]
  generalize macListPieces text = pieces at member
  induction pieces generalizing list with
  | nil => cases member
  | cons first pieces induction =>
      rw [List.foldlM_cons]
      by_cases failed : (addToMacList (-1) enabled list first).1 < 0
      · rw [if_pos failed]
        rfl
      · rw [if_neg failed]
        rcases List.mem_cons.mp member with rfl | later
        · exact absurd (refused list) failed
        · exact induction _ later

theorem macListAdded_of_invalid {enabled : Bool} {text piece : String}
    (member : piece ∈ macListPieces text) (invalid : checkMacFormat piece = false)
    (list : List String) : macListAdded (-1) enabled list text = none :=
  macListAdded_eq_none member (fun list => by simp [addToMacList, invalid]) list

theorem macListAdded_of_disabled {text : String} (nonempty : macListPieces text ≠ [])
    (list : List String) : macListAdded (-1) false list text = none := by
  rcases List.exists_mem_of_ne_nil _ nonempty with ⟨piece, member⟩
  refine macListAdded_eq_none member (fun list => ?_) list
  simp only [addToMacList]
  split <;> simp

theorem macListAdded_of_empty {text : String} (empty : macListPieces text = [])
    (enabled : Bool) (list : List String) :
    macListAdded (-1) enabled list text = some (macListMerged list text) := by
  rw [macListMerged_of_empty empty, macListAdded, empty]
  rfl

theorem macListAdded_cases (enabled : Bool) (list : List String) (text : String) :
    macListAdded (-1) enabled list text = none ∨
      macListAdded (-1) enabled list text = some (macListMerged list text) := by
  by_cases valid : ∀ piece ∈ macListPieces text, checkMacFormat piece = true
  · cases enabled with
    | true => exact .inr (macListAdded_of_valid valid list)
    | false =>
        by_cases empty : macListPieces text = []
        · exact .inr (macListAdded_of_empty empty false list)
        · exact .inl (macListAdded_of_disabled empty list)
  · simp only [not_forall, Bool.not_eq_true] at valid
    rcases valid with ⟨piece, member, invalid⟩
    exact .inl (macListAdded_of_invalid member invalid list)

/-! ## What an order needs -/

namespace Effect

/-- Some configuration accepts the effect. -/
def Acceptable : Effect → Prop
  | .rejected => False
  | .mark _ value => value ≠ 0
  | .blocked text => ∀ piece ∈ macListPieces text, checkMacFormat piece = true
  | .allowed text => ∀ piece ∈ macListPieces text, checkMacFormat piece = true
  | _ => True

def markValue (name : MarkName) : Effect → Option (BitVec 32)
  | .mark other value => if other = name then some value else none
  | _ => none

def kind : Effect → Option Opcode
  | .rejected => none
  | .neutral => none
  | .mechanism _ => some .macMechanism
  | .trusted _ => some .trustedMACList
  | .blocked _ => some .blockedMACList
  | .allowed _ => some .allowedMACList
  | .mark .authenticated _ => some .fwMarkAuthenticated
  | .mark .blocked _ => some .fwMarkBlocked
  | .mark .trusted _ => some .fwMarkTrusted
  | .policy _ _ => some .emptyRuleSetPolicy
  | .rules _ _ => some .firewallRuleSet

def store (access : Access) : Effect → Access
  | .rejected => access
  | .neutral => access
  | .mechanism chosen => { access with macmechanism := chosen }
  | .trusted text => { access with trusted := macListMerged access.trusted text }
  | .blocked text => { access with blocked := macListMerged access.blocked text }
  | .allowed text => { access with allowed := macListMerged access.allowed text }
  | .mark name value => { access with mark := Function.update access.mark name value }
  | .policy name ending => access.setPolicy name ending
  | .rules name added => access.addRules name added

theorem apply_cases (effect : Effect) (access : Access) :
    effect.apply access = none ∨ effect.apply access = some (effect.store access) := by
  cases effect with
  | rejected => exact .inl rfl
  | mark name value =>
      simp only [apply]
      split
      · exact .inl rfl
      · exact .inr rfl
  | trusted text => exact .inr (by rw [apply, macListAdded_trusted]; rfl)
  | blocked text =>
      rcases macListAdded_cases (access.macmechanism = .block) access.blocked text with
        refused | merged
      · exact .inl (by rw [apply, refused]; rfl)
      · exact .inr (by rw [apply, merged]; rfl)
  | allowed text =>
      rcases macListAdded_cases (access.macmechanism = .allow) access.allowed text with
        refused | merged
      · exact .inl (by rw [apply, refused]; rfl)
      · exact .inr (by rw [apply, merged]; rfl)
  | _ => exact .inr rfl

theorem eq_store {effect : Effect} {access next : Access}
    (applied : effect.apply access = some next) : next = effect.store access := by
  rcases effect.apply_cases access with refused | stored
  · rw [refused] at applied
    cases applied
  · exact Option.some.inj (applied.symm.trans stored)

theorem store_mark (effect : Effect) (access : Access) (name : MarkName) :
    (effect.store access).mark name = (effect.markValue name).getD (access.mark name) := by
  cases effect with
  | mark other value =>
      simp only [store, markValue, Function.update_apply]
      by_cases same : name = other
      · simp [same]
      · simp [same, Ne.symm same]
  | _ => rfl

theorem store_macmechanism (effect : Effect) (access : Access)
    (other : ∀ chosen, effect ≠ .mechanism chosen) :
    (effect.store access).macmechanism = access.macmechanism := by
  cases effect with
  | mechanism chosen => exact absurd rfl (other chosen)
  | _ => rfl

theorem setPolicy_addRules (access : Access) (name other : RulesetName)
    (ending : EmptyRulesetPolicy) (added : List FirewallRule) :
    (access.setPolicy name ending).addRules other added =
      (access.addRules other added).setPolicy name ending := by
  simp only [Access.setPolicy, Access.addRules, Access.mk.injEq, true_and, and_true]
  funext ruleset
  by_cases same : other = name
  · subst same
    by_cases own : ruleset = other
    · simp [own]
    · simp [own]
  · simp only [Function.update_apply]
    by_cases isOther : ruleset = other
    · simp [isOther, same]
    · simp [isOther, Ne.symm same]

theorem kind_mark_injective {first second : MarkName} (value new : BitVec 32)
    (apart : (Effect.mark second new).kind ≠ (Effect.mark first value).kind) : second ≠ first := by
  rintro rfl
  cases second <;> exact apart rfl

theorem store_store {first second : Effect} (apart : first.kind = none ∨ second.kind ≠ first.kind)
    (access : Access) :
    second.store (first.store access) = first.store (second.store access) := by
  cases first with
  | rejected => rfl
  | neutral => rfl
  | mark name value =>
      cases second with
      | mark other new =>
          have names : other ≠ name := by
            refine kind_mark_injective value new (apart.resolve_left ?_)
            cases name <;> exact Option.some_ne_none _
          exact congrArg (fun marks => { access with mark := marks })
            (Function.update_comm names.symm value new access.mark)
      | _ => rfl
  | policy name ending =>
      cases second with
      | policy other new => simp [kind] at apart
      | rules other added => exact setPolicy_addRules access name other ending added
      | _ => rfl
  | rules name added =>
      cases second with
      | rules other new => simp [kind] at apart
      | policy other ending => exact (setPolicy_addRules access other name ending added).symm
      | _ => rfl
  | mechanism chosen =>
      cases second with
      | mechanism other => simp [kind] at apart
      | _ => rfl
  | trusted text =>
      cases second with
      | trusted other => simp [kind] at apart
      | _ => rfl
  | blocked text =>
      cases second with
      | blocked other => simp [kind] at apart
      | _ => rfl
  | allowed text =>
      cases second with
      | allowed other => simp [kind] at apart
      | _ => rfl

theorem apply_eq_store {effect : Effect} (acceptable : effect.Acceptable) {access : Access}
    (marks : ∀ name value, effect = .mark name value →
      ∀ other, other ≠ name → value ≠ access.mark other)
    (blocked : ∀ text, effect = .blocked text →
      macListPieces text = [] ∨ access.macmechanism = .block)
    (allowed : ∀ text, effect = .allowed text →
      macListPieces text = [] ∨ access.macmechanism = .allow) :
    effect.apply access = some (effect.store access) := by
  cases effect with
  | rejected => exact acceptable.elim
  | trusted text => rw [apply, macListAdded_trusted]; rfl
  | mark name value =>
      rw [apply, if_neg]
      · rfl
      · rintro (zero | ⟨other, apart, equal⟩)
        · exact acceptable zero
        · exact marks name value rfl other apart equal
  | blocked text =>
      rcases blocked text rfl with empty | enabled
      · rw [apply, macListAdded_of_empty empty]; rfl
      · rw [apply, decide_eq_true enabled, macListAdded_of_valid acceptable]; rfl
  | allowed text =>
      rcases allowed text rfl with empty | enabled
      · rw [apply, macListAdded_of_empty empty]; rfl
      · rw [apply, decide_eq_true enabled, macListAdded_of_valid acceptable]; rfl
  | _ => rfl

theorem apply_of_not_acceptable {effect : Effect} (unacceptable : ¬ effect.Acceptable)
    (access : Access) : effect.apply access = none := by
  cases effect with
  | rejected => rfl
  | mark name value =>
      rw [apply, if_pos (.inl (not_not.mp unacceptable))]
  | blocked text =>
      simp only [Acceptable, not_forall, Bool.not_eq_true] at unacceptable
      rcases unacceptable with ⟨piece, member, invalid⟩
      rw [apply, macListAdded_of_invalid member invalid]
      rfl
  | allowed text =>
      simp only [Acceptable, not_forall, Bool.not_eq_true] at unacceptable
      rcases unacceptable with ⟨piece, member, invalid⟩
      rw [apply, macListAdded_of_invalid member invalid]
      rfl
  | _ => exact absurd trivial unacceptable

end Effect

/-! ## Files -/

section

variable (isExecutable : String → Bool)

theorem kind_elim {α : Type} (parsed : Option α) {effect : α → Effect} {opcode : Opcode}
    (kind : ∀ value, (effect value).kind = some opcode) :
    (parsed.elim .rejected effect).kind = none ∨
      (parsed.elim .rejected effect).kind = some opcode := by
  cases parsed with
  | none => exact .inl rfl
  | some value => exact .inr (kind value)

theorem kind_optionEffect (opcode : Opcode) (arg : List Char) :
    (optionEffect isExecutable opcode arg).kind = none ∨
      (optionEffect isExecutable opcode arg).kind = some opcode := by
  cases opcode with
  | emptyRuleSetPolicy => exact kind_elim (parseEmptyRulesetPolicy arg) fun _ => rfl
  | trustedMACList => exact .inr rfl
  | blockedMACList => exact .inr rfl
  | allowedMACList => exact .inr rfl
  | macMechanism => exact kind_elim (parseMacMechanism arg) fun _ => rfl
  | fwMarkAuthenticated => exact kind_elim (scanHex arg) fun _ => rfl
  | fwMarkBlocked => exact kind_elim (scanHex arg) fun _ => rfl
  | fwMarkTrusted => exact kind_elim (scanHex arg) fun _ => rfl
  | _ =>
      refine .inl ?_
      simp only [optionEffect]
      split <;> rfl

theorem ConfigItem.kind_effect (item : ConfigItem) :
    (item.effect isExecutable).kind = none ∨
      (item.effect isExecutable).kind = item.option := by
  cases item with
  | line text single =>
      rw [effect, option]
      split
      · exact .inl rfl
      · rw [lineOption]
        cases splitOption (stripWhitespace text) with
        | none => exact .inl rfl
        | some words => exact kind_optionEffect isExecutable _ _
  | block head rules closing opens inner closes =>
      rw [effect, option]
      cases (splitOption (stripWhitespace head)).bind fun words =>
          getRuleset (words.2.takeWhile fun char => !isBlankChar char) with
      | none => exact .inl rfl
      | some name =>
          rw [Option.elim_some]
          cases parseRules rules with
          | none => exact .inl rfl
          | some added => exact .inr rfl

def markValues (file : List ConfigItem) (name : MarkName) : List (BitVec 32) :=
  configInit.access.mark name ::
    file.filterMap fun item => (item.effect isExecutable).markValue name

def finalMark (file : List ConfigItem) (name : MarkName) : BitVec 32 :=
  (markValues isExecutable file name).getLast (List.cons_ne_nil _ _)

/-- The final choice of the marks. A line with the mark 0 is never accepted. -/
def DistinctFinalMarks (file : List ConfigItem) : Prop :=
  ∀ first second, first ≠ second →
    finalMark isExecutable file first ≠ finalMark isExecutable file second

/-- What the order of the options does not matter for. -/
structure OrderIndependent (file : List ConfigItem) : Prop where
  same : ∀ other, Rearranged ConfigItem.option file other →
    SameOutcome (readFile isExecutable file) (readFile isExecutable other)
  /-- No order of the marks or of the MAC mechanism and the lists is an error. -/
  accepted : (∀ item ∈ file, item.Readable isExecutable) → DistinctFinalMarks isExecutable file →
    ∀ other, Rearranged ConfigItem.option file other → (readFile isExecutable other).isSome = true
  /-- The list of the other MAC mechanism is ignored. -/
  ignored : ∀ other settings, Rearranged ConfigItem.option file other →
    readFile isExecutable other = some settings → ∀ mac,
      (settings.macmechanism = .allow → settings.isBlockedMac mac = false) ∧
        (settings.macmechanism = .block → settings.isAllowedMac mac = false)

/-- No value of a mark is ever a value of another, and the lists fit the MAC
mechanism in every order. -/
structure Separable (file : List ConfigItem) : Prop where
  marks : ∀ first second, first ≠ second → ∀ value ∈ markValues isExecutable file first,
    value ∉ markValues isExecutable file second
  blocked : ∀ item ∈ file, ∀ text, item.effect isExecutable = .blocked text →
    macListPieces text ≠ [] → ∀ other ∈ file, other.effect isExecutable ≠ .mechanism .allow
  allowed : ∀ item ∈ file, ∀ text, item.effect isExecutable = .allowed text →
    macListPieces text = []

variable {isExecutable : String → Bool}

theorem mem_markValues {file : List ConfigItem} {item : ConfigItem} (member : item ∈ file)
    {name : MarkName} {value : BitVec 32} (isMark : item.effect isExecutable = .mark name value) :
    value ∈ markValues isExecutable file name := by
  refine List.mem_cons_of_mem _ (List.mem_filterMap.mpr ⟨item, member, ?_⟩)
  rw [isMark, Effect.markValue, if_pos rfl]

theorem foldlM_apply_eq {file : List ConfigItem}
    (acceptable : ∀ item ∈ file, (item.effect isExecutable).Acceptable)
    (separable : Separable isExecutable file) {items : List ConfigItem}
    (inFile : ∀ item ∈ items, item ∈ file) {access : Access}
    (marks : ∀ name, access.mark name ∈ markValues isExecutable file name)
    (mechanism : access.macmechanism = .block ∨
      ∃ item ∈ file, item.effect isExecutable = .mechanism .allow) :
    items.foldlM (fun access item => (item.effect isExecutable).apply access) access =
      some (items.foldl (fun access item => (item.effect isExecutable).store access) access) := by
  induction items generalizing access with
  | nil => rfl
  | cons item items induction =>
      have member := inFile item List.mem_cons_self
      have stored : (item.effect isExecutable).apply access = some _ :=
        Effect.apply_eq_store (acceptable item member)
        (fun name value isMark other apart equal =>
          separable.marks name other apart.symm value (mem_markValues member isMark)
            (equal ▸ marks other))
        (fun text isBlocked => by
          by_cases empty : macListPieces text = []
          · exact .inl empty
          · refine .inr (mechanism.resolve_right ?_)
            rintro ⟨other, inFile, allows⟩
            exact separable.blocked item member text isBlocked empty other inFile allows)
        (fun text isAllowed => .inl (separable.allowed item member text isAllowed))
      rw [List.foldlM_cons, List.foldl_cons, stored, Option.bind_eq_bind, Option.bind_some]
      refine induction (fun item member => inFile item (List.mem_cons_of_mem _ member))
        (fun name => ?_) ?_
      · rw [Effect.store_mark]
        cases given : (item.effect isExecutable).markValue name with
        | none => exact marks name
        | some value => exact List.mem_cons_of_mem _ (List.mem_filterMap.mpr ⟨item, member, given⟩)
      · cases effect : item.effect isExecutable with
        | mechanism chosen =>
            cases chosen with
            | allow => exact .inr ⟨item, member, effect⟩
            | block => exact .inl rfl
        | _ => exact mechanism

/-! ## What a run of effects leaves -/

theorem foldlM_none {items : List ConfigItem} {item : ConfigItem} (member : item ∈ items)
    (refused : ∀ access, (item.effect isExecutable).apply access = none) (access : Access) :
    items.foldlM (fun access item => (item.effect isExecutable).apply access) access = none := by
  induction items generalizing access with
  | nil => cases member
  | cons first items induction =>
      rw [List.foldlM_cons]
      rcases List.mem_cons.mp member with rfl | later
      · rw [refused]
        rfl
      · cases (first.effect isExecutable).apply access with
        | none => rfl
        | some next => exact induction later next

theorem foldlM_refused {before rest : List ConfigItem} {item : ConfigItem} {access : Access}
    (refused : ∀ next,
      before.foldlM (fun access item => (item.effect isExecutable).apply access) access =
          some next →
        (item.effect isExecutable).apply next = none) :
    (before ++ item :: rest).foldlM
      (fun access item => (item.effect isExecutable).apply access) access = none := by
  rw [List.foldlM_append]
  cases read :
      before.foldlM (fun access item => (item.effect isExecutable).apply access) access with
  | none => rfl
  | some next =>
      rw [Option.bind_eq_bind, Option.bind_some, List.foldlM_cons, refused next read]
      rfl

theorem foldlM_mark {items : List ConfigItem} {access final : Access} (name : MarkName)
    (read : items.foldlM (fun access item => (item.effect isExecutable).apply access) access =
      some final) :
    final.mark name = (access.mark name ::
      items.filterMap fun item => (item.effect isExecutable).markValue name).getLast
        (List.cons_ne_nil _ _) := by
  induction items generalizing access with
  | nil =>
      cases read
      rfl
  | cons item items induction =>
      rw [List.foldlM_cons] at read
      rcases Option.bind_eq_some_iff.mp read with ⟨next, applied, read⟩
      rw [induction read, Effect.eq_store applied, Effect.store_mark]
      cases given : (item.effect isExecutable).markValue name with
      | none => simp [given]
      | some value => simp [given]

theorem foldlM_distinct {items : List ConfigItem} {access final : Access}
    (distinct : ∀ first second, first ≠ second → access.mark first ≠ access.mark second)
    (read : items.foldlM (fun access item => (item.effect isExecutable).apply access) access =
      some final) :
    ∀ first second, first ≠ second → final.mark first ≠ final.mark second := by
  induction items generalizing access with
  | nil =>
      cases read
      exact distinct
  | cons item items induction =>
      rw [List.foldlM_cons] at read
      rcases Option.bind_eq_some_iff.mp read with ⟨next, applied, read⟩
      refine induction (fun first second apart => ?_) read
      have stored := Effect.eq_store applied
      cases effect : item.effect isExecutable with
      | mark name value =>
          rw [effect] at applied stored
          have unlike : ∀ other, other ≠ name → value ≠ access.mark other := by
            intro other apart equal
            rw [Effect.apply, if_pos (.inr ⟨other, apart, equal⟩)] at applied
            cases applied
          rw [stored]
          simp only [Effect.store, Function.update_apply]
          split
          · next own =>
              rw [if_neg fun equal => apart (own.trans equal.symm)]
              exact unlike second fun equal => apart (own.trans equal.symm)
          · split
            · exact (unlike first ‹_›).symm
            · exact distinct first second apart
      | _ =>
          rw [stored, effect]
          exact distinct first second apart

theorem foldlM_macmechanism {items : List ConfigItem} {access final : Access}
    (others : ∀ item ∈ items, ∀ chosen, item.effect isExecutable ≠ .mechanism chosen)
    (read : items.foldlM (fun access item => (item.effect isExecutable).apply access) access =
      some final) : final.macmechanism = access.macmechanism := by
  induction items generalizing access with
  | nil =>
      cases read
      rfl
  | cons item items induction =>
      rw [List.foldlM_cons] at read
      rcases Option.bind_eq_some_iff.mp read with ⟨next, applied, read⟩
      rw [induction (fun item member => others item (List.mem_cons_of_mem _ member)) read,
        Effect.eq_store applied,
        Effect.store_macmechanism _ _ (others item List.mem_cons_self)]

/-! ## Options of effects -/

theorem ConfigItem.option_of_kind {item : ConfigItem} {opcode : Opcode}
    (kind : (item.effect isExecutable).kind = some opcode) : item.option = some opcode := by
  rcases item.kind_effect isExecutable with none | same
  · rw [none] at kind
    cases kind
  · rw [← same, kind]

def MarkName.opcode : MarkName → Opcode
  | .authenticated => .fwMarkAuthenticated
  | .blocked => .fwMarkBlocked
  | .trusted => .fwMarkTrusted

theorem MarkName.opcode_injective : Function.Injective MarkName.opcode := by
  intro first second equal
  cases first <;> cases second <;> first | rfl | cases equal

theorem Effect.kind_mark (name : MarkName) (value : BitVec 32) :
    (Effect.mark name value).kind = some name.opcode := by
  cases name <;> rfl

theorem ConfigItem.option_of_markValue {item : ConfigItem} {name : MarkName} {value : BitVec 32}
    (given : (item.effect isExecutable).markValue name = some value) :
    item.option = some name.opcode := by
  cases effect : item.effect isExecutable with
  | mark other new =>
      rw [effect, Effect.markValue] at given
      split at given
      · next same =>
          subst same
          exact option_of_kind (by rw [effect, Effect.kind_mark])
      · cases given
  | _ =>
      rw [effect] at given
      cases given

theorem filterMap_markValue_eq_nil {items : List ConfigItem} {opcode : Opcode} {name : MarkName}
    (own : ∀ item ∈ items, item.option = some opcode) (apart : opcode ≠ name.opcode) :
    items.filterMap (fun item => (item.effect isExecutable).markValue name) = [] := by
  rw [List.filterMap_eq_nil_iff]
  intro item member
  cases given : (item.effect isExecutable).markValue name with
  | none => rfl
  | some value =>
      have both := (own item member).symm.trans (item.option_of_markValue given)
      exact absurd (Option.some.inj both) apart

theorem ConfigItem.not_mechanism {item : ConfigItem} {opcode : Opcode}
    (own : item.option = some opcode) (apart : opcode ≠ .macMechanism) (chosen : MacMechanism) :
    item.effect isExecutable ≠ .mechanism chosen := by
  intro effect
  have option : item.option = some .macMechanism := item.option_of_kind (by rw [effect]; rfl)
  rw [own] at option
  exact apart (Option.some.inj option)

theorem markValues_of_rearranged {file other : List ConfigItem}
    (rearranged : Rearranged ConfigItem.option file other) (name : MarkName) :
    markValues isExecutable other name = markValues isExecutable file name := by
  rw [markValues, markValues, rearranged.filterMap_eq fun _ _ given =>
    ConfigItem.option_of_markValue given]

theorem configInit_distinct (first second : MarkName) (apart : first ≠ second) :
    configInit.access.mark first ≠ configInit.access.mark second := by
  cases first <;> cases second <;> first | exact absurd rfl apart | decide

/-! ## Acceptance -/

theorem ConfigItem.readable_iff (item : ConfigItem) :
    item.Readable isExecutable ↔ (item.effect isExecutable).Acceptable := by
  have read (settings : Settings) :
      (configRead isExecutable none settings item.lines).isSome =
        ((item.effect isExecutable).apply settings.access).isSome := by
    rw [← configRead_access, Option.isSome_map]
  constructor
  · rintro ⟨settings, accepted⟩
    by_contra unacceptable
    rw [read, Effect.apply_of_not_acceptable unacceptable] at accepted
    cases accepted
  · intro acceptable
    -- no other mark is in the way, and the mechanism is that of the list
    let mechanism : MacMechanism := match item.effect isExecutable with
      | .allowed _ => .allow
      | _ => .block
    let settings : Settings :=
      { configInit with
        macmechanism := mechanism, fwMarkAuthenticated := 0, fwMarkBlocked := 0,
        fwMarkTrusted := 0 }
    refine ⟨settings, ?_⟩
    have marks (name : MarkName) : settings.access.mark name = 0 := by
      cases name <;> rfl
    rw [read, Effect.apply_eq_store acceptable]
    · rfl
    · intro name value isMark other _ equal
      rw [isMark] at acceptable
      exact acceptable (equal.trans (marks other))
    · intro text isBlocked
      refine .inr ?_
      simp only [settings, mechanism, isBlocked, Settings.access]
    · intro text isAllowed
      refine .inr ?_
      simp only [settings, mechanism, isAllowed, Settings.access]

theorem readFile_eq_none_iff (file : List ConfigItem) :
    readFile isExecutable file = none ↔
      file.foldlM (fun access item => (item.effect isExecutable).apply access)
        configInit.access = none := by
  rw [← readFile_access, Option.map_eq_none_iff]

theorem distinctFinalMarks_of_accepted {file : List ConfigItem} {settings : Settings}
    (accepted : readFile isExecutable file = some settings) :
    DistinctFinalMarks isExecutable file := by
  have read := readFile_access isExecutable file
  rw [accepted, Option.map_some] at read
  intro first second apart
  have distinct := foldlM_distinct configInit_distinct read.symm first second apart
  rw [foldlM_mark first read.symm, foldlM_mark second read.symm] at distinct
  exact distinct

theorem access_of_separable {file other : List ConfigItem}
    (acceptable : ∀ item ∈ file, (item.effect isExecutable).Acceptable)
    (separable : Separable isExecutable file)
    (rearranged : Rearranged ConfigItem.option file other) :
    (readFile isExecutable other).map Settings.access = some
      (file.foldl (fun access item => (item.effect isExecutable).store access)
        configInit.access) := by
  rw [readFile_access, foldlM_apply_eq acceptable separable
    (fun item member => (rearranged.mem_iff item).mpr member) (fun _ => List.mem_cons_self)
    (.inl rfl)]
  refine congrArg some (rearranged.foldl_eq (fun access first second apart => ?_) _).symm
  refine Effect.store_store ?_ access
  rcases first.kind_effect isExecutable with inert | firstKind
  · exact .inl inert
  · rcases second.kind_effect isExecutable with inert | secondKind
    · by_cases firstInert : (first.effect isExecutable).kind = none
      · exact .inl firstInert
      · rw [inert]
        exact .inr (Ne.symm firstInert)
    · rwa [firstKind, secondKind]

/-! ## Orders that are rejected -/

section

variable {file : List ConfigItem}
  (accepted : ∀ other, Rearranged ConfigItem.option file other →
    (readFile isExecutable other).isSome = true)

include accepted

theorem not_refused {before rest : List ConfigItem} {item : ConfigItem}
    (rearranged : Rearranged ConfigItem.option file (before ++ item :: rest))
    (refused : ∀ next,
      before.foldlM (fun access item => (item.effect isExecutable).apply access)
        configInit.access = some next → (item.effect isExecutable).apply next = none) : False := by
  have read := accepted _ rearranged
  rw [(readFile_eq_none_iff _).mpr (foldlM_refused refused)] at read
  cases read

theorem default_not_given {item : ConfigItem} (member : item ∈ file) {first second : MarkName}
    (apart : first ≠ second)
    (given : item.effect isExecutable = .mark second (configInit.access.mark first)) : False := by
  rcases List.append_of_mem member with ⟨before, after, rfl⟩
  have own : item.option = some second.opcode :=
    item.option_of_kind (by rw [given, Effect.kind_mark])
  refine not_refused accepted (Rearranged.pull before after own) fun next read => ?_
  have kept := foldlM_mark first read
  rw [filterMap_markValue_eq_nil
    (fun item member => show item.option = some second.opcode by
      simpa using (List.mem_filter.mp member).2)
    fun equal => apart (MarkName.opcode_injective equal).symm] at kept
  rw [given, Effect.apply, if_pos (.inr ⟨first, apart, kept.symm⟩)]

theorem marks_apart {first second : MarkName} (apart : first ≠ second) {value : BitVec 32}
    (inFirst : value ∈ markValues isExecutable file first) :
    value ∉ markValues isExecutable file second := by
  intro inSecond
  have isMark {item : ConfigItem} {name : MarkName}
      (given : (item.effect isExecutable).markValue name = some value) :
      item.effect isExecutable = .mark name value := by
    cases effect : item.effect isExecutable with
    | mark other new =>
        rw [effect, Effect.markValue] at given
        split at given
        · next same => rw [same, Option.some.inj given]
        · cases given
    | _ =>
        rw [effect] at given
        cases given
  rcases List.mem_cons.mp inFirst with defaultFirst | givenFirst
  · rcases List.mem_cons.mp inSecond with defaultSecond | givenSecond
    · exact configInit_distinct first second apart (defaultFirst.symm.trans defaultSecond)
    · rcases List.mem_filterMap.mp givenSecond with ⟨item, member, given⟩
      exact default_not_given accepted member apart (defaultFirst ▸ isMark given)
  · rcases List.mem_filterMap.mp givenFirst with ⟨item, member, given⟩
    rcases List.mem_cons.mp inSecond with defaultSecond | givenSecond
    · exact default_not_given accepted member apart.symm (defaultSecond ▸ isMark given)
    · rcases List.mem_filterMap.mp givenSecond with ⟨other, inFile, givenOther⟩
      have opcodes : first.opcode ≠ second.opcode := fun equal =>
        apart (MarkName.opcode_injective equal)
      rcases Rearranged.pullBoth opcodes (item.option_of_markValue given)
        (other.option_of_markValue givenOther) member inFile with
        ⟨firsts, seconds, rest, rearranged, _, ownSecond⟩
      rw [← List.cons_append, ← List.append_assoc] at rearranged
      refine not_refused accepted rearranged fun next read => ?_
      have kept := foldlM_mark first read
      rw [List.filterMap_append, List.filterMap_cons, given,
        filterMap_markValue_eq_nil (fun item member => (ownSecond item member).2) opcodes.symm]
        at kept
      rw [isMark givenOther, Effect.apply, if_pos (.inr ⟨first, apart, by rw [kept]; simp⟩)]

theorem allowed_empty {item : ConfigItem} (member : item ∈ file) {text : String}
    (isAllowed : item.effect isExecutable = .allowed text) : macListPieces text = [] := by
  by_contra nonempty
  rcases List.append_of_mem member with ⟨before, after, rfl⟩
  have own : item.option = some .allowedMACList :=
    item.option_of_kind (by rw [isAllowed]; rfl)
  refine not_refused accepted (Rearranged.pull before after own) fun next read => ?_
  have kept := foldlM_macmechanism (fun item member => item.not_mechanism
    (by simpa using (List.mem_filter.mp member).2) (by decide)) read
  have disabled : decide (next.macmechanism = .allow) = false := by
    rw [kept]
    rfl
  rw [isAllowed, Effect.apply, disabled, macListAdded_of_disabled nonempty]
  rfl

theorem blocked_not_allow {item other : ConfigItem} (member : item ∈ file) (inFile : other ∈ file)
    {text : String} (isBlocked : item.effect isExecutable = .blocked text)
    (nonempty : macListPieces text ≠ []) : other.effect isExecutable ≠ .mechanism .allow := by
  intro allows
  have own : item.option = some .blockedMACList :=
    item.option_of_kind (by rw [isBlocked]; rfl)
  have ownOther : other.option = some .macMechanism :=
    other.option_of_kind (by rw [allows]; rfl)
  rcases Rearranged.pullBoth (by decide) ownOther own inFile member with
    ⟨firsts, seconds, rest, rearranged, _, ownSeconds⟩
  rw [← List.cons_append, ← List.append_assoc] at rearranged
  refine not_refused accepted rearranged fun next read => ?_
  rw [List.foldlM_append] at read
  rcases Option.bind_eq_some_iff.mp read with ⟨before, _, read⟩
  rw [List.foldlM_cons, allows] at read
  have kept := foldlM_macmechanism (fun item member => item.not_mechanism
    (ownSeconds item member).2 (by decide)) read
  have disabled : decide (next.macmechanism = .block) = false := by
    rw [kept]
    rfl
  rw [isBlocked, Effect.apply, disabled, macListAdded_of_disabled nonempty]
  rfl

end

/-! ## Order independence -/

theorem orderIndependent_of_rejected {file : List ConfigItem}
    (rejected : ∀ other, Rearranged ConfigItem.option file other →
      readFile isExecutable other = none)
    (expected : (∃ item ∈ file, ¬ item.Readable isExecutable) ∨
      ¬ DistinctFinalMarks isExecutable file) : OrderIndependent isExecutable file := by
  constructor
  · intro other rearranged
    rw [rejected file (.refl file), rejected other rearranged]
    trivial
  · intro readable distinct
    rcases expected with ⟨item, member, unreadable⟩ | equal
    · exact absurd (readable item member) unreadable
    · exact absurd distinct equal
  · intro other settings rearranged read
    rw [rejected other rearranged] at read
    cases read

end

/-- The line `BlockedMACList 00:00:DE:AD:BE:EF`. -/
def blockedItem : ConfigItem :=
  .line "BlockedMACList 00:00:DE:AD:BE:EF\n".toList (by decide +kernel)

def allowItem : ConfigItem := .line "MACMechanism allow\n".toList (by decide +kernel)

theorem rearranged_blockedItem :
    Rearranged ConfigItem.option [blockedItem, allowItem] [allowItem, blockedItem] := by
  have blockedOption : blockedItem.option = some .blockedMACList := by decide +kernel
  have allowOption : allowItem.option = some .macMechanism := by decide +kernel
  refine ⟨List.Perm.swap _ _ _, fun wanted => ?_⟩
  simp only [keyed, List.filter_cons, List.filter_nil, blockedOption, allowOption]
  by_cases own : Opcode.blockedMACList = wanted
  · simp [← own]
  · simp [own]

end Nodogsplash
