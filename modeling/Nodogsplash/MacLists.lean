import Mathlib.Data.List.TakeWhile
import Nodogsplash.Start
import Nodogsplash.Foundation.Execution
import Nodogsplash.Foundation.KeyedList

/-! # The MAC lists as sets

Texts that differ only in letter case are one MAC address for the functions that
add to the lists and remove from them. -/

namespace Nodogsplash

/-! ## Parsing a list -/

/-- The pieces between commas and white space that are not empty: the loop around
`strsep`. -/
def macListPieces (text : String) : List String :=
  ((text.toList.splitOnP fun char => char ∈ [',', ' ', '\t']).filter fun piece =>
    !piece.isEmpty).map String.ofList

/-- The body of the `parse_*_mac_list` functions; nothing is returned where the
program exits. -/
def parseMacList (add : Config → String → Int × Config) (config : Config) (text : String) :
    Option Config :=
  (macListPieces text).foldlM (fun config piece =>
    let added := add config piece
    if added.1 < 0 then none else some added.2) config

example : macListPieces "00:00:DE:AD:BE:EF,\t0:0:c0:1d:f0:d, " =
    ["00:00:DE:AD:BE:EF", "0:0:c0:1d:f0:d"] := by decide

namespace Config

/-- `parse_trusted_mac_list`. -/
def parseTrustedMacList : Config → String → Option Config := parseMacList addToTrustedMacList

/-- `parse_blocked_mac_list`. -/
def parseBlockedMacList : Config → String → Option Config := parseMacList addToBlockedMacList

/-- `parse_allowed_mac_list`. -/
def parseAllowedMacList : Config → String → Option Config := parseMacList addToAllowedMacList

end Config

/-! ## The three lists -/

inductive MacListName
  | trusted
  | blocked
  | allowed
  deriving DecidableEq

namespace MacListName

def entries : MacListName → Config → List String
  | .trusted => Config.trustedmaclist
  | .blocked => Config.blockedmaclist
  | .allowed => Config.allowedmaclist

/-- The MAC mechanism enables the list. -/
def enabled : MacListName → Config → Bool
  | .trusted, _ => true
  | .blocked, config => config.macmechanism = .block
  | .allowed, config => config.macmechanism = .allow

def invalid : MacListName → Int
  | .trusted => 1
  | .blocked => -1
  | .allowed => -1

def add : MacListName → Config → String → Int × Config
  | .trusted => Config.addToTrustedMacList
  | .blocked => Config.addToBlockedMacList
  | .allowed => Config.addToAllowedMacList

def remove : MacListName → Config → String → Int × Config
  | .trusted => Config.removeFromTrustedMacList
  | .blocked => Config.removeFromBlockedMacList
  | .allowed => Config.removeFromAllowedMacList

def parse : MacListName → Config → String → Option Config
  | .trusted => Config.parseTrustedMacList
  | .blocked => Config.parseBlockedMacList
  | .allowed => Config.parseAllowedMacList

/-- `is_trusted_mac`, `is_blocked_mac` and `is_allowed_mac`. -/
def isListed : MacListName → Config → String → Bool
  | .trusted => Config.isTrustedMac
  | .blocked => Config.isBlockedMac
  | .allowed => Config.isAllowedMac

/-- The list has the MAC of a text, in whatever case. -/
def Holds (name : MacListName) (config : Config) (text : String) : Prop :=
  ∃ entry ∈ name.entries config, sameIgnoringCase entry (scanMac text) = true

/-- From one configuration to another, no list changes an entry but those of one
list with the MAC of a text. -/
def KeepsOthers (name : MacListName) (text : String) (config next : Config) : Prop :=
  ∀ other : MacListName,
    (other.entries next).filter
        (fun entry => other ≠ name || !sameIgnoringCase entry (scanMac text)) =
      (other.entries config).filter fun entry =>
        other ≠ name || !sameIgnoringCase entry (scanMac text)

end MacListName

/-- What the list does for the MAC of a text is what a set of MAC addresses does
that ignores case. -/
structure ActsAsSet (name : MacListName) (config : Config) (text : String) : Prop where
  distinct : (name.entries config).Pairwise fun first second =>
    sameIgnoringCase first second = false
  addReturns : (name.add config text).1 = 0 ↔ ¬ name.Holds config text
  added : name.Holds (name.add config text).2 text
  addKeeps : name.KeepsOthers text config (name.add config text).2
  removeReturns : (name.remove config text).1 = 0 ↔ name.Holds config text
  removed : ¬ name.Holds (name.remove config text).2 text
  removeKeeps : name.KeepsOthers text config (name.remove config text).2
  listed : name.isListed config text = true ↔ name.Holds config text

/-- The calls that edit the lists. -/
inductive MacListCall
  | parse (name : MacListName) (text : String)
  | add (name : MacListName) (text : String)
  | remove (name : MacListName) (text : String)

def Config.call (config : Config) : MacListCall → Option Config
  | .parse name text => name.parse config text
  | .add name text => some (name.add config text).2
  | .remove name text => some (name.remove config text).2

/-- Calls one after the other. -/
abbrev MacListRun : Config → List MacListCall → Config → Prop :=
  Execution.Run fun config call next => config.call call = some next

/-! ## Keys -/

def macKey (text : String) : List Char := text.toList.map Char.toLower

theorem sameIgnoringCase_iff (left right : String) :
    sameIgnoringCase left right = true ↔ macKey left = macKey right := by
  rw [sameIgnoringCase, beq_iff_eq]
  rfl

theorem scanMac_scanMac (text : String) : scanMac (scanMac text) = scanMac text := by
  simp only [scanMac, String.toList_ofList]
  congr 1
  rw [List.take_of_length_le]
  · exact List.takeWhile_idem
  · exact (List.takeWhile_sublist _).length_le.trans (List.length_take_le _ _)

/-- A list as the functions make it: every MAC once, and spelled as `sscanf`
stores it. -/
structure MacListFormed (list : List String) : Prop where
  distinct : (list.map macKey).Nodup
  scanned : ∀ entry ∈ list, scanMac entry = entry

section

variable {list : List String} {text : String}

theorem any_iff_key_mem :
    list.any (sameIgnoringCase · (scanMac text)) = true ↔
      macKey (scanMac text) ∈ list.map macKey := by
  simp only [List.any_eq_true, sameIgnoringCase_iff, List.mem_map]

theorem eraseP_eq_filter (distinct : (list.map macKey).Nodup) :
    list.eraseP (sameIgnoringCase · (scanMac text)) =
      list.filter fun entry => !sameIgnoringCase entry (scanMac text) := by
  have compared (entry : String) : sameIgnoringCase entry (scanMac text) =
      decide (macKey entry = macKey (scanMac text)) := by
    rw [Bool.eq_iff_iff, sameIgnoringCase_iff, decide_eq_true_iff]
  have removed := KeyedList.remove_eq_filter macKey distinct (macKey (scanMac text))
  simp only [compared, ← decide_not]
  exact removed

namespace MacListFormed

theorem add (formed : MacListFormed list) (invalid : Int) (invalidNonzero : invalid ≠ 0)
    (enabled : Bool) : MacListFormed (addToMacList invalid enabled list text).2 := by
  rcases addToMacList_cases invalid invalidNonzero enabled list text with
    ⟨equal, _, _, absent⟩ | ⟨_, equal⟩
  · rw [equal]
    constructor
    · rw [List.map_cons, List.nodup_cons, ← any_iff_key_mem]
      exact ⟨by simp [absent], formed.distinct⟩
    · intro entry member
      rcases List.mem_cons.mp member with rfl | old
      · exact scanMac_scanMac text
      · exact formed.scanned entry old
  · rw [equal]
    exact formed

theorem remove (formed : MacListFormed list) (enabled : Bool) :
    MacListFormed (removeFromMacList enabled list text).2 := by
  rcases removeFromMacList_cases enabled list text with ⟨equal, _⟩ | ⟨_, equal⟩
  · rw [equal]
    constructor
    · exact formed.distinct.sublist (List.eraseP_sublist.map macKey)
    · exact fun entry member => formed.scanned entry (List.eraseP_subset member)
  · rw [equal]
    exact formed

end MacListFormed

/-! ## Valid texts -/

theorem addToMacList_of_valid (valid : checkMacFormat text = true) (invalid : Int) :
    addToMacList invalid true list text =
      if list.any (sameIgnoringCase · (scanMac text)) then (1, list)
      else (0, scanMac text :: list) := by
  simp [addToMacList, valid]

theorem removeFromMacList_of_valid (valid : checkMacFormat text = true) :
    removeFromMacList true list text =
      if list.any (sameIgnoringCase · (scanMac text)) then
        (0, list.eraseP (sameIgnoringCase · (scanMac text)))
      else (-1, list) := by
  simp [removeFromMacList, valid]

theorem addToMacList_key (list : List String) (valid : checkMacFormat text = true) (invalid : Int) :
    let result := addToMacList invalid true list text
    (result.1 = 0 ↔ macKey (scanMac text) ∉ list.map macKey) ∧
      macKey (scanMac text) ∈ result.2.map macKey ∧
      result.2.filter (fun entry => !sameIgnoringCase entry (scanMac text)) =
        list.filter fun entry => !sameIgnoringCase entry (scanMac text) := by
  rw [addToMacList_of_valid valid, ← any_iff_key_mem]
  split
  · next present => exact ⟨by simp [present], any_iff_key_mem.mp present, rfl⟩
  · next absent =>
      refine ⟨by simp [absent], List.mem_cons_self, ?_⟩
      rw [List.filter_cons_of_neg (by simp)]

theorem removeFromMacList_key (formed : MacListFormed list) (valid : checkMacFormat text = true) :
    let result := removeFromMacList true list text
    (result.1 = 0 ↔ macKey (scanMac text) ∈ list.map macKey) ∧
      macKey (scanMac text) ∉ result.2.map macKey ∧
      result.2.filter (fun entry => !sameIgnoringCase entry (scanMac text)) =
        list.filter fun entry => !sameIgnoringCase entry (scanMac text) := by
  rw [removeFromMacList_of_valid valid, ← any_iff_key_mem]
  split
  · next present =>
      rw [eraseP_eq_filter formed.distinct]
      refine ⟨by simp [present], ?_, ?_⟩
      · intro kept
        rcases List.mem_map.mp kept with ⟨entry, member, equal⟩
        have different := (List.mem_filter.mp member).2
        rw [(sameIgnoringCase_iff _ _).mpr equal] at different
        cases different
      · simp
  · next absent => exact ⟨by simp [absent], any_iff_key_mem.not.mp absent, rfl⟩

end

/-! ## Calls -/

namespace MacListName

variable (name other : MacListName) (config : Config) (text : String)

theorem add_returns : (name.add config text).1 =
    (addToMacList name.invalid (name.enabled config) (name.entries config) text).1 := by
  cases name <;> rfl

theorem entries_add : other.entries (name.add config text).2 =
    if other = name then
      (addToMacList name.invalid (name.enabled config) (name.entries config) text).2
    else other.entries config := by
  cases name <;> cases other <;> rfl

theorem remove_returns : (name.remove config text).1 =
    (removeFromMacList (name.enabled config) (name.entries config) text).1 := by
  cases name <;> rfl

theorem entries_remove : other.entries (name.remove config text).2 =
    if other = name then (removeFromMacList (name.enabled config) (name.entries config) text).2
    else other.entries config := by
  cases name <;> cases other <;> rfl

theorem parse_eq : name.parse = parseMacList name.add := by
  cases name <;> rfl

theorem invalid_ne_zero : name.invalid ≠ 0 := by
  cases name <;> decide

theorem isListed_iff {name : MacListName} {config : Config} (enabled : name.enabled config = true)
    (text : String) : name.isListed config text = true ↔ text ∈ name.entries config := by
  cases name with
  | trusted => simp [isListed, entries, Config.isTrustedMac]
  | blocked =>
      have mechanism : config.macmechanism = .block := by simpa [MacListName.enabled] using enabled
      simp [isListed, entries, Config.isBlockedMac, mechanism]
  | allowed =>
      have mechanism : config.macmechanism = .allow := by simpa [MacListName.enabled] using enabled
      simp [isListed, entries, Config.isAllowedMac, mechanism]

theorem holds_iff : name.Holds config text ↔
    macKey (scanMac text) ∈ (name.entries config).map macKey := by
  simp only [Holds, sameIgnoringCase_iff, List.mem_map]

end MacListName

def MacListsFormed (config : Config) : Prop :=
  ∀ name : MacListName, MacListFormed (name.entries config)

namespace MacListsFormed

variable {config next : Config}

theorem add (formed : MacListsFormed config) (name : MacListName) (text : String) :
    MacListsFormed (name.add config text).2 := by
  intro other
  rw [name.entries_add]
  split
  · exact (formed name).add _ name.invalid_ne_zero _
  · exact formed other

theorem remove (formed : MacListsFormed config) (name : MacListName) (text : String) :
    MacListsFormed (name.remove config text).2 := by
  intro other
  rw [name.entries_remove]
  split
  · exact (formed name).remove _
  · exact formed other

theorem parse (formed : MacListsFormed config) (name : MacListName) (text : String)
    (parsed : name.parse config text = some next) : MacListsFormed next := by
  rw [name.parse_eq, parseMacList] at parsed
  generalize macListPieces text = pieces at parsed
  induction pieces generalizing config with
  | nil =>
      cases parsed
      exact formed
  | cons piece pieces induction =>
      rw [List.foldlM_cons] at parsed
      rcases Option.bind_eq_some_iff.mp parsed with ⟨middle, first, rest⟩
      simp only at first
      split at first
      · cases first
      · cases first
        exact induction (formed.add name piece) rest

theorem call (formed : MacListsFormed config) {call : MacListCall}
    (returned : config.call call = some next) : MacListsFormed next := by
  cases call with
  | parse name text => exact formed.parse name text returned
  | add name text =>
      cases returned
      exact formed.add name text
  | remove name text =>
      cases returned
      exact formed.remove name text

theorem run {initial final : Config} {calls : List MacListCall}
    (formed : MacListsFormed initial) (run : MacListRun initial calls final) :
    MacListsFormed final :=
  Execution.Run.invariant MacListsFormed (fun _ _ _ held returned => held.call returned) run formed

end MacListsFormed

theorem MacListName.keepsOthers_of_list {name : MacListName} {text : String} {config next : Config}
    {list : List String}
    (entries : ∀ other : MacListName,
      other.entries next = if other = name then list else other.entries config)
    (kept : list.filter (fun entry => !sameIgnoringCase entry (scanMac text)) =
      (name.entries config).filter fun entry => !sameIgnoringCase entry (scanMac text)) :
    name.KeepsOthers text config next := by
  intro other
  rw [entries other]
  by_cases same : other = name
  · subst same
    simpa using kept
  · simp [same]

/-- In every state that calls lead to, a list does for the MAC of a text what a
case-insensitive set does exactly when the entry with this MAC, if there is one,
is spelled as the text is. -/
theorem mac_list_acts_as_set_iff {initial final : Config} {calls : List MacListCall}
    (empty : ∀ name : MacListName, name.entries initial = [])
    (run : MacListRun initial calls final) {name : MacListName}
    (enabled : name.enabled final = true) {text : String} (valid : checkMacFormat text = true) :
    ActsAsSet name final text ↔
      ∀ entry ∈ name.entries final,
        sameIgnoringCase entry (scanMac text) = true → entry = text := by
  have initially : MacListsFormed initial := by
    intro other
    rw [empty]
    exact ⟨List.nodup_nil, nofun⟩
  have formed := initially.run run name
  have added := addToMacList_key (name.entries final) valid name.invalid
  have removed := removeFromMacList_key formed valid
  have addedEntries (other : MacListName) := name.entries_add other final text
  have removedEntries (other : MacListName) := name.entries_remove other final text
  simp only [enabled] at addedEntries removedEntries
  constructor
  · intro acts entry member same
    have text_mem :=
      (MacListName.isListed_iff enabled text).mp (acts.listed.mpr ⟨entry, member, same⟩)
    rw [formed.scanned text text_mem, sameIgnoringCase_iff] at same
    exact List.inj_on_of_nodup_map formed.distinct member text_mem same
  · intro spelled
    constructor
    · refine (List.pairwise_map.mp formed.distinct).imp fun different => ?_
      rw [Bool.eq_false_iff, Ne, sameIgnoringCase_iff]
      exact different
    · rw [name.add_returns, name.holds_iff, enabled]
      exact added.1
    · rw [name.holds_iff, addedEntries, if_pos rfl]
      exact added.2.1
    · exact MacListName.keepsOthers_of_list addedEntries added.2.2
    · rw [name.remove_returns, name.holds_iff, enabled]
      exact removed.1
    · rw [name.holds_iff, removedEntries, if_pos rfl]
      exact removed.2.1
    · exact MacListName.keepsOthers_of_list removedEntries removed.2.2
    · rw [MacListName.isListed_iff enabled]
      constructor
      · intro member
        exact ⟨text, member, by rw [formed.scanned text member, sameIgnoringCase_refl]⟩
      · rintro ⟨entry, member, same⟩
        rwa [← spelled entry member same]

/-- A list that is read from the configuration file and edited. -/
def editedConfig : Config :=
  { defaultConfig with trustedmaclist := ["0:0:c0:1d:f0:d", "00:00:DE:AD:BE:EF"] }

theorem mac_list_acts_as_set_iff_edited :
    ActsAsSet .trusted editedConfig "0:0:c0:1d:f0:d" ↔
      ∀ entry ∈ MacListName.trusted.entries editedConfig,
        sameIgnoringCase entry (scanMac "0:0:c0:1d:f0:d") = true → entry = "0:0:c0:1d:f0:d" := by
  have empty : ∀ name : MacListName, name.entries defaultConfig = [] := by
    intro name
    cases name <;> rfl
  have run : MacListRun defaultConfig
      [.parse .trusted "00:00:DE:AD:BE:EF, 0:0:c0:1d:f0:c", .remove .trusted "0:0:C0:1D:F0:C",
        .add .trusted "0:0:c0:1d:f0:d"] editedConfig :=
    .cons rfl (.cons rfl (.single rfl))
  exact mac_list_acts_as_set_iff empty run rfl (by decide)

/-- A MAC that was added in capitals is on the list for the functions that edit
it, and is not for `is_trusted_mac`. -/
theorem trusted_in_capitals_not_recognized :
    let final := (defaultConfig.addToTrustedMacList "00:00:CA:FE:BA:BE").2
    MacListRun defaultConfig [.add .trusted "00:00:CA:FE:BA:BE"] final ∧
      MacListName.trusted.Holds final "00:00:ca:fe:ba:be" ∧
      (final.addToTrustedMacList "00:00:ca:fe:ba:be").1 = 1 ∧
      final.isTrustedMac "00:00:ca:fe:ba:be" = false ∧
      ¬ ActsAsSet .trusted final "00:00:ca:fe:ba:be" := by
  intro final
  have held : MacListName.trusted.Holds final "00:00:ca:fe:ba:be" :=
    ⟨"00:00:CA:FE:BA:BE", List.mem_singleton_self _, by decide⟩
  have missed : final.isTrustedMac "00:00:ca:fe:ba:be" = false := by decide
  refine ⟨.single rfl, held, by decide, missed, fun acts => ?_⟩
  have listed := acts.listed.mpr held
  exact absurd (missed.symm.trans listed) (by decide)

/-! ## The lists of the daemon -/

namespace Gateway

theorem Transition.macListRun {permits : Permissions} {gateway next : Gateway}
    (transition : Transition permits gateway next) :
    ∃ calls, MacListRun gateway.config calls next.config := by
  have unchanged (same : next.config = gateway.config) :
      ∃ calls, MacListRun gateway.config calls next.config :=
    ⟨[], same ▸ .nil _⟩
  cases transition with
  | clock | authentications | bytes | delete | count | assign => exact unchanged rfl
  | add _ _ _ added =>
      rcases clientListAppend_eq added with ⟨_, _, rfl⟩
      exact unchanged rfl
  | authenticate reason => exact unchanged (enterAuthenticated_config _ _ reason)
  | deauthenticate reason => exact unchanged (leaveAuthenticated_config _ _ reason)
  | @block node reason =>
      rw [leaveBlocked_config]
      exact ⟨[.add .blocked node.client.mac], .single rfl⟩
  | editMacs mac command =>
      cases command with
      | trust => exact ⟨[.add .trusted mac], .single rfl⟩
      | untrust => exact ⟨[.remove .trusted mac], .single rfl⟩
      | allow => exact ⟨[.add .allowed mac], .single rfl⟩
      | unallow => exact ⟨[.remove .allowed mac], .single rfl⟩
      | block => exact ⟨[.add .blocked mac], .single rfl⟩
      | unblock => exact ⟨[.remove .blocked mac], .single rfl⟩

theorem Transitions.macListRun {permits : Permissions} {gateway next : Gateway}
    (transitions : Transitions permits gateway next) :
    ∃ calls, MacListRun gateway.config calls next.config := by
  induction transitions with
  | refl => exact ⟨[], .nil _⟩
  | tail _ transition induction =>
      rcases induction with ⟨calls, run⟩
      rcases transition.macListRun with ⟨more, last⟩
      exact ⟨calls ++ more, run.append last⟩

end Gateway

end Nodogsplash
