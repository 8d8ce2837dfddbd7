import Nodogsplash.CounterListing
import Nodogsplash.Http

/-! # The neighbour table

How `get_client_mac` finds the MAC address of a peer in what `ip neigh show`
prints. -/

namespace Nodogsplash

open Scanning

/-! ## get_client_mac -/

/-- `[A-Fa-f0-9:]`. -/
def macRanges : List (Char × Char) := [('A', 'F'), ('a', 'f'), ('0', '9'), (':', ':')]

/-- `"%*s %*s %*s %*s %17[A-Fa-f0-9:] "`. -/
def neighbourFormat : List Directive :=
  [.word false, .blanks, .word false, .blanks, .word false, .blanks, .word false, .blanks,
    .set true 17 macRanges, .blanks]

/-- The loop of `get_client_mac` over the lines, nothing if `fuel` rounds are not enough.
`ip` has a space at its end; a line is what fits into 254 bytes with the NUL. -/
def neighbourLines (ip : List Char) : Nat → List Char → Option (Option String)
  | _, [] => some none
  | 0, _ :: _ => none
  | fuel + 1, char :: rest =>
      let (line, others) := getLine 253 (char :: rest)
      if ip.isPrefixOf line then
        match (scan isSpace neighbourFormat line).1 with
        | [.text mac] => some (some (String.ofList mac))
        | _ => neighbourLines ip fuel others
      else neighbourLines ip fuel others

/-- `get_client_mac`; the table is there if `popen` succeeds. -/
def getClientMac (table : Option String) (reqIp : String) : Option (Option String) :=
  if reqIp.length + 2 > 64 then some none
  else
    match table with
    | none => some none
    | some text => neighbourLines (reqIp.toList ++ [' ']) text.length text.toList

theorem neighbourLines_isSome (ip : List Char) {fuel : Nat} {text : List Char}
    (enough : text.length ≤ fuel) : (neighbourLines ip fuel text).isSome = true := by
  induction fuel generalizing text with
  | zero =>
      rw [List.length_eq_zero_iff.mp (Nat.le_zero.mp enough)]
      rfl
  | succ fuel induction =>
      rcases text with _ | ⟨char, rest⟩
      · rfl
      have shorter : (getLine 253 (char :: rest)).2.length ≤ fuel :=
        (length_getLine 252 char rest).trans (Nat.le_of_succ_le_succ enough)
      have later := induction shorter
      simp only [neighbourLines]
      split
      · split
        · rfl
        · exact later
      · exact later

theorem getClientMac_isSome (table : Option String) (reqIp : String) :
    (getClientMac table reqIp).isSome = true := by
  cases table with
  | none => simp [getClientMac]
  | some text =>
      have room : text.toList.length ≤ text.length := String.length_toList.le
      have ends := neighbourLines_isSome (reqIp.toList ++ [' ']) room
      simp only [getClientMac]
      split
      · rfl
      · exact ends

/-! ## Lines of words -/

structure Row (words : List String) (line : List Char) : Prop where
  single : '\n' ∉ line
  fits : line.length < 253
  starts : ∃ first rest, words.head? = some first ∧ line = first.toList ++ ' ' :: rest
  columns : ∃ tail, (∀ char ∈ tail, isSpace char = true) ∧
    Columns isSpace tail (words.map String.toList) (line ++ ['\n'])

/-- The table as lines of words. -/
inductive Rows : List (List String) → List Char → Prop
  | nil : Rows [] []
  | cons {words : List String} {rows : List (List String)} {line others : List Char}
      (row : Row words line) (rest : Rows rows others) :
      Rows (words :: rows) (line ++ '\n' :: others)

theorem isSome_hexValue (char : Char) :
    (hexValue char).isSome = true ↔
      char.isDigit = true ∨ 97 ≤ char.toLower.toNat ∧ char.toLower.toNat ≤ 102 := by
  rw [hexValue]
  split
  · next digit => simp [digit]
  · next other =>
      split
      · next letter => exact iff_of_true rfl (.inr letter)
      · next letter => exact iff_of_false Bool.false_ne_true (not_or.mpr ⟨other, letter⟩)

theorem inRanges_mac (char : Char) : inRanges macRanges char = isMacChar char := by
  have upper : 'A'.toNat = 65 ∧ 'F'.toNat = 70 := ⟨rfl, rfl⟩
  have lower : 'a'.toNat = 97 ∧ 'f'.toNat = 102 := ⟨rfl, rfl⟩
  have others : '0'.toNat = 48 ∧ '9'.toNat = 57 ∧ ':'.toNat = 58 := ⟨rfl, rfl, rfl⟩
  have lowered := toNat_toLower char
  rw [Bool.eq_iff_iff]
  simp only [inRanges, macRanges, List.any_cons, List.any_nil, Bool.or_false, Bool.or_eq_true,
    Bool.and_eq_true, decide_eq_true_eq, char_le_iff, ← Char.toNat_inj, isMacChar, isSome_hexValue,
    isDigit_iff]
  split at lowered <;> omega

theorem scanMac_eq (text : String) :
    scanMac text = String.ofList ((text.toList.take 17).takeWhile (inRanges macRanges)) := by
  rw [funext inRanges_mac]
  rfl

theorem inRanges_mac_of_isSpace {char : Char} (blank : isSpace char = true) :
    inRanges macRanges char = false := by
  rw [inRanges_mac]
  exact isMacChar_of_isSpace blank

def macOf (word : String) : Option String :=
  if (scanMac word).isEmpty then none else some (scanMac word)

theorem Row.scan_eq {words : List String} {line : List Char} (row : Row words line) :
    (scan isSpace neighbourFormat (line ++ ['\n'])).1 =
      ((words[4]?).bind macOf).toList.map fun mac => .text mac.toList := by
  rcases row.columns with ⟨tail, blanks, columns⟩
  rcases words with _ | ⟨first, words⟩
  · cases columns
    exact scan_word_blank blanks false _
  rcases columns.scan_word false with ⟨text, columns, read⟩
  rw [neighbourFormat, read]
  rcases columns.scan_skips blanks 3 with ⟨next, columns, skips⟩ | ⟨short, fails⟩
  · have skipped := congrArg Prod.fst (skips [.blanks, .set true 17 macRanges, .blanks])
    rw [← List.map_drop] at columns
    have fifth : (first :: words)[4]? = (words.drop 3).head? := by
      rw [List.head?_drop]
      rfl
    rw [fifth]
    refine skipped.trans ?_
    generalize words.drop 3 = left at columns
    rcases left with _ | ⟨word, others⟩
    · cases columns
      rw [scan_blanks_blank blanks]
      rfl
    · rcases columns.scan_set (fun _ => inRanges_mac_of_isSpace) 17 with ⟨last, _, _, reads⟩
      have empty : (scanMac word).isEmpty =
          ((word.toList.take 17).takeWhile (inRanges macRanges)).isEmpty := by
        rw [scanMac_eq, Bool.eq_iff_iff, String.isEmpty_iff, List.isEmpty_iff, ← String.toList_inj,
          String.toList_ofList]
        rfl
      rw [reads, List.head?_cons, Option.bind_some, macOf, empty]
      split
      · rfl
      · rw [scanMac_eq]
        simp [scan, Directive.read]
  · have absent : (first :: words)[4]? = none := by
      rw [List.length_map] at short
      exact List.getElem?_eq_none (Nat.succ_le_of_lt (Nat.lt_succ_of_lt short))
    have failed := fails [.blanks, .set true 17 macRanges, .blanks]
    rw [absent]
    exact failed

/-- The space behind an address keeps it from being the beginning of another. -/
theorem isPrefixOf_iff {ip first : List Char} (rest : List Char) (plain : ' ' ∉ ip)
    (plainFirst : ' ' ∉ first) :
    (ip ++ [' ']).isPrefixOf (first ++ ' ' :: rest) = true ↔ first = ip := by
  rw [List.isPrefixOf_iff_prefix]
  constructor
  · rintro ⟨more, equal⟩
    have upTo {text : List Char} (behind : List Char) (without : ' ' ∉ text) :
        (text ++ ' ' :: behind).takeWhile (fun char => decide (char ≠ ' ')) = text := by
      rw [List.takeWhile_append_of_pos, List.takeWhile_cons_of_neg (by decide), List.append_nil]
      intro char member
      exact decide_eq_true fun equal => without (equal ▸ member)
    have begins := congrArg (List.takeWhile fun char => decide (char ≠ ' ')) equal
    rw [List.append_assoc, List.singleton_append, upTo more plain, upTo rest plainFirst] at begins
    exact begins.symm
  · rintro rfl
    exact ⟨rest, by simp⟩

/-- What the lines of an address have as the fifth word, if it is read. -/
def neighbourOf (rows : List (List String)) (ip : String) : Option String :=
  rows.findSome? fun words =>
    if words.head? = some ip then (words[4]?).filter fun word => (macOf word).isSome else none

theorem Row.first_plain {words : List String} {line : List Char} (row : Row words line)
    {first : String} (head : words.head? = some first) : ' ' ∉ first.toList := by
  rcases row.columns with ⟨tail, _, columns⟩
  intro member
  have hidden := columns.no_blank _ (List.mem_map_of_mem (List.mem_of_mem_head? head)) _ member
  cases hidden

theorem neighbourLines_rows {rows : List (List String)} {text : List Char} (lines : Rows rows text)
    {ip : String} (plain : ' ' ∉ ip.toList) {fuel : Nat} (enough : text.length ≤ fuel) :
    neighbourLines (ip.toList ++ [' ']) fuel text = some ((neighbourOf rows ip).bind macOf) := by
  induction lines generalizing fuel with
  | nil => cases fuel <;> rfl
  | @cons words rows line others row lines induction =>
      rcases row.starts with ⟨first, rest, head, starts⟩
      have tests := isPrefixOf_iff (rest ++ ['\n']) plain (row.first_plain head)
      have whole : line ++ ['\n'] = first.toList ++ ' ' :: (rest ++ ['\n']) := by
        rw [starts, List.append_assoc]
        rfl
      have items := row.scan_eq
      have read := getLine_append others row.single row.fits
      rw [← whole] at tests
      rcases fuel with _ | fuel
      · rw [starts] at enough
        simp at enough
      have short : others.length ≤ fuel := by
        rw [List.length_append, List.length_cons] at enough
        omega
      have later := induction short
      rcases line with _ | ⟨char, line⟩
      · simp at starts
      rw [List.cons_append] at read ⊢
      rw [neighbourLines, read]
      simp only [items, later, neighbourOf, List.findSome?_cons, head, Option.some.injEq]
      by_cases same : first = ip
      · have hit : (ip.toList ++ [' ']).isPrefixOf (char :: line ++ ['\n']) = true := by
          rw [tests, String.toList_inj]
          exact same
        rw [if_pos hit, if_pos same]
        cases words[4]? with
        | none => rfl
        | some word =>
            cases found : macOf word with
            | none => simp [found, Option.filter]
            | some mac => simp [found, Option.filter]
      · have other : ¬ (ip.toList ++ [' ']).isPrefixOf (char :: line ++ ['\n']) = true := by
          rw [tests, String.toList_inj]
          exact same
        rw [if_neg other, if_neg same]

theorem getClientMac_rows {rows : List (List String)} {text ip : String}
    (lines : Rows rows text.toList) (plain : ' ' ∉ ip.toList) (short : ip.length + 2 ≤ 64) :
    getClientMac (some text) ip = some ((neighbourOf rows ip).bind macOf) := by
  rw [getClientMac, if_neg (not_lt.mpr short)]
  exact neighbourLines_rows lines plain (by rw [String.length_toList])

/-! ## The entries of the table -/

/-- An entry: an address of a device, its link layer address if that is known, and the words
behind that, which are flags, numbers and the state and so have no colon. -/
structure Neighbour where
  ip : String
  device : String
  lladdr : Option String
  state : List String
  plain : ∀ word ∈ state, ':' ∉ word.toList

/-- The words that are printed. -/
def Neighbour.words (neighbour : Neighbour) : List String :=
  match neighbour.lladdr with
  | some mac => neighbour.ip :: "dev" :: neighbour.device :: "lladdr" :: mac :: neighbour.state
  | none => neighbour.ip :: "dev" :: neighbour.device :: neighbour.state

/-- What is read of an entry. Without a link layer address the fifth word is the second one
behind the device. -/
def Neighbour.read (neighbour : Neighbour) : Option String :=
  match neighbour.lladdr with
  | some mac => macOf mac
  | none => (neighbour.state[1]?).bind macOf

/-- The entries of an address. -/
def entriesOf (neighbours : List Neighbour) (ip : String) : List Neighbour :=
  neighbours.filter fun neighbour => decide (neighbour.ip = ip)

/-- The link layer address of the first entry that is complete. -/
def firstKnown (entries : List Neighbour) : Option String := entries.findSome? Neighbour.lladdr

/-- The entries before the first one that is complete. -/
def incompleteBefore (entries : List Neighbour) : List Neighbour :=
  entries.takeWhile fun neighbour => neighbour.lladdr.isNone

/-- The text of a MAC address: it is read as a whole, and has colons. -/
def IsMac (mac : String) : Prop := macOf mac = some mac ∧ ':' ∈ mac.toList

theorem Neighbour.head?_words (neighbour : Neighbour) :
    neighbour.words.head? = some neighbour.ip := by
  rw [words]
  split <;> rfl

theorem Neighbour.read_fifth (neighbour : Neighbour) :
    (neighbour.words[4]?).bind macOf = neighbour.read := by
  rw [words, read]
  split <;> rfl

theorem neighbourOf_words (neighbours : List Neighbour) (ip : String) :
    (neighbourOf (neighbours.map Neighbour.words) ip).bind macOf =
      (entriesOf neighbours ip).findSome? Neighbour.read := by
  induction neighbours with
  | nil => rfl
  | cons neighbour neighbours induction =>
      have fifth := neighbour.read_fifth
      rw [neighbourOf, entriesOf] at induction
      rw [neighbourOf, List.map_cons, List.findSome?_cons, neighbour.head?_words, entriesOf,
        List.filter_cons]
      by_cases same : neighbour.ip = ip
      · rw [if_pos (decide_eq_true same), if_pos (congrArg some same), List.findSome?_cons, ← fifth]
        cases neighbour.words[4]? with
        | none => exact induction
        | some word =>
            cases found : macOf word with
            | none => simpa [found, Option.filter] using induction
            | some mac => simp [found, Option.filter]
      · simpa [same] using induction

theorem Neighbour.read_ne_mac {neighbour : Neighbour} (incomplete : neighbour.lladdr = none)
    {mac : String} (isMac : IsMac mac) : neighbour.read ≠ some mac := by
  intro found
  rw [read, incomplete] at found
  rcases Option.bind_eq_some_iff.mp found with ⟨word, second, scanned⟩
  rw [macOf] at scanned
  split at scanned
  · cases scanned
  · apply neighbour.plain word (List.mem_of_getElem? second)
    have begins := isMac.2
    rw [← Option.some.inj scanned, scanMac_eq, String.toList_ofList] at begins
    exact List.mem_of_mem_take ((List.takeWhile_sublist _).mem begins)

/-- The first complete entry decides exactly if nothing is read of those before it. -/
theorem findSome?_read_iff {entries : List Neighbour}
    (macs : ∀ mac ∈ firstKnown entries, IsMac mac) :
    entries.findSome? Neighbour.read = firstKnown entries ↔
      ∀ neighbour ∈ incompleteBefore entries, neighbour.read = none := by
  induction entries with
  | nil => exact iff_of_true rfl (List.forall_mem_nil _)
  | cons neighbour entries induction =>
      rw [firstKnown, List.findSome?_cons] at macs ⊢
      rw [List.findSome?_cons, incompleteBefore]
      cases known : neighbour.lladdr with
      | some mac =>
          rw [known] at macs
          have read : neighbour.read = some mac := by
            rw [Neighbour.read, known]
            exact (macs mac rfl).1
          rw [read, List.takeWhile_cons_of_neg (by simp [known])]
          exact iff_of_true rfl (List.forall_mem_nil _)
      | none =>
          rw [known] at macs
          rw [List.takeWhile_cons_of_pos (by simp [known]), List.forall_mem_cons]
          cases found : neighbour.read with
          | none =>
              simp only [true_and]
              exact induction macs
          | some word =>
              refine iff_of_false (fun equal => ?_) (fun none => Option.some_ne_none word none.1)
              exact Neighbour.read_ne_mac known (macs word equal.symm) found

/-- `get_client_mac` finds the MAC address that a request is taken to come from: what is
first read of an entry of just this address. That is the address of its first complete entry
exactly if nothing is read of an incomplete one before it. -/
theorem client_mac_of_neighbours {neighbours : List Neighbour} {text ip : String}
    (lines : Rows (neighbours.map Neighbour.words) text.toList) (plain : ' ' ∉ ip.toList)
    (short : ip.length + 2 ≤ 64) {request : Request}
    (asked : request.neighbour = neighbourOf (neighbours.map Neighbour.words) ip) :
    let entries := entriesOf neighbours ip
    getClientMac (some text) ip = some request.mac ∧
      request.mac = entries.findSome? Neighbour.read ∧
      ((∀ mac ∈ firstKnown entries, IsMac mac) →
        (request.mac = firstKnown entries ↔
          ∀ neighbour ∈ incompleteBefore entries, neighbour.read = none)) := by
  intro entries
  have found := getClientMac_rows lines plain short
  have mac : request.mac = (neighbourOf (neighbours.map Neighbour.words) ip).bind macOf := by
    rw [Request.mac, asked]
    rfl
  have first : request.mac = entries.findSome? Neighbour.read :=
    mac.trans (neighbourOf_words neighbours ip)
  refine ⟨by rw [found, mac], first, fun macs => ?_⟩
  rw [first]
  exact findSome?_read_iff macs

def printRow (words : List String) : List Char :=
  layOut ([] :: List.replicate (words.length - 1) [' ']) (words.map String.toList) [' ']

theorem row_printRow {first : String} {words : List String}
    (visible : ∀ word ∈ first :: words, isWord isSpace word.toList = true)
    (single : '\n' ∉ printRow (first :: words)) (fits : (printRow (first :: words)).length < 253) :
    Row (first :: words) (printRow (first :: words)) where
  single := single
  fits := fits
  starts := by
    refine ⟨first, (printRow (first :: words)).drop (first.toList.length + 1), rfl, ?_⟩
    cases words <;> simp [printRow, layOut, List.replicate_succ]
  columns := by
    have ends : [' ', '\n'].all isSpace = true := by decide
    refine ⟨[' ', '\n'], List.all_eq_true.mp ends, ?_⟩
    rw [printRow, layOut_append]
    have gap {gap : List Char} (member : gap ∈ List.replicate words.length [' ']) : gap = [' '] :=
      List.eq_of_mem_replicate member
    apply columns_layOut
    · simp
    · intro piece member
      rcases List.mem_cons.mp member with rfl | member
      · rfl
      · rw [gap member]
        rfl
    · intro piece member
      rw [gap member]
      exact List.cons_ne_nil _ _
    · intro word member
      rcases List.mem_map.mp member with ⟨text, inWords, rfl⟩
      exact visible text inWords
    · rfl

/-- An address whose text begins like that of the client, an entry of the client that is not
complete before the one that is, and another address with a flag in such an entry. -/
def defaultNeighbours : List Neighbour :=
  [{ ip := "192.168.42.100", device := "br-lan", lladdr := some "00:16:3e:00:00:02",
     state := ["STALE"], plain := by decide },
    { ip := "192.168.42.10", device := "wlan0", lladdr := none, state := ["FAILED"],
      plain := by decide },
    { ip := "fe80::1", device := "wlan0", lladdr := none, state := ["router", "FAILED"],
      plain := by decide },
    { ip := "fe80::1", device := "br-lan", lladdr := some "00:16:3e:00:00:03",
      state := ["router", "REACHABLE"], plain := by decide },
    { ip := "192.168.42.10", device := "br-lan", lladdr := some "00:16:3e:00:00:01",
      state := ["REACHABLE"], plain := by decide }]

def defaultTable : List Char :=
  defaultNeighbours.foldr (fun neighbour others => printRow neighbour.words ++ '\n' :: others) []

theorem rows_defaultTable : Rows (defaultNeighbours.map Neighbour.words) defaultTable := by
  refine .cons (row_printRow ?_ ?_ ?_) (.cons (row_printRow ?_ ?_ ?_)
    (.cons (row_printRow ?_ ?_ ?_) (.cons (row_printRow ?_ ?_ ?_)
    (.cons (row_printRow ?_ ?_ ?_) .nil)))) <;> decide +kernel

/-- The client is found, and `FAILED` is read for the router. -/
theorem client_mac_of_neighbours_default :
    let request := defaultRequest "/" fun _ => none
    let rows := defaultNeighbours.map Neighbour.words
    let asked := { request with neighbour := neighbourOf rows "192.168.42.10" }
    let router := { request with neighbour := neighbourOf rows "fe80::1" }
    let table := some (String.ofList defaultTable)
    (getClientMac table "192.168.42.10" = some asked.mac ∧
        asked.mac = some "00:16:3e:00:00:01") ∧
      getClientMac table "fe80::1" = some router.mac ∧ router.mac = some "FA" ∧
        router.mac ≠ firstKnown (entriesOf defaultNeighbours "fe80::1") := by
  intro request rows asked router table
  have lines : Rows (defaultNeighbours.map Neighbour.words)
      (String.ofList defaultTable).toList := by
    rw [String.toList_ofList]
    exact rows_defaultTable
  have asks : asked.neighbour = neighbourOf rows "192.168.42.10" := rfl
  have routes : router.neighbour = neighbourOf rows "fe80::1" := rfl
  rcases client_mac_of_neighbours lines (by decide) (by decide) asks with ⟨found, _, known⟩
  rcases client_mac_of_neighbours lines (by decide) (by decide) routes with ⟨misread, first, _⟩
  have fa : router.mac = some "FA" := by
    rw [first]
    decide
  have own : firstKnown (entriesOf defaultNeighbours "192.168.42.10") =
      some "00:16:3e:00:00:01" := by decide
  rw [own] at known
  refine ⟨⟨found, (known ?_).mpr ?_⟩, misread, fa, ?_⟩
  · intro mac member
    rw [← Option.some.inj member, IsMac]
    decide
  · decide
  · rw [fa]
    decide

end Nodogsplash
