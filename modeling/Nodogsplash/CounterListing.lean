import Nodogsplash.EtherAddress
import Nodogsplash.Foundation.Scanning
import Nodogsplash.Provenance

/-! # The listings of iptables

What `iptables_fw_counters_update`, `iptables_fw_total_upload` and
`iptables_fw_total_download` read out of the text that `iptables -v -n -x -L`
prints for a chain. -/

namespace Nodogsplash

open Scanning

/-! ## Reading the counters of the clients -/

/-- `"%*s %llu %s %*s %*s %*s %*s %15[0-9.]"`. -/
def outgoingFormat : List Directive :=
  [.word false, .blanks, .number true, .blanks, .word true, .blanks, .word false, .blanks,
    .word false, .blanks, .word false, .blanks, .word false, .blanks,
    .set true 15 [('0', '9'), ('.', '.')]]

/-- `"%*s %llu %s %*s %*s %*s %*s %*s %15[0-9.]"`. -/
def incomingFormat : List Directive :=
  [.word false, .blanks, .number true, .blanks, .word true, .blanks, .word false, .blanks,
    .word false, .blanks, .word false, .blanks, .word false, .blanks, .word false, .blanks,
    .set true 15 [('0', '9'), ('.', '.')]]

def skipHeader (listing : String) : Input := skipLine (skipLine listing.toList).rest

namespace Gateway

/-- Find the client with an address that has been read and `raise` its counters. -/
def raiseCounter (raise : Nat → Counters → Counters) (gateway : Gateway) (ip : String)
    (counter : Nat) : Gateway :=
  if gateway.config.ip6 || !checkIpFormat ip then gateway
  else
    match gateway.clients.findByIp ip with
    | none => gateway
    | some node =>
        gateway.modifyClient node.address fun client =>
          { client with counters := raise counter client.counters }

/-- What is done with the items of a line, if there are three. -/
def countLine (target : String) (raise : Nat → Counters → Counters) (gateway : Gateway) :
    List Item → Gateway
  | [.number counter, .text name, .text ip] =>
      if String.ofList name = target then
        gateway.raiseCounter raise (String.ofList ip) counter
      else gateway
  | _ => gateway

/-- The loop of `iptables_fw_counters_update` over the lines, nothing if `fuel` rounds
are not enough. -/
def countLines (format : List Directive) (target : String) (raise : Nat → Counters → Counters) :
    Nat → Input → Gateway → Option Gateway
  | _, ⟨_, true⟩, gateway => some gateway
  | 0, ⟨_, false⟩, _ => none
  | fuel + 1, ⟨rest, false⟩, gateway =>
      let (items, input) := scan isSpace format rest
      countLines format target raise fuel (skipLine input.rest)
        (gateway.countLine target raise items)

/-- `iptables_fw_counters_update`: what it returns, and the clients; the two listings are
there if `popen` succeeds. -/
def iptablesFwCountersRead (outgoing incoming : Option String) (gateway : Gateway) :
    Option (Int × Gateway) :=
  match outgoing with
  | none => some (-1, gateway)
  | some listing => do
      let gateway ← countLines outgoingFormat "MARK" (raiseOutgoing gateway.clock)
        listing.length (skipHeader listing) gateway
      match incoming with
      | none => return (-1, gateway)
      | some listing =>
          let gateway ← countLines incomingFormat "ACCEPT" raiseIncoming
            listing.length (skipHeader listing) gateway
          return (0, gateway)

end Gateway

/-! ## Reading the totals -/

/-- `"%*d %llu %s "`. -/
def uploadFormat : List Directive :=
  [.number false, .blanks, .number true, .blanks, .word true, .blanks]

/-- `"%*s %llu %s "`. -/
def downloadFormat : List Directive :=
  [.word false, .blanks, .number true, .blanks, .word true, .blanks]

/-- The loop of `iptables_fw_total_upload` and `iptables_fw_total_download`, nothing if
`fuel` rounds are not enough. -/
def totalLines (format : List Directive) (chain : String) : Nat → Input → Option Nat
  | _, ⟨_, true⟩ => some 0
  | 0, ⟨_, false⟩ => none
  | fuel + 1, ⟨rest, false⟩ =>
      let (items, input) := scan isSpace format rest
      let eatLine := totalLines format chain fuel (skipLine input.rest)
      match items with
      | [.number counter, .text name] =>
          if String.ofList name = chain then some counter else eatLine
      | _ => eatLine

/-- `iptables_fw_total_upload` on the listing of mangle `PREROUTING`, if there is one. -/
def iptablesFwTotalUpload (listing : Option String) : Option Nat :=
  match listing with
  | none => some 0
  | some listing =>
      totalLines uploadFormat Chain.outgoing.name listing.length (skipHeader listing)

/-- `iptables_fw_total_download` on the listing of mangle `POSTROUTING`, if there is one. -/
def iptablesFwTotalDownload (listing : Option String) : Option Nat :=
  match listing with
  | none => some 0
  | some listing =>
      totalLines downloadFormat Chain.incoming.name listing.length (skipHeader listing)

/-! ## The text that iptables prints -/

def targetColumn : Target → String
  | .accept => "ACCEPT"
  | .drop => "DROP"
  | .reject _ => "REJECT"
  | .leave => "RETURN"
  | .log => "LOG"
  | .ulog => "ULOG"
  | .mark _ _ => "MARK"
  | .tcpmss _ => "TCPMSS"
  | .dnat _ => "DNAT"
  | .jump chain => chain.name

/-- The names that no chain of another program has: iptables refuses those of targets. -/
def reservedNames : List String :=
  ["ACCEPT", "DROP", "REJECT", "RETURN", "LOG", "ULOG", "MARK", "TCPMSS", "DNAT",
    Chain.outgoing.name, Chain.incoming.name]

/-- The line of a listing for an entry, with the text behind it: columns of any width, with
a count of packets and names that the listing of a rule has besides what the model knows
of it. -/
inductive Line (entry : Entry) (others text : List Char) : Prop
  | columns {packets bytes protocol option device outDevice tail : List Char}
      (columns : Columns isSpace tail ([packets, bytes, (targetColumn entry.rule.target).toList,
        protocol, option, device, outDevice, (Gateway.sourceColumn entry.rule).toList,
        (Gateway.destinationColumn entry.rule).toList]) text)
      (line : OnLine others tail)
      (countsPackets : ∀ char ∈ packets, char.isDigit = true)
      (countsBytes : ∀ char ∈ bytes, char.isDigit = true)
      (fewPackets : value packets < 2 ^ 64) (fewBytes : entry.bytes < 2 ^ 64)
      (counted : value bytes = entry.bytes)
      (named : ∀ name, entry.rule.target = .jump (.foreign name) → name ∉ reservedNames)

/-- The line of a listing for a rule without a target, of which the model knows nothing: the
column of the target is empty, so the words behind it are in the place of those before. -/
inductive UntargetedLine (others text : List Char) : Prop
  | columns {packets bytes protocol option device outDevice source destination tail : List Char}
      (columns : Columns isSpace tail [packets, bytes, protocol, option, device, outDevice, source,
        destination] text)
      (line : OnLine others tail)
      (countsPackets : ∀ char ∈ packets, char.isDigit = true)
      (countsBytes : ∀ char ∈ bytes, char.isDigit = true)
      (fewPackets : value packets < 2 ^ 64) (fewBytes : value bytes < 2 ^ 64)
      (named : String.ofList protocol ∉ reservedNames)

/-- The lines of a listing for the entries of a chain. Other programs have rules without a
target in it only if `mixed`. -/
inductive Lines (mixed : Bool) : List Entry → List Char → Prop
  | nil : Lines mixed [] []
  | cons {entry : Entry} {entries : List Entry} {others text : List Char}
      (line : Line entry others text) (lines : Lines mixed entries others) :
      Lines mixed (entry :: entries) text
  | untargeted {entries : List Entry} {others text : List Char} (allowed : mixed = true)
      (line : UntargetedLine others text) (lines : Lines mixed entries others) :
      Lines mixed entries text

/-- The listing of a chain: two lines of headings, then its entries. -/
def Lists (mixed : Bool) (listing : String) (entries : List Entry) : Prop :=
  ∃ others body, OnLine others listing.toList ∧ OnLine body others ∧ Lines mixed entries body

theorem Lists.skipHeader_eq {mixed : Bool} {listing : String} {entries : List Entry}
    (lists : Lists mixed listing entries) :
    ∃ body, skipHeader listing = ⟨body, false⟩ ∧ Lines mixed entries body ∧
      body.length + 1 ≤ listing.length := by
  rcases lists with ⟨others, body, first, second, lines⟩
  refine ⟨body, by rw [skipHeader, first.skipLine_eq, second.skipLine_eq], lines, ?_⟩
  rcases first with ⟨heading, _, listingText⟩
  rcases second with ⟨names, _, rfl⟩
  have length := congrArg List.length listingText
  rw [String.length_toList] at length
  simp only [List.length_append, List.length_cons] at length
  omega

/-! ## Blanks, digits and addresses -/

theorem isSpace_iff (char : Char) :
    isSpace char = true ↔ char.toNat = 32 ∨ 9 ≤ char.toNat ∧ char.toNat ≤ 13 := by
  simp only [isSpace, Bool.or_eq_true, Bool.and_eq_true, decide_eq_true_eq, ge_iff_le]
  rw [← Char.toNat_inj]
  rfl

theorem inRanges_address (char : Char) :
    inRanges [('0', '9'), ('.', '.')] char = (char.isDigit || decide (char = '.')) := by
  rw [Bool.eq_iff_iff]
  simp only [inRanges, List.any_cons, List.any_nil, Bool.or_false, Bool.or_eq_true,
    Bool.and_eq_true, decide_eq_true_eq, char_le_iff, isDigit_iff, ← Char.toNat_inj]
  have zero : '0'.toNat = 48 := rfl
  have nine : '9'.toNat = 57 := rfl
  have dot : '.'.toNat = 46 := rfl
  omega

theorem isDigit_of_isSpace {char : Char} (blank : isSpace char = true) :
    char.isDigit = false := by
  rw [isSpace_iff] at blank
  by_contra digit
  rw [Bool.not_eq_false, isDigit_iff] at digit
  omega

theorem inRanges_of_isSpace {char : Char} (blank : isSpace char = true) :
    inRanges [('0', '9'), ('.', '.')] char = false := by
  rw [inRanges_address, isDigit_of_isSpace blank, Bool.false_or, decide_eq_false_iff_not]
  rintro rfl
  cases blank

theorem scanAddress_eq (text : String) :
    Gateway.scanAddress text =
      String.ofList ((text.toList.take 15).takeWhile (inRanges [('0', '9'), ('.', '.')])) := by
  rw [Gateway.scanAddress, funext inRanges_address]

theorem Line.onLine {entry : Entry} {others text : List Char} (line : Line entry others text) :
    OnLine others text := by
  rcases line with ⟨columns, line, _⟩
  exact columns.onLine rfl line

theorem UntargetedLine.onLine {others text : List Char} (line : UntargetedLine others text) :
    OnLine others text := by
  rcases line with ⟨columns, line, _⟩
  exact columns.onLine rfl line

/-- What is read on a line has another name in the place of the target. -/
def ReadsOtherName (format : List Directive) (others text : List Char) : Prop :=
  ∃ counter name more input, String.ofList name ∉ reservedNames ∧
    scan isSpace format text = (.number counter :: .text name :: more, input) ∧
    OnLine others input.rest

/-! ## The counters of the clients -/

def lineItems (column : Rule → String) (entry : Entry) : List Item :=
  let address := ((column entry.rule).toList.take 15).takeWhile (inRanges [('0', '9'), ('.', '.')])
  .number entry.bytes :: .text (targetColumn entry.rule.target).toList ::
    if address.isEmpty then [] else [.text address]

/-- The format reads this column of a line, and nothing at the end of the input; if rules
without a target are `mixed` in, it stays on their lines. -/
structure ReadsColumn (mixed : Bool) (format : List Directive) (column : Rule → String) :
    Prop where
  nothing : scan isSpace format [] = ([], ⟨[], true⟩)
  line : ∀ {entry : Entry} {others text : List Char}, Line entry others text →
    ∃ input, scan isSpace format text = (lineItems column entry, input) ∧
      OnLine others input.rest
  untargeted : mixed = true → ∀ {others text : List Char}, UntargetedLine others text →
    ReadsOtherName format others text

theorem scan_counted {packets bytes name address tail others text : List Char}
    (skipped : List (List Char)) {words : List (List Char)}
    (columns : Columns isSpace tail (packets :: bytes :: name :: (skipped ++ address :: words))
      text)
    (line : OnLine others tail) (digits : ∀ char ∈ bytes, char.isDigit = true)
    (few : value bytes < 2 ^ 64) :
    let taken := (address.take 15).takeWhile (inRanges [('0', '9'), ('.', '.')])
    ∃ input, OnLine others input.rest ∧
      scan isSpace (.word false :: .blanks :: .number true :: .blanks :: .word true ::
        ((skipped.flatMap fun _ => [.blanks, .word false]) ++
          [.blanks, .set true 15 [('0', '9'), ('.', '.')]])) text =
        (.number (value bytes) :: .text name :: if taken.isEmpty then [] else [.text taken],
          input) := by
  intro taken
  rcases columns.scan_word false with ⟨_, columns, first⟩
  rcases columns.scan_blanks_number digits (fun _ => isDigit_of_isSpace) few true with
    ⟨_, columns, second⟩
  rcases columns.scan_blanks_word true with ⟨_, columns, third⟩
  rcases columns.scan_skipped with ⟨_, columns, skips⟩
  rcases columns.scan_set (fun _ => inRanges_of_isSpace) 15 with ⟨next, columns, visible, last⟩
  refine ⟨⟨address.drop taken.length ++ next, false⟩, ?_, ?_⟩
  · refine (columns.onLine rfl line).append fun member => ?_
    have hidden := visible _ (List.mem_of_mem_drop member)
    cases hidden
  · rw [first, second, third, skips, last]
    by_cases empty : taken.isEmpty = true
    · rw [if_pos empty, if_pos empty]
      rfl
    · rw [if_neg empty, if_neg empty]
      rfl

/-- The source is the fifth column after the target, the destination the sixth. -/
theorem readsColumn_outgoing : ReadsColumn true outgoingFormat Gateway.sourceColumn where
  nothing := rfl
  line := by
    rintro entry others text ⟨columns, line, _, digits, _, few, counted, _⟩
    rw [← counted] at few
    rcases scan_counted [_, _, _, _] columns line digits few with ⟨input, rest, read⟩
    rw [counted] at read
    exact ⟨input, read, rest⟩
  untargeted := by
    rintro _ others text ⟨columns, line, _, digits, _, few, named⟩
    rcases scan_counted [_, _, _, _] columns line digits few with ⟨input, rest, read⟩
    exact ⟨_, _, _, input, named, read, rest⟩

/-- Behind the destination of a rule without a target the next line is read. -/
theorem readsColumn_incoming : ReadsColumn false incomingFormat Gateway.destinationColumn where
  nothing := rfl
  line := by
    rintro entry others text ⟨columns, line, _, digits, _, few, counted, _⟩
    rw [← counted] at few
    rcases scan_counted [_, _, _, _, _] columns line digits few with
      ⟨input, rest, read⟩
    rw [counted] at read
    exact ⟨input, read, rest⟩
  untargeted := fun mixed => absurd mixed Bool.false_ne_true

theorem length_lt_of_onLine {others text : List Char} (onLine : OnLine others text) :
    others.length < text.length := by
  rcases onLine with ⟨line, _, rfl⟩
  rw [List.length_append, List.length_cons]
  omega

namespace Gateway

theorem countLine_lineItems (target : String) (raise : Nat → Counters → Counters)
    (column : Rule → String) (gateway : Gateway) (entry : Entry) :
    gateway.countLine target raise (lineItems column entry) =
      if targetColumn entry.rule.target = target then readCounter column raise gateway entry
      else gateway := by
  have address := scanAddress_eq (column entry.rule)
  rw [lineItems]
  split
  · next empty =>
      rw [List.isEmpty_iff] at empty
      rw [empty] at address
      have refused : checkIpFormat (scanAddress (column entry.rule)) = false := by
        rw [address]
        rfl
      simp [countLine, readCounter, refused]
  · simp only [countLine, String.ofList_toList, ← address]
    rfl

theorem countLine_otherName {target : String} (reserved : target ∈ reservedNames)
    (raise : Nat → Counters → Counters) (gateway : Gateway) (counter : Nat) {name : List Char}
    (named : String.ofList name ∉ reservedNames) (more : List Item) :
    gateway.countLine target raise (.number counter :: .text name :: more) = gateway := by
  have other : String.ofList name ≠ target := fun equal => named (equal ▸ reserved)
  rcases more with _ | ⟨_ | _, _ | _⟩ <;> simp [countLine, other]

theorem countLines_lines {mixed : Bool} {format : List Directive} {column : Rule → String}
    (reads : ReadsColumn mixed format column) {target : String}
    (reserved : target ∈ reservedNames) (raise : Nat → Counters → Counters)
    {entries : List Entry} {text : List Char} (lines : Lines mixed entries text) {fuel : Nat}
    (enough : text.length < fuel) (gateway : Gateway) :
    countLines format target raise fuel ⟨text, false⟩ gateway =
      some ((entries.filter fun entry => decide (targetColumn entry.rule.target = target)).foldl
        (readCounter column raise) gateway) := by
  induction lines generalizing fuel gateway with
  | nil =>
      rcases fuel with _ | fuel
      · cases enough
      simp only [countLines, reads.nothing]
      cases fuel <;> rfl
  | @cons entry entries others text line lines induction =>
      rcases fuel with _ | fuel
      · cases enough
      rcases reads.line line with ⟨input, read, rest⟩
      have shorter := length_lt_of_onLine line.onLine
      have later := induction (by omega : others.length < fuel)
        (gateway.countLine target raise (lineItems column entry))
      simp only [countLines, read, rest.skipLine_eq]
      rw [later, countLine_lineItems, List.filter_cons]
      by_cases named : targetColumn entry.rule.target = target
      · simp [named]
      · simp [named]
  | @untargeted entries others text allowed line lines induction =>
      rcases fuel with _ | fuel
      · cases enough
      rcases reads.untargeted allowed line with ⟨counter, name, more, input, named, read, rest⟩
      have shorter := length_lt_of_onLine line.onLine
      simp only [countLines, read, rest.skipLine_eq]
      rw [countLine_otherName reserved raise gateway counter named more]
      exact induction (by omega) gateway

theorem countLines_ends (format : List Directive) (target : String)
    (raise : Nat → Counters → Counters) {fuel : Nat} {input : Input} (gateway : Gateway)
    (enough : input.ended = true ∨ input.rest.length < fuel) :
    (countLines format target raise fuel input gateway).isSome = true := by
  induction fuel generalizing input gateway with
  | zero =>
      rcases input with ⟨rest, ended⟩
      rcases enough with rfl | short
      · rfl
      · cases short
  | succ fuel induction =>
      rcases input with ⟨rest, ended⟩
      cases ended with
      | true => rfl
      | false =>
          rcases enough with ended | short
          · cases ended
          have suffix := (scan_suffix isSpace format rest).length_le
          have progress := skipLine_progress (scan isSpace format rest).2.rest
          rw [countLines]
          apply induction
          rcases progress with ended | shorter
          · exact .inl ended
          · right
            simp only at short
            omega

end Gateway

/-! ## The totals -/

structure ReadsTotal (format : List Directive) : Prop where
  nothing : scan isSpace format [] = ([], ⟨[], true⟩)
  line : ∀ {entry : Entry} {others text : List Char}, Line entry others text →
    ∃ input, scan isSpace format text =
        ([.number entry.bytes, .text (targetColumn entry.rule.target).toList], input) ∧
      OnLine others input.rest
  untargeted : ∀ {others text : List Char}, UntargetedLine others text →
    ReadsOtherName format others text

theorem scan_total {bytes name next tail others text : List Char} {words : List (List Char)}
    (columns : Columns isSpace tail (bytes :: name :: next :: words) text)
    (line : OnLine others tail) (digits : ∀ char ∈ bytes, char.isDigit = true)
    (few : value bytes < 2 ^ 64) :
    ∃ input, OnLine others input.rest ∧
      scan isSpace [.blanks, .number true, .blanks, .word true, .blanks] text =
        ([.number (value bytes), .text name], input) := by
  rcases columns.scan_blanks_number digits (fun _ => isDigit_of_isSpace) few true with
    ⟨_, columns, first⟩
  rcases columns.scan_blanks_word true with ⟨_, columns, second⟩
  rcases columns.scan_blanks with ⟨_, _, following, rest, _, _, _, whole, _, third⟩
  refine ⟨⟨next ++ following :: rest, false⟩, whole.onLine rfl line, ?_⟩
  rw [first, second, third]
  rfl

theorem readsTotal_upload : ReadsTotal uploadFormat where
  nothing := rfl
  line := by
    rintro entry others text ⟨columns, line, packets, digits, fewPackets, few, counted, _⟩
    rw [← counted] at few
    rcases columns.scan_number packets (fun _ => isDigit_of_isSpace) fewPackets false with
      ⟨_, columns, first⟩
    rcases scan_total columns line digits few with ⟨input, rest, read⟩
    refine ⟨input, ?_, rest⟩
    rw [← counted, uploadFormat, first, read]
    rfl
  untargeted := by
    rintro others text @⟨_, bytes, _, _, _, _, _, _, _, columns, line, packets, digits, fewPackets,
      few, named⟩
    rcases columns.scan_number packets (fun _ => isDigit_of_isSpace) fewPackets false with
      ⟨_, columns, first⟩
    rcases scan_total columns line digits few with ⟨input, rest, read⟩
    refine ⟨value bytes, _, [], input, named, ?_, rest⟩
    rw [uploadFormat, first, read]
    rfl

theorem readsTotal_download : ReadsTotal downloadFormat where
  nothing := rfl
  line := by
    rintro entry others text ⟨columns, line, _, digits, _, few, counted, _⟩
    rw [← counted] at few
    rcases columns.scan_word false with ⟨_, columns, first⟩
    rcases scan_total columns line digits few with ⟨input, rest, read⟩
    refine ⟨input, ?_, rest⟩
    rw [← counted, downloadFormat, first, read]
    rfl
  untargeted := by
    rintro others text @⟨_, bytes, _, _, _, _, _, _, _, columns, line, _, digits, _, few, named⟩
    rcases columns.scan_word false with ⟨_, columns, first⟩
    rcases scan_total columns line digits few with ⟨input, rest, read⟩
    refine ⟨value bytes, _, [], input, named, ?_, rest⟩
    rw [downloadFormat, first, read]
    rfl

/-- The loop over a listing finds the first entry with the target. -/
theorem totalLines_lines {mixed : Bool} {format : List Directive} (reads : ReadsTotal format)
    {chain : Chain} (reserved : chain.name ∈ reservedNames) {entries : List Entry}
    {text : List Char} (lines : Lines mixed entries text)
    (names : ∀ entry ∈ entries,
      targetColumn entry.rule.target = chain.name ↔ entry.rule.target = .jump chain)
    {fuel : Nat} (enough : text.length < fuel) :
    totalLines format chain.name fuel ⟨text, false⟩ =
      some (((entries.find? fun entry => decide (entry.rule.target = .jump chain)).map
        Entry.bytes).getD 0) := by
  induction lines generalizing fuel with
  | nil =>
      rcases fuel with _ | fuel
      · cases enough
      simp only [totalLines, reads.nothing]
      cases fuel <;> rfl
  | @cons entry entries others text line lines induction =>
      rcases fuel with _ | fuel
      · cases enough
      rcases reads.line line with ⟨input, read, rest⟩
      have shorter := length_lt_of_onLine line.onLine
      have later := induction (fun other member => names other (List.mem_cons_of_mem _ member))
        (by omega : others.length < fuel)
      have named := names entry List.mem_cons_self
      simp only [totalLines, read, rest.skipLine_eq, String.ofList_toList]
      rw [later]
      by_cases hit : entry.rule.target = .jump chain
      · rw [if_pos (named.mpr hit), List.find?_cons_of_pos (by simpa using hit)]
        rfl
      · rw [if_neg (mt named.mp hit), List.find?_cons_of_neg (by simpa using hit)]
  | @untargeted entries others text allowed line lines induction =>
      rcases fuel with _ | fuel
      · cases enough
      rcases reads.untargeted line with ⟨counter, name, more, input, named, read, rest⟩
      have shorter := length_lt_of_onLine line.onLine
      have other : String.ofList name ≠ chain.name := fun equal => named (equal ▸ reserved)
      have later := induction names (by omega : others.length < fuel)
      simp only [totalLines, read, rest.skipLine_eq]
      rw [later]
      rcases more with _ | ⟨_, _⟩
      · exact if_neg other
      · rfl

/-! ## Names in the target column -/

theorem Lines.named {mixed : Bool} {entries : List Entry} {text : List Char}
    (lines : Lines mixed entries text) :
    ∀ entry ∈ entries, ∀ name, entry.rule.target = .jump (.foreign name) →
      name ∉ reservedNames := by
  induction lines with
  | nil => exact List.forall_mem_nil _
  | @cons entry entries others text line lines induction =>
      rcases line with ⟨_, _, _, _, _, _, _, named⟩
      exact List.forall_mem_cons.mpr ⟨named, induction⟩
  | untargeted _ _ _ induction => exact induction

theorem targetColumn_mark {target : Target}
    (named : ∀ name, target = .jump (.foreign name) → name ∉ reservedNames) :
    targetColumn target = "MARK" ↔ ∃ op value, target = .mark op value := by
  cases target with
  | jump chain =>
      cases chain with
      | foreign name =>
          have other := named name rfl
          simp only [reservedNames, List.mem_cons, not_or] at other
          simp [targetColumn, Chain.name, other]
      | _ => simp [targetColumn, Chain.name]
  | _ => simp [targetColumn]

theorem targetColumn_accept {target : Target}
    (named : ∀ name, target = .jump (.foreign name) → name ∉ reservedNames) :
    targetColumn target = "ACCEPT" ↔ decide (target = .accept) = true := by
  cases target with
  | jump chain =>
      cases chain with
      | foreign name =>
          have other := named name rfl
          simp only [reservedNames, List.mem_cons, not_or] at other
          simp [targetColumn, Chain.name, other]
      | _ => simp [targetColumn, Chain.name]
  | _ => simp [targetColumn]

theorem targetColumn_chain {target : Target} {chain : Chain}
    (own : chain = .outgoing ∨ chain = .incoming)
    (named : ∀ name, target = .jump (.foreign name) → name ∉ reservedNames) :
    targetColumn target = chain.name ↔ target = .jump chain := by
  cases target with
  | jump other =>
      cases other with
      | foreign name =>
          have other := named name rfl
          simp only [reservedNames, List.mem_cons, not_or, Chain.name] at other
          rcases own with rfl | rfl <;> simp [targetColumn, Chain.name, other]
      | _ => rcases own with rfl | rfl <;> simp [targetColumn, Chain.name]
  | _ => rcases own with rfl | rfl <;> simp [targetColumn, Chain.name]

/-! ## What is read -/

theorem Gateway.listedEntries_eq (gateway : Gateway) {chain : Chain} (wanted : Target → Bool)
    {name : String}
    (named : ∀ entry ∈ (gateway.firewall.tables.chain .mangle chain).getD [],
      targetColumn entry.rule.target = name ↔ wanted entry.rule.target = true) :
    gateway.listedEntries chain wanted =
      ((gateway.firewall.tables.chain .mangle chain).getD []).filter fun entry =>
        decide (targetColumn entry.rule.target = name) := by
  apply List.filter_congr
  intro entry member
  rw [Bool.eq_iff_iff, decide_eq_true_eq]
  exact (named entry member).symm

theorem skipHeader_short (listing : String) :
    (skipHeader listing).ended = true ∨ (skipHeader listing).rest.length < listing.length := by
  have first := skipLine_progress listing.toList
  have second := skipLine_progress (skipLine listing.toList).rest
  rw [String.length_toList] at first
  rw [skipHeader]
  rcases second with ended | shorter
  · exact .inl ended
  · rcases first with ended | short
    · rw [skipLine_ended ended] at shorter
      cases shorter
    · exact .inr (shorter.trans short)

theorem iptablesFwCountersRead_isSome (outgoing incoming : Option String) (gateway : Gateway) :
    (Gateway.iptablesFwCountersRead outgoing incoming gateway).isSome = true := by
  rcases outgoing with _ | outgoing
  · rfl
  rcases Option.isSome_iff_exists.mp (Gateway.countLines_ends outgoingFormat "MARK"
    (Gateway.raiseOutgoing gateway.clock) gateway (skipHeader_short outgoing)) with ⟨next, first⟩
  rcases incoming with _ | incoming
  · simp [Gateway.iptablesFwCountersRead, first]
  rcases Option.isSome_iff_exists.mp (Gateway.countLines_ends incomingFormat "ACCEPT"
    Gateway.raiseIncoming next (skipHeader_short incoming)) with ⟨last, second⟩
  simp [Gateway.iptablesFwCountersRead, first, second]

/-- Whatever the columns are padded with and whoever has rules in the chains,
`iptables_fw_counters_update` counts from the listings what the kernel has counted; on
other texts it ends too. In `ndsINC` all rules have a target. -/
theorem counters_read_from_listings (gateway : Gateway) (outgoing incoming : Option String) :
    (Gateway.iptablesFwCountersRead outgoing incoming gateway).isSome = true ∧
      ((∀ listing, outgoing = some listing →
          Lists true listing ((gateway.firewall.tables.chain .mangle .outgoing).getD [])) →
        (∀ listing, incoming = some listing →
          Lists false listing ((gateway.firewall.tables.chain .mangle .incoming).getD [])) →
        let updated := Gateway.iptablesFwCountersUpdate outgoing.isSome incoming.isSome gateway
        Gateway.iptablesFwCountersRead outgoing incoming gateway =
          some (if updated.1 then 0 else -1, updated.2)) := by
  refine ⟨iptablesFwCountersRead_isSome outgoing incoming gateway, ?_⟩
  intro listsOutgoing listsIncoming
  rcases outgoing with _ | outgoing
  · rfl
  rcases (listsOutgoing outgoing rfl).skipHeader_eq with ⟨body, header, lines, short⟩
  have read := Gateway.countLines_lines readsColumn_outgoing (by decide : "MARK" ∈ reservedNames)
    (Gateway.raiseOutgoing gateway.clock) lines short gateway
  rw [← header] at read
  simp only [Gateway.iptablesFwCountersRead, Gateway.iptablesFwCountersUpdate, read,
    Option.isSome_some, Bool.not_true, Bool.false_eq_true, if_false, Option.bind_eq_bind,
    Option.bind_some]
  have marked := fun entry member => targetColumn_mark (lines.named entry member)
  rw [gateway.listedEntries_eq _ fun entry member => (marked entry member).trans ?_]
  · have firewall := Gateway.foldl_readCounter_keeps Gateway.firewall (fun _ _ => rfl)
      Gateway.sourceColumn (Gateway.raiseOutgoing gateway.clock)
      (((gateway.firewall.tables.chain .mangle .outgoing).getD []).filter fun entry =>
        decide (targetColumn entry.rule.target = "MARK")) gateway
    revert firewall
    generalize List.foldl _ gateway _ = counted
    intro firewall
    rcases incoming with _ | incoming
    · rfl
    have listed := listsIncoming incoming rfl
    rw [← firewall] at listed
    rcases listed.skipHeader_eq with ⟨body, header, lines, short⟩
    have accepted := counted.listedEntries_eq (fun target => decide (target = .accept))
      fun entry member => targetColumn_accept (lines.named entry member)
    have readIncoming := Gateway.countLines_lines readsColumn_incoming
      (by decide : "ACCEPT" ∈ reservedNames) Gateway.raiseIncoming lines short counted
    rw [← header, ← accepted] at readIncoming
    simp only [readIncoming, Option.isSome_some, Bool.not_true, Bool.false_eq_true, if_false,
      Option.bind_some, if_true]
    rfl
  · cases entry.rule.target <;> simp

/-- A line with the columns of an entry, `912` packets and the gaps before each column. -/
def listedLine (gaps : List (List Char)) (bytes : String) (entry : Entry) (options : String)
    (others : List Char) : List Char :=
  layOut gaps ["912".toList, bytes.toList, (targetColumn entry.rule.target).toList, "all".toList,
    "--".toList, "*".toList, "*".toList, (Gateway.sourceColumn entry.rule).toList,
    (Gateway.destinationColumn entry.rule).toList] (' ' :: (options.toList ++ '\n' :: others))

def defaultGaps : List (List Char) :=
  ["    ", "      ", " ", "       ", "  ", "  ", "      ", "       ", "        "].map String.toList

theorem line_listedLine {entry : Entry} (bytes options : String) (others : List Char)
    (visible : ∀ text ∈ [bytes, targetColumn entry.rule.target, Gateway.sourceColumn entry.rule,
      Gateway.destinationColumn entry.rule], isWord isSpace text.toList = true)
    (single : '\n' ∉ options.toList) (digits : bytes.toList.all Char.isDigit = true)
    (counted : value bytes.toList = entry.bytes) (few : entry.bytes < 2 ^ 64)
    (named : ∀ name, entry.rule.target = .jump (.foreign name) → name ∉ reservedNames) :
    Line entry others (listedLine defaultGaps bytes entry options others) := by
  simp only [List.forall_mem_cons] at visible
  have line : OnLine others (' ' :: (options.toList ++ '\n' :: others)) :=
    ⟨' ' :: options.toList, by simpa using single, rfl⟩
  have packets : "912".toList.all Char.isDigit = true := by decide
  refine .columns (columns_layOut rfl (by decide) (by decide) ?_ rfl) line
    (List.all_eq_true.mp packets) (List.all_eq_true.mp digits) (by decide) few counted named
  simp only [List.forall_mem_cons]
  exact ⟨by decide, visible.1, visible.2.1, by decide, by decide, by decide, by decide,
    visible.2.2.1, visible.2.2.2.1, List.forall_mem_nil _⟩

def countingLine (bytes : String) (others : List Char) : List Char :=
  layOut (defaultGaps.take 8) ["7".toList, bytes.toList, "all".toList, "--".toList, "*".toList,
    "*".toList, "0.0.0.0/0".toList, "0.0.0.0/0".toList] (' ' :: '\n' :: others)

theorem untargetedLine_countingLine {bytes : String} (others : List Char)
    (visible : isWord isSpace bytes.toList = true)
    (digits : bytes.toList.all Char.isDigit = true) (few : value bytes.toList < 2 ^ 64) :
    UntargetedLine others (countingLine bytes others) := by
  have packets : "7".toList.all Char.isDigit = true := by decide
  refine .columns (columns_layOut rfl (by decide) (by decide) ?_ rfl) ⟨[' '], by decide, rfl⟩
    (List.all_eq_true.mp packets) (List.all_eq_true.mp digits) (by decide) few (by decide)
  simp only [List.forall_mem_cons]
  exact ⟨by decide, visible, by decide, by decide, by decide, by decide, by decide, by decide,
    List.forall_mem_nil _⟩

/-- The two lines of headings before the lines of the entries. -/
def headed (lines : List Char) : String :=
  String.ofList ("Chain (1 references)".toList ++ '\n' ::
    ("    pkts      bytes target     prot opt in     out     source     destination".toList ++
      '\n' :: lines))

theorem lists_headed {mixed : Bool} {entries : List Entry} {text : List Char}
    (lines : Lines mixed entries text) : Lists mixed (headed text) entries :=
  ⟨_, text, ⟨_, by decide, String.toList_ofList⟩, ⟨_, by decide, rfl⟩, lines⟩

/-- A client that has logged in and sent something. -/
def countedGateway : Gateway :=
  (loginEvents ++ [(1030, Event.traffic .mangle .outgoing 0 81230),
    (1040, Event.traffic .mangle .incoming 1 4096)]).foldl Gateway.step defaultGateway

def countedOutgoing : List Entry :=
  [⟨outgoingRule .orMark countedGateway.marks.toMarks "192.168.42.10" "00:16:3e:00:00:01", 81230⟩]

def countedIncoming : List Entry :=
  [⟨⟨[.destination "192.168.42.10"], .mark .orMark countedGateway.marks.authenticated⟩, 0⟩,
    ⟨⟨[.destination "192.168.42.10"], .accept⟩, 4096⟩]

/-- The lines of the listings. Another program counts in the first one too. -/
def outgoingLines : List Char :=
  countingLine "90000" <|
    listedLine defaultGaps "81230" countedOutgoing[0] "MAC 00:16:3e:00:00:01 MARK or 0x30000" []

def incomingLines : List Char :=
  listedLine defaultGaps "0" countedIncoming[0] "MARK or 0x30000"
    (listedLine defaultGaps "4096" countedIncoming[1] "" [])

theorem lines_outgoing : Lines true countedOutgoing outgoingLines := by
  refine .untargeted rfl (untargetedLine_countingLine _ ?_ ?_ ?_)
    (.cons (line_listedLine "81230" _ [] ?_ ?_ ?_ ?_ ?_ nofun) .nil) <;> decide +kernel

theorem lines_incoming : Lines false countedIncoming incomingLines := by
  refine .cons (line_listedLine "0" _ _ ?_ ?_ ?_ ?_ ?_ nofun)
    (.cons (line_listedLine "4096" "" [] ?_ ?_ ?_ ?_ ?_ nofun) .nil) <;> decide +kernel

-- behind a rule of `ndsINC` that only counts, the line of a client is read with it
example :
    let read := scan isSpace incomingFormat
      (countingLine "90000" (listedLine defaultGaps "4096" countedIncoming[1] "" []))
    read.1 = [.number 90000, .text "all".toList, .text "912".toList] ∧
      skipLine read.2.rest = ⟨[], false⟩ := by
  decide +kernel

theorem counters_read_from_listings_default :
    Gateway.iptablesFwCountersRead (some (headed outgoingLines)) (some (headed incomingLines))
        countedGateway =
      some (0, (Gateway.iptablesFwCountersUpdate true true countedGateway).2) := by
  have outgoing : (countedGateway.firewall.tables.chain .mangle .outgoing).getD [] =
      countedOutgoing := by decide +kernel
  have incoming : (countedGateway.firewall.tables.chain .mangle .incoming).getD [] =
      countedIncoming := by decide +kernel
  apply (counters_read_from_listings countedGateway (some (headed outgoingLines))
    (some (headed incomingLines))).2
  · intro listing given
    rw [outgoing, ← Option.some.inj given]
    exact lists_headed lines_outgoing
  · intro listing given
    rw [incoming, ← Option.some.inj given]
    exact lists_headed lines_incoming

/-- Whatever other programs have in `PREROUTING` and `POSTROUTING`, the totals are the
counters of the first jumps to the daemon's chains. -/
theorem totals_read_from_listings {upload download : List Entry} {prerouting postrouting : String}
    (listsUpload : Lists true prerouting upload)
    (listsDownload : Lists true postrouting download) :
    iptablesFwTotalUpload (some prerouting) =
        some (((upload.find? fun entry => decide (entry.rule.target = .jump .outgoing)).map
          Entry.bytes).getD 0) ∧
      iptablesFwTotalDownload (some postrouting) =
        some (((download.find? fun entry => decide (entry.rule.target = .jump .incoming)).map
          Entry.bytes).getD 0) := by
  rcases listsUpload.skipHeader_eq with ⟨uploadBody, uploadHeader, uploadLines, uploadShort⟩
  rcases listsDownload.skipHeader_eq with
    ⟨downloadBody, downloadHeader, downloadLines, downloadShort⟩
  rw [iptablesFwTotalUpload, iptablesFwTotalDownload, uploadHeader, downloadHeader]
  exact ⟨totalLines_lines readsTotal_upload (by decide) uploadLines (fun entry member =>
      targetColumn_chain (.inl rfl) (uploadLines.named entry member)) uploadShort,
    totalLines_lines readsTotal_download (by decide) downloadLines (fun entry member =>
      targetColumn_chain (.inr rfl) (downloadLines.named entry member)) downloadShort⟩

def jumpEntry (chain : Chain) (bytes : Nat) : Entry := ⟨⟨[], .jump chain⟩, bytes⟩

/-- A chain in which other programs have rules before the jump of the daemon. -/
def jumpLines (chain : Chain) : List Char :=
  listedLine defaultGaps "77" (jumpEntry (.foreign "sqm") 77) ""
    (countingLine "90000" (listedLine defaultGaps "81230" (jumpEntry chain 81230) "" []))

theorem lines_jump {chain : Chain} (own : chain = .outgoing ∨ chain = .incoming) :
    Lines true [jumpEntry (.foreign "sqm") 77, jumpEntry chain 81230] (jumpLines chain) := by
  have others : ∀ name, Target.jump (.foreign "sqm") = .jump (.foreign name) →
      name ∉ reservedNames := by
    intro name equal
    cases equal
    decide
  refine .cons (line_listedLine "77" "" _ ?_ ?_ ?_ ?_ ?_ others)
    (.untargeted rfl (untargetedLine_countingLine _ ?_ ?_ ?_)
      (.cons (line_listedLine "81230" "" [] ?_ ?_ ?_ ?_ ?_ ?_) .nil))
  rotate_right
  · rcases own with rfl | rfl <;> nofun
  all_goals rcases own with rfl | rfl <;> decide +kernel

theorem totals_read_from_listings_default :
    iptablesFwTotalUpload (some (headed (jumpLines .outgoing))) = some 81230 ∧
      iptablesFwTotalDownload (some (headed (jumpLines .incoming))) = some 81230 :=
  totals_read_from_listings (lists_headed (lines_jump (.inl rfl)))
    (lists_headed (lines_jump (.inr rfl)))

end Nodogsplash
