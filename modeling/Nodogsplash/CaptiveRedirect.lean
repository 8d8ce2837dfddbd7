import Nodogsplash.EtherAddress
import Nodogsplash.OriginalUrl
import Nodogsplash.RequestAuthorization
import Nodogsplash.SimplifiedPaths

/-! # The captive redirect

A client that asks for a foreign host is sent to the splash page. It is shown when the
user agent asks for it under the names that the gateway compares. -/

namespace Nodogsplash

open LexicalPath QueryText

/-! ## The names of the server -/

/-- What `main_loop` names the web server after. The characters are those of host
names and of addresses. -/
structure ServerName where
  ip6 : Bool
  gwIp : String
  gwDomain : Option String
  gwPort : Nat
  plainIp : ∀ char ∈ gwIp.toList, isUnreserved char = true ∨ ip6 = true ∧ char = ':'
  plainDomain : ∀ domain ∈ gwDomain, ∀ char ∈ domain.toList, isUnreserved char = true

namespace ServerName

/-- `gw_http_name`. -/
def gwHttpName (server : ServerName) : String :=
  match server.gwDomain with
  | none =>
      if server.gwPort = 80 then
        if server.ip6 then s!"[{server.gwIp}]" else s!"{server.gwIp}"
      else if server.ip6 then s!"[{server.gwIp}]:{server.gwPort}"
      else s!"{server.gwIp}:{server.gwPort}"
  | some domain =>
      if server.gwPort = 80 then s!"{domain}" else s!"{domain}:{server.gwPort}"

/-- `gw_http_name_port`. -/
def gwHttpNamePort (server : ServerName) : String :=
  match server.gwDomain with
  | none =>
      if server.ip6 then s!"[{server.gwIp}]:{server.gwPort}"
      else s!"{server.gwIp}:{server.gwPort}"
  | some domain => s!"{domain}:{server.gwPort}"

/-- The configuration that `main_loop` completes. -/
structure Completes (server : ServerName) (config : Config) : Prop where
  ip6 : config.ip6 = server.ip6
  gwPort : config.gwPort = server.gwPort
  gwHttpName : config.gwHttpName = server.gwHttpName
  gwHttpNamePort : config.gwHttpNamePort = server.gwHttpNamePort

def hostName (server : ServerName) : List Char :=
  match server.gwDomain with
  | none => if server.ip6 then '[' :: (server.gwIp.toList ++ [']']) else server.gwIp.toList
  | some domain => domain.toList

def portText (server : ServerName) : List Char := (toString server.gwPort).toList

def LowerCase (server : ServerName) : Prop :=
  server.hostName.map Char.toLower = server.hostName

instance (server : ServerName) : Decidable server.LowerCase := by
  unfold LowerCase
  infer_instance

end ServerName

/-! ## The user agent -/

/-- A user agent spells the name of the header `Host` in some case. It may take the dot
segments out of a path and escape characters, which the server takes back. -/
structure UserAgent where
  field : String
  send : List Char → List Char
  named : sameIgnoringCase field "Host" = true
  sent : ∀ path, percentDecode hexValue (send path) = percentDecode hexValue path ∨
    percentDecode hexValue (send path) =
      percentDecode hexValue (removeDotSegments '/' '.' path)

/-- The `Host` for the authority of a URL: in lower case, without the port 80. -/
def requestedHost (authority : List Char) : List Char :=
  let lower := authority.map Char.toLower
  if [':', '8', '0'].isSuffixOf lower then lower.take (lower.length - 3) else lower

def urlAuthority (url : List Char) : List Char :=
  (url.drop 7).takeWhile fun char => !endsHost char

def urlPath (url : List Char) : List Char :=
  ((url.drop 7).dropWhile fun char => !endsHost char).takeWhile fun char =>
    decide (char ≠ '?') && decide (char ≠ '#')

def urlArguments (url : List Char) : List (String × Option String) :=
  (readTarget (url.takeWhile fun char => char ≠ '#')).2.map fun argument =>
    textArgument (mapArgument cString argument)

/-- What `Host` is in a request, whatever its case. -/
def Request.hostHeaders (request : Request) : List (String × Option String) :=
  request.headers.filter fun header => sameIgnoringCase header.1 "Host"

namespace UserAgent

def readPath (agent : UserAgent) (path : List Char) : String :=
  String.ofList (cString (percentDecode hexValue (agent.send path)))

structure Follows (agent : UserAgent) (target : List Char) (request next : Request) : Prop where
  method : next.method = "GET"
  ip : next.ip = request.ip
  neighbour : next.neighbour = request.neighbour
  host : next.hostHeaders =
    [(agent.field, some (String.ofList (requestedHost (urlAuthority target))))]
  url : next.url = agent.readPath (urlPath target)
  arguments : next.arguments = urlArguments target

end UserAgent

/-- libmicrohttpd refuses a header that has certain characters, none of them printable. -/
structure HeaderRule where
  refuses : Char → Bool
  printable : ∀ char, 33 ≤ char.toNat → char.toNat ≤ 126 → refuses char = false

def HeaderRule.accepts (rule : HeaderRule) (text : String) : Bool :=
  text.toList.all fun char => !rule.refuses char

/-! ## Convergence -/

/-- A preauthenticated client asks for a page of a foreign host. -/
structure Captured (agent : UserAgent) (server : ServerName) (gateway : Gateway)
    (request : Request) (host : String) : Prop where
  header : request.hostHeaders = [(agent.field, some host)]
  foreign : sameIgnoringCase host server.gwHttpName = false ∧
    sameIgnoringCase host server.gwHttpNamePort = false
  completes : server.Completes gateway.config
  preauthenticated : ∃ node found, gateway.requestClient request = (some node, found) ∧
    node.client.fwConnectionState ≠ found.marks.authenticated ∧
    node.client.fwConnectionState ≠ found.marks.trusted

/-- The client is redirected, and its next request is recognised as one for the splash
page, which is shown. -/
def Converges (rule : HeaderRule) (agent : UserAgent) (gateway : Gateway) (request : Request) :
    Prop :=
  ∃ target, (gateway.libmicrohttpdCb request).1.location rule.accepts = some target ∧
    ∀ next, agent.Follows target.toList request next →
      let waiting := (gateway.libmicrohttpdCb request).2
      (∃ host, next.host = some host ∧ isForeignHosts waiting.config (some host) = false) ∧
        isSplashpage waiting.config next.host (bufferPathSimplify next.url) = true ∧
        (waiting.libmicrohttpdCb next).1 = .splashpage

/-! ## The condition -/

def queryText (arguments : List (String × Option String)) : List Char :=
  if arguments = [] then []
  else '?' :: joinArguments (arguments.map fun argument =>
    (argument.1.toList, argument.2.map String.toList))

def encodedLength (text : List Char) : Nat :=
  (text.map fun char => if isUnreserved char then 1 else 3).sum

structure FitsBuffers (request : Request) (host : String) : Prop where
  query : (queryText request.arguments).length < queryMaxLen
  url : encodedLength (httpScheme ++ host.toList ++ (bufferPathSimplify request.url).toList ++
    queryText request.arguments) ≤ queryMaxLen

/-- Nothing in the name of a page has a meaning in a URL, and its segments are names. -/
structure PlainPage (page : List Char) : Prop where
  noQuery : '?' ∉ page
  noFragment : '#' ∉ page
  noNul : '\x00' ∉ page
  undecoded : percentDecode hexValue page = page
  clean : CleanPath page

def UserAgent.pageUrl (agent : UserAgent) (page : List Char) : String :=
  bufferPathSimplify (agent.readPath ('/' :: page.takeWhile fun char =>
    decide (char ≠ '?') && decide (char ≠ '#')))

/-- The page is found: it is the root, or it keeps its name and is not taken for the
authentication. -/
def UserAgent.Finds (agent : UserAgent) (config : Config) : Prop :=
  agent.pageUrl config.splashpage.toList ∈ ["", "/"] ∨
    PlainPage config.splashpage.toList ∧
      checkAuthdirMatch ("/" ++ config.splashpage) config.authdir = false

/-! ## Characters -/

theorem isAlphanum_iff (char : Char) :
    char.isAlphanum = true ↔ ((65 ≤ char.toNat ∧ char.toNat ≤ 90) ∨
      (97 ≤ char.toNat ∧ char.toNat ≤ 122)) ∨ (48 ≤ char.toNat ∧ char.toNat ≤ 57) := by
  have ranges : char.isAlphanum =
      (decide (65 ≤ char.toNat ∧ char.toNat ≤ 90) ||
        (decide (97 ≤ char.toNat) && decide (char.toNat ≤ 122)) ||
        (decide (48 ≤ char.toNat) && decide (char.toNat ≤ 57))) := rfl
  simp only [ranges, Bool.or_eq_true, Bool.and_eq_true, decide_eq_true_eq]

theorem isUnreserved_printable {char : Char} (unreserved : isUnreserved char = true) :
    33 ≤ char.toNat ∧ char.toNat ≤ 126 := by
  simp only [isUnreserved, Bool.or_eq_true, decide_eq_true_eq, isAlphanum_iff] at unreserved
  rcases unreserved with (((alphanumeric | rfl) | rfl) | rfl) | rfl
  · omega
  · decide
  · decide
  · decide
  · decide

def isNameChar (char : Char) : Bool := isUnreserved char || ['[', ':', ']'].contains char

theorem isNameChar_of_isUnreserved {char : Char} (unreserved : isUnreserved char = true) :
    isNameChar char = true := by
  rw [isNameChar, unreserved, Bool.true_or]

theorem isNameChar_facts {char : Char} (ofName : isNameChar char = true) :
    endsHost char = false ∧ 33 ≤ char.toNat ∧ char.toNat ≤ 126 := by
  rw [isNameChar, Bool.or_eq_true] at ofName
  rcases ofName with unreserved | special
  · refine ⟨?_, isUnreserved_printable unreserved⟩
    by_contra ends
    simp only [endsHost, Bool.not_eq_false, Bool.or_eq_true, decide_eq_true_eq] at ends
    rcases ends with (rfl | rfl) | rfl
    · exact absurd unreserved (by decide)
    · exact absurd unreserved (by decide)
    · exact absurd unreserved (by decide)
  · have all : ['[', ':', ']'].all (fun char =>
        !endsHost char && decide (33 ≤ char.toNat ∧ char.toNat ≤ 126)) = true := by decide
    have fact := List.all_eq_true.mp all char (List.contains_iff_mem.mp special)
    simpa using fact

/-! ## The host -/

/-- A part behind a character is what follows its last occurrence. -/
theorem rtakeWhile_append_cons {α : Type*} [DecidableEq α] {stop : α} (first : List α)
    {rest : List α} (plain : stop ∉ rest) :
    (first ++ stop :: rest).rtakeWhile (fun value => decide (value ≠ stop)) = rest := by
  have all : ∀ value ∈ rest.reverse, decide (value ≠ stop) = true := by
    intro value member
    rw [List.mem_reverse] at member
    exact decide_eq_true fun equal => plain (equal ▸ member)
  rw [List.rtakeWhile, List.reverse_append, List.reverse_cons, List.append_assoc,
    List.takeWhile_append_of_pos all]
  simp

namespace ServerName

variable (server : ServerName)

theorem gwHttpName_toList :
    server.gwHttpName.toList =
      server.hostName ++ if server.gwPort = 80 then [] else ':' :: server.portText := by
  have shown (text : String) : toString text = text := rfl
  rw [gwHttpName, hostName, portText]
  cases server.gwDomain with
  | none =>
      by_cases port : server.gwPort = 80
      · cases server.ip6 <;> simp [port, shown]
      · cases server.ip6 <;> simp [port, shown]
  | some domain =>
      by_cases port : server.gwPort = 80
      · simp [port, shown]
      · simp [port, shown]

theorem gwHttpNamePort_toList :
    server.gwHttpNamePort.toList = server.hostName ++ ':' :: server.portText := by
  have shown (text : String) : toString text = text := rfl
  rw [gwHttpNamePort, hostName, portText]
  cases server.gwDomain with
  | none => cases server.ip6 <;> simp [shown]
  | some domain => simp [shown]

theorem isDigit_portText : ∀ char ∈ server.portText, char.isDigit = true := by
  intro char member
  rw [portText, Nat.toString_eq_repr, Nat.toList_repr] at member
  exact Nat.isDigit_of_mem_toDigits (by decide) (by decide) member

theorem portText_lower : server.portText.map Char.toLower = server.portText :=
  List.map_congr_left (fun char member => toLower_of_isDigit (server.isDigit_portText char member))
    |>.trans (List.map_id _)

theorem colon_not_mem_portText : ':' ∉ server.portText := by
  intro member
  have digit := server.isDigit_portText ':' member
  revert digit
  decide

theorem portText_eq_iff : server.portText = ['8', '0'] ↔ server.gwPort = 80 := by
  rw [portText, Nat.toString_eq_repr, Nat.toList_repr]
  have read (port : Nat) := Nat.ofDigitChars_toDigits (b := 10) (n := port) (by decide) (by decide)
  constructor
  · intro eighty
    rw [← read server.gwPort, eighty]
    decide
  · intro port
    rw [port]
    decide

theorem isNameChar_hostName : ∀ char ∈ server.hostName, isNameChar char = true := by
  intro char member
  have inIp (inIp : char ∈ server.gwIp.toList) : isNameChar char = true := by
    rcases server.plainIp char inIp with plain | ⟨_, rfl⟩
    · exact isNameChar_of_isUnreserved plain
    · decide
  rw [hostName] at member
  cases domain : server.gwDomain with
  | none =>
      rw [domain] at member
      dsimp only at member
      split at member
      · rcases List.mem_cons.mp member with rfl | member
        · decide
        · rcases List.mem_append.mp member with member | last
          · exact inIp member
          · rw [List.mem_singleton.mp last]
            decide
      · exact inIp member
  | some name =>
      rw [domain] at member
      exact isNameChar_of_isUnreserved (server.plainDomain name domain char member)

theorem isNameChar_gwHttpName : ∀ char ∈ server.gwHttpName.toList, isNameChar char = true := by
  intro char member
  rw [server.gwHttpName_toList, List.mem_append] at member
  rcases member with inName | inPort
  · exact server.isNameChar_hostName char inName
  · split at inPort
    · cases inPort
    · rcases List.mem_cons.mp inPort with rfl | inText
      · decide
      · have digit := (isDigit_iff char).mp (server.isDigit_portText char inText)
        have alphanumeric := (isAlphanum_iff char).mpr (.inr digit)
        exact isNameChar_of_isUnreserved (by simp [isUnreserved, alphanumeric])

theorem hostName_noPort : ¬ [':', '8', '0'] <:+ server.hostName.map Char.toLower := by
  intro port
  have withoutColon {name : List Char} (plain : ∀ char ∈ name, isUnreserved char = true) :
      ¬ [':', '8', '0'] <:+ name.map Char.toLower := by
    intro port
    rcases List.mem_map.mp (port.subset List.mem_cons_self) with ⟨char, member, lower⟩
    have unreserved := plain char member
    rw [(toLower_eq_colon_iff char).mp lower] at unreserved
    exact absurd unreserved (by decide)
  rw [hostName] at port
  cases domain : server.gwDomain with
  | none =>
      rw [domain] at port
      dsimp only at port
      split at port
      · rcases port with ⟨before, equal⟩
        have last := congrArg List.getLast? equal
        have bracket : Char.toLower ']' = ']' := by decide
        rw [List.map_cons, List.map_append, List.map_singleton, bracket, ← List.cons_append,
          List.getLast?_concat, List.getLast?_append] at last
        cases last
      · next plain =>
          refine withoutColon (fun char member => ?_) port
          exact (server.plainIp char member).resolve_right fun colon => plain colon.1
  | some name =>
      rw [domain] at port
      exact withoutColon (server.plainDomain name domain) port

theorem requestedHost_gwHttpName :
    requestedHost server.gwHttpName.toList =
      server.hostName.map Char.toLower ++
        if server.gwPort = 80 then [] else ':' :: server.portText := by
  have lower : server.gwHttpName.toList.map Char.toLower =
      server.hostName.map Char.toLower ++
        if server.gwPort = 80 then [] else ':' :: server.portText := by
    rw [gwHttpName_toList, List.map_append]
    split
    · rfl
    · rw [List.map_cons, portText_lower]
      rfl
  have noPort : ¬ [':', '8', '0'] <:+ server.gwHttpName.toList.map Char.toLower := by
    rw [lower]
    split
    · rw [List.append_nil]
      exact server.hostName_noPort
    · next other =>
        rintro ⟨before, equal⟩
        have ports := congrArg (List.rtakeWhile fun char => decide (char ≠ ':')) equal
        rw [rtakeWhile_append_cons _ server.colon_not_mem_portText,
          rtakeWhile_append_cons _ (by decide)] at ports
        exact other (server.portText_eq_iff.mp ports.symm)
  rw [requestedHost, if_neg (by rwa [List.isSuffixOf_iff_suffix]), lower]

theorem ours_iff {config : Config} (completes : server.Completes config) :
    isForeignHosts config (some (String.ofList (requestedHost server.gwHttpName.toList))) = false ↔
      server.LowerCase := by
  have same (text : String) (host : List Char) :
      String.ofList host = text ↔ host = text.toList := by
    rw [← String.toList_inj, String.toList_ofList]
  rw [isForeignHosts, completes.gwHttpName, completes.gwHttpNamePort, LowerCase,
    Bool.not_eq_false', Bool.or_eq_true, decide_eq_true_iff, decide_eq_true_iff, same, same,
    requestedHost_gwHttpName, gwHttpName_toList, gwHttpNamePort_toList, List.append_cancel_right_eq]
  refine ⟨fun ours => ?_, .inl⟩
  rcases ours with equal | withPort
  · exact equal
  · split at withPort
    · have lengths := congrArg List.length withPort
      simp at lengths
    · exact List.append_cancel_right withPort

end ServerName

/-! ## The page -/

theorem percentDecode_slash (path : List Char) :
    percentDecode hexValue ('/' :: path) = '/' :: percentDecode hexValue path := by
  rw [percentDecode]
  intro high low rest percent
  cases percent

theorem cString_eq_self_iff (text : List Char) : cString text = text ↔ '\x00' ∉ text := by
  rw [cString, List.takeWhile_eq_self_iff]
  simp only [decide_eq_true_eq]
  exact ⟨fun all member => all _ member rfl, fun plain char member equal =>
    plain (equal ▸ member)⟩

/-- What stops before a query or a fragment is all of the text just if it has none. -/
theorem takeWhile_path_eq_self_iff (text : List Char) :
    (text.takeWhile fun char => decide (char ≠ '?') && decide (char ≠ '#')) = text ↔
      '?' ∉ text ∧ '#' ∉ text := by
  rw [List.takeWhile_eq_self_iff]
  simp only [Bool.and_eq_true, decide_eq_true_eq]
  constructor
  · intro all
    exact ⟨fun member => (all _ member).1 rfl, fun member => (all _ member).2 rfl⟩
  · rintro ⟨query, fragment⟩ char member
    exact ⟨fun equal => query (equal ▸ member), fun equal => fragment (equal ▸ member)⟩

theorem UserAgent.readPath_of_length (agent : UserAgent) {path : List Char}
    (whole : path.length + 1 ≤ (agent.readPath ('/' :: path)).length) :
    agent.readPath ('/' :: path) = String.ofList ('/' :: path) ∧
      percentDecode hexValue path = path ∧ '\x00' ∉ path := by
  -- whatever the agent sends, it is not longer, so that nothing was decoded or cut off
  have read {sent : List Char} (shorter : sent.length ≤ path.length + 1)
      (same : percentDecode hexValue (agent.send ('/' :: path)) = percentDecode hexValue sent) :
      sent.length = path.length + 1 ∧ agent.readPath ('/' :: path) = String.ofList sent ∧
        percentDecode hexValue sent = sent ∧ '\x00' ∉ sent := by
    rw [readPath, same, String.length_ofList] at whole
    have cut := length_cString_le (percentDecode hexValue sent)
    have decoded := length_percentDecode_le hexValue sent
    have undecoded : percentDecode hexValue sent = sent := percentDecode_eq_self hexValue (by omega)
    rw [undecoded] at whole cut
    have uncut : cString sent = sent := cString_eq_self (by omega)
    refine ⟨by omega, ?_, undecoded, (cString_eq_self_iff sent).mp uncut⟩
    rw [readPath, same, undecoded, uncut]
  have raw : agent.readPath ('/' :: path) = String.ofList ('/' :: path) ∧
      percentDecode hexValue ('/' :: path) = '/' :: path ∧ '\x00' ∉ '/' :: path := by
    rcases agent.sent ('/' :: path) with same | same
    · exact (read Nat.le.refl same).2
    · rcases removeDotSegments_cases '/' '.' path with
        ⟨_, unchanged⟩ | ⟨_, shorter⟩
      · rw [unchanged] at same
        exact (read Nat.le.refl same).2
      · have length := (read (Nat.le_of_lt shorter) same).1
        omega
  rcases raw with ⟨same, undecoded, noNul⟩
  rw [percentDecode_slash] at undecoded
  exact ⟨same, List.tail_eq_of_cons_eq undecoded,
    fun member => noNul (List.mem_cons_of_mem _ member)⟩

namespace UserAgent

variable (agent : UserAgent) {page : List Char}

theorem pageUrl_of_plain (plain : PlainPage page) :
    agent.pageUrl page = String.ofList ('/' :: page) := by
  have raw : percentDecode hexValue (agent.send ('/' :: page)) = '/' :: page := by
    have unchanged := removeDotSegments_of_noDots '/' '.' plain.clean.1
    rcases agent.sent ('/' :: page) with same | same
    · rw [same, percentDecode_slash, plain.undecoded]
    · rw [same, unchanged, percentDecode_slash, plain.undecoded]
  have uncut : cString ('/' :: page) = '/' :: page :=
    (cString_eq_self_iff _).mpr (by simpa using plain.noNul)
  rw [pageUrl, (takeWhile_path_eq_self_iff page).mpr ⟨plain.noQuery, plain.noFragment⟩, readPath,
    raw, uncut]
  rcases bufferPathSimplify_cases page with ⟨_, same⟩ | ⟨dirty, _⟩
  · exact same
  · exact absurd plain.clean dirty

/-- The name is compared without its first character; it is not shorter. -/
theorem plain_of_pageUrl (named : page = (agent.pageUrl page).toList.drop 1)
    (nonempty : agent.pageUrl page ≠ "") : PlainPage page := by
  have whole : page.length + 1 = (agent.pageUrl page).length := by
    have positive : (agent.pageUrl page).length ≠ 0 := by
      rwa [Ne, String.length_eq_zero_iff]
    have dropped := congrArg List.length named
    rw [List.length_drop, String.length_toList] at dropped
    omega
  rw [pageUrl] at whole
  have simplified := length_bufferPathSimplify_le (agent.readPath ('/' :: page.takeWhile fun char =>
    decide (char ≠ '?') && decide (char ≠ '#')))
  have taken := (List.takeWhile_prefix (l := page)
    fun char => decide (char ≠ '?') && decide (char ≠ '#'))
  have shorter := taken.length_le
  have long : (page.takeWhile fun char => decide (char ≠ '?') && decide (char ≠ '#')).length + 1 ≤
      (agent.readPath ('/' :: page.takeWhile fun char =>
        decide (char ≠ '?') && decide (char ≠ '#'))).length := by
    omega
  rcases agent.readPath_of_length long with ⟨read, undecoded, noNul⟩
  rw [read, String.length_ofList, List.length_cons] at simplified
  rw [read] at whole
  have same := taken.eq_of_length (by omega)
  rw [same] at whole undecoded noNul
  rcases (takeWhile_path_eq_self_iff page).mp same with ⟨noQuery, noFragment⟩
  refine ⟨noQuery, noFragment, noNul, undecoded, ?_⟩
  rcases bufferPathSimplify_cases page with ⟨clean, _⟩ | ⟨_, removed⟩
  · exact clean
  · omega

end UserAgent

/-! ## The target -/

theorem urlencodeLoop_isSome_iff (room : Nat) (text : List Char) :
    (urlencodeLoop room text).isSome = true ↔ encodedLength text ≤ room := by
  induction text generalizing room with
  | nil => simp [urlencodeLoop, encodedLength]
  | cons char rest induction =>
      have length : encodedLength (char :: rest) =
          (if isUnreserved char then 1 else 3) + encodedLength rest := rfl
      rw [urlencodeLoop, length]
      by_cases empty : room = 0
      · rw [if_pos empty, Option.isSome_none]
        split <;> simp <;> omega
      · rw [if_neg empty]
        by_cases unreserved : isUnreserved char = true
        · rw [if_pos unreserved, if_pos unreserved, Option.isSome_map, induction]
          omega
        · rw [if_neg unreserved, if_neg unreserved]
          by_cases enough : 3 ≤ room
          · rw [if_pos enough, Option.isSome_map, induction]
            omega
          · rw [if_neg enough, Option.isSome_none]
            simp
            omega

theorem hexDigit_printable {value : Nat} (small : value < 16) :
    33 ≤ (hexDigit value).toNat ∧ (hexDigit value).toNat ≤ 126 := by
  interval_cases value <;> decide

theorem urlencodeLoop_printable {room : Nat} {text encoded : List Char}
    (written : urlencodeLoop room text = some encoded) :
    ∀ char ∈ encoded, 33 ≤ char.toNat ∧ char.toNat ≤ 126 := by
  induction text generalizing room encoded with
  | nil =>
      cases written
      exact fun _ none => nomatch none
  | cons char rest induction =>
      rw [urlencodeLoop] at written
      split at written
      · cases written
      · split at written
        · next unreserved =>
            rcases Option.map_eq_some_iff.mp written with ⟨tail, tailWritten, rfl⟩
            exact List.forall_mem_cons.mpr
              ⟨isUnreserved_printable unreserved, induction tailWritten⟩
        · split at written
          · rcases Option.map_eq_some_iff.mp written with ⟨tail, tailWritten, rfl⟩
            have high := hexDigit_printable (show char.toNat / 16 % 16 < 16 by omega)
            have low := hexDigit_printable (show char.toNat % 16 < 16 by omega)
            exact List.forall_mem_cons.mpr ⟨by decide, List.forall_mem_cons.mpr ⟨high,
              List.forall_mem_cons.mpr ⟨low, induction tailWritten⟩⟩⟩
          · cases written

/-! ## What fits -/

theorem getQueryCallback_cases {query : String} (room : query.length < queryMaxLen)
    (argument : String × Option String) :
    let length := (printArgument (argument.1.toList, argument.2.map String.toList)).length + 1
    (query.length + length < queryMaxLen ∧ ∃ next, getQueryCallback query argument = some next ∧
      next.length = query.length + length) ∨
    (queryMaxLen ≤ query.length + length ∧ getQueryCallback query argument = none) := by
  have separator : ((if query.isEmpty then "?" else "&") : String).length = 1 := by
    split <;> rfl
  have equals : "=".length = 1 := rfl
  rcases argument with ⟨key, none | value⟩
  · simp only [getQueryCallback, Option.map_none, printArgument, String.length_append, separator,
      String.length_toList]
    split
    · exact .inr ⟨by omega, rfl⟩
    · refine .inl ⟨by omega, _, rfl, ?_⟩
      rw [String.length_append, String.length_append, separator]
      omega
  · simp only [getQueryCallback, Option.map_some, printArgument, String.length_append, separator,
      equals, List.length_append, List.length_cons, String.length_toList]
    split
    · exact .inr ⟨by omega, rfl⟩
    · refine .inl ⟨by omega, _, rfl, ?_⟩
      simp only [String.length_append, separator, equals]
      omega

theorem foldlM_getQueryCallback_isSome_iff {query : String} (room : query.length < queryMaxLen)
    (arguments : List (String × Option String)) :
    (arguments.foldlM getQueryCallback query).isSome = true ↔
      query.length + total (arguments.map fun argument =>
        printArgument (argument.1.toList, argument.2.map String.toList)) < queryMaxLen := by
  induction arguments generalizing query with
  | nil => exact iff_of_true rfl room
  | cons argument arguments induction =>
      rw [List.foldlM_cons, List.map_cons, total, List.map_cons, List.sum_cons, ← total]
      rcases getQueryCallback_cases room argument with ⟨fits, next, added, length⟩ | ⟨full, none⟩
      · have nextRoom : next.length < queryMaxLen := by omega
        rw [added, Option.bind_eq_bind, Option.bind_some, induction nextRoom, length, Nat.add_assoc]
      · rw [none, Option.bind_eq_bind, Option.bind_none, Option.isSome_none]
        simp
        omega

theorem collected_isSome_iff (arguments : List (String × Option String)) :
    (arguments.foldlM getQueryCallback "").isSome = true ↔
      (queryText arguments).length < queryMaxLen := by
  have empty : "".length = 0 := rfl
  rw [foldlM_getQueryCallback_isSome_iff (by decide), empty, Nat.zero_add, queryText]
  split
  · next none =>
      rw [none]
      rfl
  · next some =>
      rw [List.length_cons, joinArguments, length_intercalate (by simpa using some), List.map_map]
      rfl

theorem toList_httpScheme : "http://".toList = httpScheme := by decide

def splashTarget (config : Config) (encoded : List Char) : List Char :=
  httpScheme ++ config.gwHttpName.toList ++
    '/' :: (config.splashpage.toList ++ "?redir=".toList ++ encoded)

theorem redirectToSplashpage_cases (config : Config) (request : Request) (host : String) :
    (FitsBuffers request host ∧ ∃ encoded : List Char,
      (∀ char ∈ encoded, 33 ≤ char.toNat ∧ char.toNat ≤ 126) ∧
      redirectToSplashpage config request host (bufferPathSimplify request.url) =
        .redirect (String.ofList (splashTarget config encoded))) ∨
    (¬ FitsBuffers request host ∧
      redirectToSplashpage config request host (bufferPathSimplify request.url) = .error 503) := by
  rw [redirectToSplashpage]
  have collected := collected_isSome_iff request.arguments
  cases shape : request.arguments.foldlM getQueryCallback "" with
  | none =>
      rw [shape] at collected
      exact .inr ⟨fun fits => Bool.false_ne_true (collected.mpr fits.query), rfl⟩
  | some query =>
      rw [shape] at collected
      have text : query.toList = queryText request.arguments := collectedQuery_eq shape
      have origin : s!"http://{host}{bufferPathSimplify request.url}{query}".toList =
          httpScheme ++ host.toList ++ (bufferPathSimplify request.url).toList ++
            queryText request.arguments := by
        have shown : s!"http://{host}{bufferPathSimplify request.url}{query}" =
            "http://" ++ host ++ bufferPathSimplify request.url ++ query := rfl
        rw [shown, String.toList_append, String.toList_append, String.toList_append, text,
          toList_httpScheme]
      have encodes := urlencodeLoop_isSome_iff queryMaxLen
        s!"http://{host}{bufferPathSimplify request.url}{query}".toList
      dsimp only
      rw [encodeAndRedirectToSplashpage, Option.getD_some, uhUrlencode]
      cases written : urlencodeLoop queryMaxLen
          s!"http://{host}{bufferPathSimplify request.url}{query}".toList with
      | none =>
          rw [written, origin] at encodes
          exact .inr ⟨fun fits => Bool.false_ne_true (encodes.mpr fits.url), rfl⟩
      | some encoded =>
          rw [written, origin] at encodes
          refine .inl ⟨⟨collected.mp rfl, encodes.mp rfl⟩, encoded,
            urlencodeLoop_printable written, ?_⟩
          have slash : "/".toList = ['/'] := rfl
          have shown : String.ofList (splashTarget config encoded) =
              "http://" ++ config.gwHttpName ++ "/" ++ config.splashpage ++ "?redir=" ++
                String.ofList encoded := by
            rw [← String.toList_inj, String.toList_ofList, splashTarget]
            simp only [String.toList_append, String.toList_ofList, toList_httpScheme, slash,
              List.append_assoc, List.cons_append, List.nil_append]
          rw [shown]
          rfl

section

variable {server : ServerName} {config : Config}

theorem read_splashTarget (completes : server.Completes config) (encoded : List Char) :
    urlAuthority (splashTarget config encoded) = server.gwHttpName.toList ∧
      urlPath (splashTarget config encoded) =
        '/' :: config.splashpage.toList.takeWhile fun char =>
          decide (char ≠ '?') && decide (char ≠ '#') := by
  have inName : ∀ char ∈ config.gwHttpName.toList, (!endsHost char) = true := by
    intro char member
    rw [completes.gwHttpName] at member
    rw [(isNameChar_facts (server.isNameChar_gwHttpName char member)).1]
    rfl
  have query : "?redir=".toList = ['?', 'r', 'e', 'd', 'i', 'r', '='] := by decide
  have rest : (splashTarget config encoded).drop 7 = config.gwHttpName.toList ++
      '/' :: (config.splashpage.toList ++ "?redir=".toList ++ encoded) := rfl
  rw [urlAuthority, urlPath, rest, ← completes.gwHttpName]
  constructor
  · rw [List.takeWhile_append_of_pos inName]
    simp [endsHost]
  · have stops : ("?redir=".toList ++ encoded).takeWhile (fun char =>
        decide (char ≠ '?') && decide (char ≠ '#')) = [] := by
      rw [query]
      rfl
    rw [List.dropWhile_append_of_pos inName, List.append_assoc]
    have slash : (!endsHost '/') = false := rfl
    rw [List.dropWhile_cons_of_neg (by simp [slash]), List.takeWhile_cons_of_pos (by decide),
      takeWhile_append_of_stop _ stops]

theorem accepts_splashTarget (completes : server.Completes config) (rule : HeaderRule)
    {encoded : List Char}
    (printable : ∀ char ∈ encoded, 33 ≤ char.toNat ∧ char.toNat ≤ 126) :
    rule.accepts (String.ofList (splashTarget config encoded)) = true ↔
      ∀ char ∈ config.splashpage.toList, rule.refuses char = false := by
  have schemePrints : (httpScheme ++ '/' :: "?redir=".toList).all (fun char =>
      decide (33 ≤ char.toNat ∧ char.toNat ≤ 126)) = true := by
    decide
  have fixed : ∀ char ∈ httpScheme ++ '/' :: "?redir=".toList, rule.refuses char = false := by
    intro char member
    have prints := of_decide_eq_true (List.all_eq_true.mp schemePrints char member)
    exact rule.printable char prints.1 prints.2
  rw [HeaderRule.accepts, String.toList_ofList, List.all_eq_true]
  simp only [Bool.not_eq_true', splashTarget]
  constructor
  · intro all char member
    refine all char ?_
    simp [member]
  · intro page char member
    rw [List.mem_append, List.mem_append, List.mem_cons, List.mem_append, List.mem_append] at member
    rcases member with (inScheme | inName) | rfl | (inPage | inKey) | inText
    · exact fixed char (List.mem_append_left _ inScheme)
    · rw [completes.gwHttpName] at inName
      have prints := (isNameChar_facts (server.isNameChar_gwHttpName char inName)).2
      exact rule.printable char prints.1 prints.2
    · exact fixed '/' (List.mem_append_right _ List.mem_cons_self)
    · exact page char inPage
    · exact fixed char (List.mem_append_right _ (List.mem_cons_of_mem _ inKey))
    · exact rule.printable char (printable char inText).1 (printable char inText).2

end

/-! ## The requests -/

theorem Request.host_of_hostHeaders {request : Request} {field : String} {value : Option String}
    (headers : request.hostHeaders = [(field, value)]) :
    request.host = if field = "Host" then value else none := by
  have named {header : String × Option String} (member : header ∈ request.headers)
      (spelled : header.1 = "Host") : header = (field, value) := by
    have inHosts : header ∈ request.hostHeaders := by
      rw [hostHeaders, List.mem_filter, spelled]
      exact ⟨member, sameIgnoringCase_refl _⟩
    rw [headers] at inHosts
    exact List.mem_singleton.mp inHosts
  have present : (field, value) ∈ request.headers := by
    have inHosts : (field, value) ∈ request.hostHeaders := by
      rw [headers]
      exact List.mem_singleton_self _
    exact (List.mem_filter.mp inHosts).1
  rw [host]
  cases found : request.headers.find? fun header => decide (header.1 = "Host") with
  | none =>
      have other := List.find?_eq_none.mp found _ present
      rw [if_neg (by simpa using other)]
      rfl
  | some header =>
      have spelled : header.1 = "Host" := by simpa using List.find?_some found
      have same := named (List.mem_of_find?_eq_some found) spelled
      rw [same] at spelled ⊢
      rw [if_pos spelled]
      rfl

theorem ClientList.find_push {list : ClientList} {mac ip : String} {client : Client}
    (absent : list.find mac ip = none) (sameMac : client.mac = mac) (sameIp : client.ip = ip) :
    (list.push client).find mac ip = some ⟨list.created, client⟩ := by
  rw [find] at absent ⊢
  rw [push, List.find?_append, absent, Option.none_or, List.find?_singleton, sameMac, sameIp]
  simp

namespace Gateway

theorem requestClient_again {gateway found : Gateway} {request next : Request} {node : Node}
    (client : gateway.requestClient request = (some node, found)) (method : next.method = "GET")
    (ip : next.ip = request.ip) (neighbour : next.neighbour = request.neighbour) :
    found.requestClient next = (some node, found) := by
  have mac : next.mac = request.mac := by
    rw [Request.mac, Request.mac, neighbour]
  rw [requestClient] at client ⊢
  rw [if_neg (not_not.mpr method), ip, mac]
  split at client
  · cases client
  · split at client
    · rename_i ip mac requestIp requestMac
      split at client
      · rename_i present lookup
        cases client
        rw [lookup]
      · rename_i absent
        rcases gateway.clientListAddClient_cases mac ip with
          ⟨_, present, _⟩ | ⟨_, _, _, _, _, appended, added⟩ | refused
        · rw [absent] at present
          cases present
        · rw [client] at added
          cases added
          rcases clientListAppend_eq appended with ⟨_, rfl, rfl⟩
          have pushed : (gateway.clients.push (gateway.newClient mac ip
              gateway.drawToken.1)).find mac ip = some _ := ClientList.find_push absent rfl rfl
          dsimp only
          rw [pushed]
        · rw [client] at refused
          cases refused
    · cases client

theorem libmicrohttpdCb_authdir {gateway found : Gateway} {request : Request} {node : Node}
    (client : gateway.requestClient request = (some node, found))
    (preauthenticatedClient : ¬ (node.client.fwConnectionState = found.marks.authenticated ∨
      node.client.fwConnectionState = found.marks.trusted))
    (ours : isForeignHosts found.config request.host = false)
    (authdir : checkAuthdirMatch (bufferPathSimplify request.url) found.config.authdir = true) :
    (gateway.libmicrohttpdCb request).1 ≠ .splashpage := by
  have redirected (url : Option String) :
      encodeAndRedirectToSplashpage found.config url ≠ .splashpage := by
    rw [encodeAndRedirectToSplashpage]
    split <;> (intro equal; cases equal)
  have answered (url : Option String) : authenticatedResponse url ≠ .splashpage := by
    cases url <;> (intro equal; cases equal)
  rw [libmicrohttpdCb, client]
  dsimp only
  rw [route, if_neg preauthenticatedClient, preauthenticated, ours, if_neg Bool.false_ne_true,
    if_pos authdir]
  dsimp only
  -- the token is bad, BinAuth refuses, or the client is authenticated
  by_cases token : tryToAuthenticate found.config request node.client
      (bufferPathSimplify request.url) = true
  · rw [if_pos token, authenticateClient]
    cases found.config.binauth with
    | none =>
        dsimp only
        split
        · intro equal
          cases equal
        · exact answered _
    | some binauth =>
        dsimp only
        cases doBinauth request binauth node.client ⟨toInt32 (60 * found.config.sessionTimeout),
          0, 0⟩ with
        | none => exact redirected _
        | some limits =>
            dsimp only
            split
            · intro equal
              cases equal
            · exact answered _
  · rw [if_neg token]
    exact redirected _

theorem libmicrohttpdCb_splashpage_iff {gateway found : Gateway} {request : Request} {node : Node}
    (client : gateway.requestClient request = (some node, found))
    (preauthenticatedClient : ¬ (node.client.fwConnectionState = found.marks.authenticated ∨
      node.client.fwConnectionState = found.marks.trusted))
    (ours : isForeignHosts found.config request.host = false) :
    (gateway.libmicrohttpdCb request).1 = .splashpage ↔
      checkAuthdirMatch (bufferPathSimplify request.url) found.config.authdir = false ∧
        isSplashpage found.config request.host (bufferPathSimplify request.url) = true := by
  cases authdir : checkAuthdirMatch (bufferPathSimplify request.url) found.config.authdir with
  | true =>
      have other := libmicrohttpdCb_authdir client preauthenticatedClient ours authdir
      exact iff_of_false other fun splash => Bool.noConfusion splash.1
  | false =>
      have routed : found.route request node.client =
          .respond (if isSplashpage found.config request.host (bufferPathSimplify request.url)
            then .splashpage else .file (bufferPathSimplify request.url)) := by
        rw [route, if_neg preauthenticatedClient, preauthenticated, ours,
          if_neg Bool.false_ne_true, authdir, if_neg Bool.false_ne_true]
        split <;> rfl
      rw [libmicrohttpdCb_respond client routed]
      dsimp only
      split
      · next splash => exact iff_of_true rfl ⟨rfl, splash⟩
      · next other =>
          refine iff_of_false (fun equal => ?_) fun splash => other splash.2
          cases equal

end Gateway

/-! ## The splash page -/

theorem checkAuthdirMatch_root (authdir : String) :
    checkAuthdirMatch "" authdir = false ∧ checkAuthdirMatch "/" authdir = false := by
  have empty : "".length = 0 := rfl
  have slash : "/".length = 1 := rfl
  simp only [checkAuthdirMatch, empty, slash, Bool.and_eq_false_iff, decide_eq_false_iff_not]
  omega

theorem UserAgent.finds_iff (agent : UserAgent) {config : Config} {host : String}
    (ours : isForeignHosts config (some host) = false) :
    agent.Finds config ↔
      checkAuthdirMatch (agent.pageUrl config.splashpage.toList) config.authdir = false ∧
        isSplashpage config (some host) (agent.pageUrl config.splashpage.toList) = true := by
  have named : isSplashpage config (some host) (agent.pageUrl config.splashpage.toList) = true ↔
      agent.pageUrl config.splashpage.toList ∈ ["", "/"] ∨
        config.splashpage.toList =
          (agent.pageUrl config.splashpage.toList).toList.drop 1 := by
    rw [isSplashpage, ours]
    simp only [Bool.not_false, Bool.true_and, Bool.or_eq_true, String.isEmpty_iff,
      decide_eq_true_eq, List.mem_cons, List.not_mem_nil, or_false]
  have plainUrl (plain : PlainPage config.splashpage.toList) :
      agent.pageUrl config.splashpage.toList = "/" ++ config.splashpage := by
    have slash : "/".toList = ['/'] := rfl
    rw [agent.pageUrl_of_plain plain, ← String.toList_inj, String.toList_ofList,
      String.toList_append, slash, List.singleton_append]
  rw [Finds, named]
  constructor
  · rintro (root | ⟨plain, notAuthdir⟩)
    · refine ⟨?_, .inl root⟩
      rw [List.mem_cons, List.mem_singleton] at root
      rcases root with empty | slash
      · rw [empty]
        exact (checkAuthdirMatch_root _).1
      · rw [slash]
        exact (checkAuthdirMatch_root _).2
    · rw [plainUrl plain]
      exact ⟨notAuthdir, .inr (by simp)⟩
  · rintro ⟨notAuthdir, root | same⟩
    · exact .inl root
    · by_cases empty : agent.pageUrl config.splashpage.toList = ""
      · exact .inl (by rw [empty]; exact List.mem_cons_self)
      · have plain := agent.plain_of_pageUrl same empty
        rw [plainUrl plain] at notAuthdir
        exact .inr ⟨plain, notAuthdir⟩

def UserAgent.next (agent : UserAgent) (target : List Char) (request : Request) : Request :=
  { request with
    method := "GET"
    url := agent.readPath (urlPath target)
    arguments := urlArguments target
    headers := [(agent.field, some (String.ofList (requestedHost (urlAuthority target))))] }

theorem UserAgent.follows_next (agent : UserAgent) (target : List Char) (request : Request) :
    agent.Follows target request (agent.next target request) where
  method := rfl
  ip := rfl
  neighbour := rfl
  host := by
    simp only [Request.hostHeaders, next, List.filter_cons, agent.named, if_true, List.filter_nil]
  url := rfl
  arguments := rfl

/-- When the redirect leads to the splash page. -/
structure LeadsToSplashpage (rule : HeaderRule) (agent : UserAgent) (server : ServerName)
    (config : Config) (request : Request) (host : String) : Prop where
  spelled : agent.field = "Host"
  fits : FitsBuffers request host
  accepted : ∀ char ∈ config.splashpage.toList, rule.refuses char = false
  lowerCase : server.LowerCase
  found : agent.Finds config

theorem Captured.answer {agent : UserAgent} {server : ServerName} {gateway found : Gateway}
    {request : Request} {host : String} {node : Node}
    (captured : Captured agent server gateway request host)
    (client : gateway.requestClient request = (some node, found))
    (notAuthenticated : node.client.fwConnectionState ≠ found.marks.authenticated)
    (notTrusted : node.client.fwConnectionState ≠ found.marks.trusted)
    (spelled : agent.field = "Host") :
    gateway.libmicrohttpdCb request =
      (redirectToSplashpage gateway.config request host (bufferPathSimplify request.url),
        found) := by
  have config : found.config = gateway.config := by
    have kept := (gateway.requestClient_keeps request).1
    rwa [client] at kept
  have named : request.host = some host := by
    rw [Request.host_of_hostHeaders captured.header, if_pos spelled]
  have differs {name : String} (foreign : sameIgnoringCase host name = false) : host ≠ name := by
    rintro rfl
    rw [sameIgnoringCase_refl] at foreign
    cases foreign
  have foreign : isForeignHosts found.config request.host = true := by
    rw [named, isForeignHosts, config, captured.completes.gwHttpName,
      captured.completes.gwHttpNamePort]
    simp [differs captured.foreign.1, differs captured.foreign.2]
  rw [Gateway.libmicrohttpdCb_foreign client notAuthenticated notTrusted foreign, named, config]
  rfl

theorem UserAgent.Follows.read {agent : UserAgent} {server : ServerName} {config : Config}
    {request next : Request} {encoded : List Char} (completes : server.Completes config)
    (follows : agent.Follows (splashTarget config encoded) request next) :
    next.host = (if agent.field = "Host" then
        some (String.ofList (requestedHost server.gwHttpName.toList)) else none) ∧
      bufferPathSimplify next.url = agent.pageUrl config.splashpage.toList := by
  rcases read_splashTarget completes encoded with ⟨authority, path⟩
  constructor
  · rw [Request.host_of_hostHeaders follows.host, authority]
  · rw [follows.url, path, pageUrl]

/-- The captive redirect converges just if the user agent spells `Host` as it is compared,
the texts fit, and neither the name of the server nor that of the page is changed on the
way. -/
theorem captive_redirect_converges_iff {rule : HeaderRule} {agent : UserAgent}
    {server : ServerName} {gateway : Gateway} {request : Request} {host : String}
    (captured : Captured agent server gateway request host) :
    Converges rule agent gateway request ↔
      LeadsToSplashpage rule agent server gateway.config request host := by
  rcases captured.preauthenticated with ⟨node, found, client, notAuthenticated, notTrusted⟩
  have config : found.config = gateway.config := by
    have kept := (gateway.requestClient_keeps request).1
    rwa [client] at kept
  have completes := captured.completes
  have waiting : ¬ (node.client.fwConnectionState = found.marks.authenticated ∨
      node.client.fwConnectionState = found.marks.trusted) :=
    not_or.mpr ⟨notAuthenticated, notTrusted⟩
  constructor
  · rintro ⟨target, sent, all⟩
    have spelled : agent.field = "Host" := by
      by_contra other
      rcases all _ (agent.follows_next target.toList request) with ⟨⟨name, named, _⟩, _⟩
      rw [Request.host_of_hostHeaders (agent.follows_next target.toList request).host,
        if_neg other] at named
      cases named
    have answer := captured.answer client notAuthenticated notTrusted spelled
    rw [answer] at sent all
    dsimp only at sent all
    rcases redirectToSplashpage_cases gateway.config request host with
      ⟨fits, encoded, printable, redirected⟩ | ⟨_, failed⟩
    · rw [redirected] at sent
      rcases Option.ite_none_right_eq_some.mp sent with ⟨accepted, shape⟩
      have text : target.toList = splashTarget gateway.config encoded := by
        rw [← Option.some.inj shape, String.toList_ofList]
      rw [text] at all
      have follows := agent.follows_next (splashTarget gateway.config encoded) request
      rcases all _ follows with ⟨⟨name, named, ours⟩, splash, shown⟩
      rcases follows.read completes with ⟨hostRead, url⟩
      rw [if_pos spelled] at hostRead
      rw [hostRead] at named
      rw [← Option.some.inj named] at ours
      have again := Gateway.requestClient_again client follows.method follows.ip follows.neighbour
      rw [hostRead, url, config] at splash
      rw [Gateway.libmicrohttpdCb_splashpage_iff again waiting (by rw [hostRead]; exact ours), url,
        hostRead, config] at shown
      rw [config] at ours
      exact ⟨spelled, fits, (accepts_splashTarget completes rule printable).mp accepted,
        (server.ours_iff completes).mp ours, (agent.finds_iff ours).mpr shown⟩
    · rw [failed] at sent
      cases sent
  · intro leads
    have ours := (server.ours_iff completes).mpr leads.lowerCase
    have answer := captured.answer client notAuthenticated notTrusted leads.spelled
    rcases redirectToSplashpage_cases gateway.config request host with
      ⟨_, encoded, printable, redirected⟩ | ⟨tooLong, _⟩
    · refine ⟨String.ofList (splashTarget gateway.config encoded), ?_, fun next follows => ?_⟩
      · rw [answer, redirected]
        exact if_pos ((accepts_splashTarget completes rule printable).mpr leads.accepted)
      · rw [String.toList_ofList] at follows
        rcases follows.read completes with ⟨hostRead, url⟩
        rw [if_pos leads.spelled] at hostRead
        have shown := (agent.finds_iff ours).mp leads.found
        have again := Gateway.requestClient_again client follows.method follows.ip
          follows.neighbour
        rw [answer]
        dsimp only
        rw [config, hostRead, url]
        refine ⟨⟨_, rfl, ours⟩, shown.2, ?_⟩
        rw [Gateway.libmicrohttpdCb_splashpage_iff again waiting
          (by rw [hostRead, config]; exact ours), hostRead, url, config]
        exact shown
    · exact absurd leads.fits tooLong

/-! ## Three gateways -/

def standardAgent : UserAgent where
  field := "Host"
  send := removeDotSegments '/' '.'
  named := by decide
  sent _ := .inr rfl

/-- What libmicrohttpd looks for in a header. -/
def controlRule : HeaderRule where
  refuses char := char = '\t' || char = '\r' || char = '\n'
  printable char low high := by
    by_contra refused
    simp only [Bool.not_eq_false, Bool.or_eq_true, decide_eq_true_eq] at refused
    rcases refused with (rfl | rfl) | rfl
    · exact absurd low (by decide)
    · exact absurd low (by decide)
    · exact absurd low (by decide)

theorem isUnreserved_of_all {text : String} (all : text.toList.all isUnreserved = true) :
    ∀ char ∈ text.toList, isUnreserved char = true := List.all_eq_true.mp all

def defaultServer (gwDomain : Option String)
    (plain : ∀ domain ∈ gwDomain, ∀ char ∈ domain.toList, isUnreserved char = true) :
    ServerName where
  ip6 := false
  gwIp := "192.168.42.1"
  gwDomain := gwDomain
  gwPort := 2050
  plainIp char member := .inl (isUnreserved_of_all (by decide) char member)
  plainDomain := plain

def addressServer : ServerName := defaultServer none fun _ none => nomatch none

def portalServer : ServerName :=
  defaultServer (some "Portal.lan") fun domain equal => by
    rw [← Option.some.inj equal]
    exact isUnreserved_of_all (by decide)

/-- A gateway that starts with another splash page and server. -/
def gatewayWith (splashpage : String) (server : ServerName) : Gateway :=
  { defaultGateway with
    config := { defaultConfig with
      splashpage := splashpage
      gwHttpName := server.gwHttpName
      gwHttpNamePort := server.gwHttpNamePort } }

def foreignRequest : Request :=
  { defaultRequest "/" fun _ => none with headers := [("Host", some "example.org")] }

theorem captured_foreignRequest {splashpage : String} {server : ServerName}
    (address : server.ip6 = false ∧ server.gwPort = 2050)
    (foreign : sameIgnoringCase "example.org" server.gwHttpName = false ∧
      sameIgnoringCase "example.org" server.gwHttpNamePort = false)
    (added : (((gatewayWith splashpage server).requestClient foreignRequest).1.any fun node =>
      decide (node.client.fwConnectionState = preauthenticatedState)) = true) :
    Captured standardAgent server (gatewayWith splashpage server) foreignRequest "example.org" := by
  constructor
  · decide
  · exact foreign
  · exact ⟨address.1.symm, address.2.symm, rfl, rfl⟩
  · rcases Option.any_eq_true _ _ |>.mp added with ⟨node, found, state⟩
    refine ⟨node, _, Prod.ext found rfl, ?_, ?_⟩
    · rw [of_decide_eq_true state]
      exact Gateway.preauthenticated_ne_authenticated _
    · rw [of_decide_eq_true state]
      exact (AcceptedMarks.trusted_ne_zero _).symm

/-- The default installation. -/
theorem captive_redirect_converges_iff_default :
    Converges controlRule standardAgent (gatewayWith "splash.html" addressServer) foreignRequest :=
  (captive_redirect_converges_iff (captured_foreignRequest ⟨rfl, rfl⟩ (by decide +kernel)
    (by decide +kernel))).mpr
    { spelled := rfl
      fits := ⟨by decide +kernel, by decide +kernel⟩
      accepted := by
        have all : ("splash.html".toList.all fun char => !controlRule.refuses char) = true := by
          decide +kernel
        intro char member
        simpa using List.all_eq_true.mp all char member
      lowerCase := by decide +kernel
      found := .inr ⟨⟨by decide +kernel, by decide +kernel, by decide +kernel, by decide +kernel,
        by decide +kernel⟩, by decide +kernel⟩ }

/-- Where the browser is sent, what it asks for then, and the answer. -/
def firstTarget (gateway : Gateway) : String :=
  ((gateway.libmicrohttpdCb foreignRequest).1.location controlRule.accepts).getD ""

def secondAnswer (gateway : Gateway) : Response :=
  ((gateway.libmicrohttpdCb foreignRequest).2.libmicrohttpdCb
    (standardAgent.next (firstTarget gateway).toList foreignRequest)).1

theorem not_converges_of_secondAnswer {gateway : Gateway}
    (other : secondAnswer gateway ≠ .splashpage) :
    ¬ Converges controlRule standardAgent gateway foreignRequest := by
  rintro ⟨url, sent, all⟩
  have same : firstTarget gateway = url := by
    rw [firstTarget, sent, Option.getD_some]
  rw [secondAnswer, same] at other
  exact other (all _ (standardAgent.follows_next url.toList foreignRequest)).2.2

/-- The page `/splash.html` is served as a file, and from `Portal.lan` the browser is sent
to `Portal.lan` again. -/
theorem slash_and_upperCase_lost :
    (Captured standardAgent addressServer (gatewayWith "/splash.html" addressServer)
        foreignRequest "example.org" ∧
      secondAnswer (gatewayWith "/splash.html" addressServer) = .file "/splash.html" ∧
      ¬ Converges controlRule standardAgent (gatewayWith "/splash.html" addressServer)
        foreignRequest) ∧
    (Captured standardAgent portalServer (gatewayWith "splash.html" portalServer)
        foreignRequest "example.org" ∧
      secondAnswer (gatewayWith "splash.html" portalServer) = .redirect
        ("http://Portal.lan:2050/splash.html?redir=" ++
          "http%3a%2f%2fportal.lan%3a2050%2fsplash.html" ++
          "%3fredir%3dhttp%3a%2f%2fexample.org%2f") ∧
      ¬ Converges controlRule standardAgent (gatewayWith "splash.html" portalServer)
        foreignRequest) := by
  have file : secondAnswer (gatewayWith "/splash.html" addressServer) = .file "/splash.html" := by
    decide +kernel
  have loop : secondAnswer (gatewayWith "splash.html" portalServer) = .redirect
      ("http://Portal.lan:2050/splash.html?redir=" ++
        "http%3a%2f%2fportal.lan%3a2050%2fsplash.html" ++
        "%3fredir%3dhttp%3a%2f%2fexample.org%2f") := by
    decide +kernel
  refine ⟨⟨?_, file, ?_⟩, ?_, loop, ?_⟩
  · exact captured_foreignRequest ⟨rfl, rfl⟩ (by decide +kernel) (by decide +kernel)
  · exact not_converges_of_secondAnswer (by rw [file]; exact fun equal => nomatch equal)
  · exact captured_foreignRequest ⟨rfl, rfl⟩ (by decide +kernel) (by decide +kernel)
  · exact not_converges_of_secondAnswer (by rw [loop]; exact fun equal => nomatch equal)

end Nodogsplash
