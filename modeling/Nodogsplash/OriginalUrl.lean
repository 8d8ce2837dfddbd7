import Mathlib.Data.List.DropRight
import Mathlib.Tactic.IntervalCases
import Nodogsplash.Foundation.QueryText
import Nodogsplash.PathSafety
import Nodogsplash.Start

/-! # The way back to the first page

A client that asks for a foreign page is sent to the splash page with the URL as an
argument, and from there to that URL. What it says is printed from decoded parts. -/

namespace Nodogsplash

open QueryText

/-! ## URLs -/

/-- What a function of C sees of a text. -/
def cString (text : List Char) : List Char := text.takeWhile fun char => char ≠ '\x00'

def httpScheme : List Char := ['h', 't', 't', 'p', ':', '/', '/']

structure UrlParts where
  host : List Char
  path : List Char
  arguments : List Argument
  deriving DecidableEq

def endsHost (char : Char) : Bool := char = '/' || char = '?' || char = '#'

/-- The path and the arguments that a server reads in the target of a request. -/
def readTarget (target : List Char) : List Char × List Argument :=
  (percentDecode hexValue (target.takeWhile fun char => char ≠ '?'),
    decodeArguments hexValue ((target.dropWhile fun char => char ≠ '?').drop 1))

def readUrl (url : List Char) : Option UrlParts :=
  if httpScheme.isPrefixOf url then
    let rest := url.drop 7
    let target := (rest.dropWhile fun char => !endsHost char).takeWhile fun char => char ≠ '#'
    some
      { host := rest.takeWhile fun char => !endsHost char
        path := (readTarget target).1
        arguments := (readTarget target).2 }
  else none

example : readUrl "http://a.org/b%20c?q=1+2&r".toList =
    some ⟨"a.org".toList, "/b c".toList, [(['q'], some "1 2".toList), (['r'], none)]⟩ := by
  decide +kernel

/-- The URL of a page. -/
structure WebUrl where
  host : List Char
  path : List Char
  query : Option (List Char)
  hostEnds : ∀ char ∈ host, endsHost char = false
  absolute : path.head? = some '/'
  pathEnds : '?' ∉ path ∧ '#' ∉ path
  queryEnds : ∀ text, query = some text → '#' ∉ text

namespace WebUrl

def text (url : WebUrl) : List Char :=
  httpScheme ++ url.host ++ url.path ++ (url.query.map ('?' :: ·)).getD []

def parts (url : WebUrl) : UrlParts where
  host := url.host
  path := percentDecode hexValue url.path
  arguments := decodeArguments hexValue (url.query.getD [])

end WebUrl

/-! ## The requests -/

def textArgument (argument : Argument) : String × Option String :=
  (String.ofList argument.1, argument.2.map String.ofList)

structure Handed (request : Request) (url : WebUrl) : Prop where
  host : request.host = some (String.ofList url.host)
  path : request.url = String.ofList (cString url.parts.path)
  arguments : request.arguments =
    url.parts.arguments.map fun argument => textArgument (mapArgument cString argument)
  /-- Characters stand for bytes. -/
  bytes : ∀ char, (char ∈ url.host ∨ char ∈ url.parts.path ∨
    ∃ argument ∈ url.parts.arguments, char ∈ printArgument argument) → char.toNat < 256

/-- The argument `redir` that the splash page is given and sends back. -/
def redirArgument (location : String) : Option String :=
  let query := location.toList.rtakeWhile fun char => char ≠ '?'
  if "redir=".toList.isPrefixOf query then
    some (String.ofList (decodeText hexValue (query.drop 6)))
  else none

/-- The `Location` of an answer, if libmicrohttpd takes it for a header. -/
def Response.location (validHeader : String → Bool) : Response → Option String
  | .redirect location => if validHeader location then some location else none
  | _ => none

/-- A client that is not authenticated asks for the URL of a foreign host, is sent to the
splash page, and is authenticated by a request that carries the argument `redir`. -/
structure Detour (validHeader : String → Bool) (first later : Gateway) (request auth : Request)
    (url : WebUrl) : Prop where
  handed : Handed request url
  preauthenticated : ∃ node found, first.requestClient request = (some node, found) ∧
    node.client.fwConnectionState ≠ found.marks.authenticated ∧
    node.client.fwConnectionState ≠ found.marks.trusted ∧
    isForeignHosts found.config request.host = true
  sentBack : ∃ target, (first.libmicrohttpdCb request).1.location validHeader = some target ∧
    auth.argument "redir" = redirArgument target
  authenticated : ∃ node found id reason redirectUrl limits,
    later.requestClient auth = (some node, found) ∧ found.config.redirectURL = none ∧
    found.route auth node.client = .authenticate id reason redirectUrl limits ∧
    (found.authClientAuth id reason).1 = 0

/-- The answer to the authentication leads to what was asked for first. -/
def ReturnsTo (validHeader : String → Bool) (later : Gateway) (auth : Request) (url : WebUrl) :
    Prop :=
  ∃ location, (later.libmicrohttpdCb auth).1.location validHeader = some location ∧
    readUrl location.toList = some url.parts

/-! ## The condition -/

def UrlParts.text (parts : UrlParts) : List Char :=
  httpScheme ++ parts.host ++ parts.path ++
    if parts.arguments = [] then [] else '?' :: joinArguments parts.arguments

/-- Nothing in the decoded URL has a meaning where it is printed. -/
structure PlainUrl (parts : UrlParts) : Prop where
  simplified : bufferPathSimplify (String.ofList parts.path) = String.ofList parts.path
  noNul : cString parts.path = parts.path
  noQuery : '?' ∉ parts.path
  noFragment : '#' ∉ parts.path
  undecoded : percentDecode hexValue parts.path = parts.path
  arguments : ∀ argument ∈ parts.arguments, PlainArgument hexValue cString argument
  last : ∀ argument ∈ parts.arguments.getLast?, printArgument argument ≠ []

/-! ## Printing -/

theorem length_cString_le (text : List Char) : (cString text).length ≤ text.length :=
  (List.takeWhile_prefix _).length_le

theorem cString_eq_self {text : List Char} (same : (cString text).length = text.length) :
    cString text = text := (List.takeWhile_prefix _).eq_of_length same

theorem getQueryCallback_eq {query next : String} {argument : String × Option String}
    (printed : getQueryCallback query argument = some next) :
    next.toList = query.toList ++ (if query.isEmpty then '?' else '&') ::
      printArgument (argument.1.toList, argument.2.map String.toList) := by
  rcases argument with ⟨key, value⟩
  have separated : ((if query.isEmpty then "?" else "&") : String).toList =
      [if query.isEmpty then '?' else '&'] := by
    cases query.isEmpty <;> rfl
  rw [getQueryCallback] at printed
  cases value with
  | none =>
      have stored := (Option.ite_none_left_eq_some.mp printed).2
      rw [← Option.some.inj stored]
      simp only [String.toList_append, separated, printArgument, Option.map_none,
        List.singleton_append]
  | some value =>
      have stored := (Option.ite_none_left_eq_some.mp printed).2
      have equals : "=".toList = ['='] := rfl
      rw [← Option.some.inj stored]
      simp only [String.toList_append, separated, printArgument, Option.map_some, equals,
        List.append_assoc, List.cons_append, List.nil_append]

theorem isEmpty_of_getQueryCallback {query next : String} {argument : String × Option String}
    (added : getQueryCallback query argument = some next) : next.isEmpty = false := by
  have text := getQueryCallback_eq added
  rw [← Bool.not_eq_true, String.isEmpty_iff]
  intro empty
  subst empty
  simp at text

theorem foldlM_getQueryCallback {query final : String}
    {arguments : List (String × Option String)} (nonempty : query.isEmpty = false)
    (printed : arguments.foldlM getQueryCallback query = some final) :
    final.toList = query.toList ++ arguments.flatMap fun argument =>
      '&' :: printArgument (argument.1.toList, argument.2.map String.toList) := by
  induction arguments generalizing query with
  | nil =>
      cases printed
      simp
  | cons argument arguments induction =>
      rw [List.foldlM_cons] at printed
      rcases Option.bind_eq_some_iff.mp printed with ⟨next, added, printed⟩
      have text := getQueryCallback_eq added
      have nextNonempty := isEmpty_of_getQueryCallback added
      rw [induction nextNonempty printed, text, nonempty]
      simp

theorem collectedQuery_eq {arguments : List (String × Option String)} {query : String}
    (printed : arguments.foldlM getQueryCallback "" = some query) :
    query.toList = if arguments = [] then []
      else '?' :: joinArguments (arguments.map fun argument =>
        (argument.1.toList, argument.2.map String.toList)) := by
  cases arguments with
  | nil =>
      cases printed
      rfl
  | cons argument arguments =>
      rw [List.foldlM_cons] at printed
      rcases Option.bind_eq_some_iff.mp printed with ⟨next, added, printed⟩
      have text := getQueryCallback_eq added
      have nextNonempty := isEmpty_of_getQueryCallback added
      have joined (arguments : List (String × Option String)) (first : List Char) :
          ['&'].intercalate (first :: arguments.map fun argument =>
            printArgument (argument.1.toList, argument.2.map String.toList)) =
          first ++ arguments.flatMap fun argument =>
            '&' :: printArgument (argument.1.toList, argument.2.map String.toList) := by
        induction arguments generalizing first with
        | nil => simp
        | cons next rest induction =>
            rw [List.map_cons, List.intercalate_cons_cons, induction]
            simp
      rw [foldlM_getQueryCallback nextNonempty printed, text, if_neg (List.cons_ne_nil _ _),
        joinArguments, List.map_map, List.map_cons]
      have rest :=
        joined arguments (printArgument (argument.1.toList, argument.2.map String.toList))
      simp only [Function.comp_def]
      rw [rest]
      simp

/-! ## Percent encoding -/

theorem hexValue_hexDigit {value : Nat} (small : value < 16) :
    hexValue (hexDigit value) = some value ∧ hexDigit value ∉ ['?', '+'] := by
  interval_cases value <;> decide

/-- What `uh_urlencode` writes is read back, and has no character that ends it. -/
theorem urlencodeLoop_decoded {room : Nat} {text encoded : List Char}
    (bytes : ∀ char ∈ text, char.toNat < 256)
    (written : urlencodeLoop room text = some encoded) :
    percentDecode hexValue encoded = text ∧ '?' ∉ encoded ∧ '+' ∉ encoded := by
  induction text generalizing room encoded with
  | nil =>
      cases written
      simp [percentDecode]
  | cons char rest induction =>
      have byte := bytes char List.mem_cons_self
      have others := fun char member => bytes char (List.mem_cons_of_mem _ member)
      rw [urlencodeLoop] at written
      split at written
      · cases written
      · split at written
        · next unreserved =>
            rcases Option.map_eq_some_iff.mp written with ⟨tail, tailWritten, rfl⟩
            rcases induction others tailWritten with ⟨decoded, question, plus⟩
            have unlike (other : Char) (reserved : isUnreserved other = false) : other ≠ char := by
              rintro rfl
              rw [reserved] at unreserved
              cases unreserved
            refine ⟨?_, ?_, ?_⟩
            · rw [percentDecode, decoded]
              intro high low rest percent
              exact absurd percent.symm (unlike '%' (by decide))
            · simpa [question] using unlike '?' (by decide)
            · simpa [plus] using unlike '+' (by decide)
        · split at written
          · rcases Option.map_eq_some_iff.mp written with ⟨tail, tailWritten, rfl⟩
            rcases induction others tailWritten with ⟨decoded, question, plus⟩
            have high := hexValue_hexDigit (show char.toNat / 16 % 16 < 16 by omega)
            have low := hexValue_hexDigit (show char.toNat % 16 < 16 by omega)
            have same : 16 * (char.toNat / 16 % 16) + char.toNat % 16 = char.toNat := by omega
            simp only [List.mem_cons, List.not_mem_nil, or_false, not_or] at high low
            refine ⟨?_, ?_, ?_⟩
            · simp only [List.cons_append, List.nil_append, percentDecode, high.1, low.1, decoded,
                same, Char.ofNat_toNat]
            · simp [question, Ne.symm high.2.1, Ne.symm low.2.1]
            · simp [plus, Ne.symm high.2.2, Ne.symm low.2.2]
          · cases written

theorem uhUrlencode_decoded {room : Nat} {text encoded : String}
    (bytes : ∀ char ∈ text.toList, char.toNat < 256)
    (written : uhUrlencode room text = some encoded) :
    decodeText hexValue encoded.toList = text.toList ∧ '?' ∉ encoded.toList := by
  rcases Option.map_eq_some_iff.mp written with ⟨characters, looped, rfl⟩
  rw [String.toList_ofList]
  rcases urlencodeLoop_decoded bytes looped with ⟨decoded, question, plus⟩
  rw [decodeText, (plusToSpace_eq_self_iff _).mpr plus]
  exact ⟨decoded, question⟩

theorem redirArgument_eq {before : String} {text encoded : String} {room : Nat}
    (bytes : ∀ char ∈ text.toList, char.toNat < 256)
    (written : uhUrlencode room text = some encoded) :
    redirArgument (before ++ "?redir=" ++ encoded) = some text := by
  rcases uhUrlencode_decoded bytes written with ⟨decoded, question⟩
  have query :
      (before ++ "?redir=" ++ encoded).toList.rtakeWhile (fun char => decide (char ≠ '?')) =
      "redir=".toList ++ encoded.toList := by
    have split : (before ++ "?redir=" ++ encoded).toList =
        before.toList ++ '?' :: ("redir=".toList ++ encoded.toList) := by
      simp
    have plain : ∀ char ∈ ("redir=".toList ++ encoded.toList).reverse,
        decide (char ≠ '?') = true := by
      intro char member
      rw [List.mem_reverse, List.mem_append] at member
      rcases member with inWord | inEncoded
      · have all : "redir=".toList.all (fun char => decide (char ≠ '?')) = true := by decide
        exact List.all_eq_true.mp all char inWord
      · simpa using fun equal : char = '?' => question (equal ▸ inEncoded)
    rw [split, List.rtakeWhile, List.reverse_append, List.reverse_cons, List.append_assoc,
      List.takeWhile_append_of_pos plain]
    simp
  rw [redirArgument]
  simp only [query]
  have starts : "redir=".toList.isPrefixOf ("redir=".toList ++ encoded.toList) = true := by
    rw [List.isPrefixOf_iff_prefix]
    exact List.prefix_append _ _
  have dropped : ("redir=".toList ++ encoded.toList).drop 6 = encoded.toList := rfl
  rw [if_pos starts, dropped, decoded, String.ofList_toList]

/-! ## Reading what is printed -/

def printedUrl (parts : UrlParts) : List Char :=
  httpScheme ++ parts.host ++
    ((bufferPathSimplify (String.ofList (cString parts.path))).toList ++
      if parts.arguments = [] then []
      else '?' :: joinArguments (parts.arguments.map (mapArgument cString)))

theorem readUrl_http_iff {parts : UrlParts}
    (ends : ∀ char ∈ parts.host, endsHost char = false) (tail : List Char) :
    readUrl (httpScheme ++ parts.host ++ tail) = some parts ↔
      tail.takeWhile (fun char => !endsHost char) = [] ∧
        readTarget (tail.takeWhile fun char => char ≠ '#') = (parts.path, parts.arguments) := by
  rcases parts with ⟨host, path, arguments⟩
  have plain : ∀ char ∈ host, (!endsHost char) = true := by
    intro char member
    rw [ends char member]
    rfl
  have starts : httpScheme.isPrefixOf (httpScheme ++ host ++ tail) = true := by
    rw [List.isPrefixOf_iff_prefix, List.append_assoc]
    exact List.prefix_append _ _
  have dropped : (httpScheme ++ host ++ tail).drop 7 = host ++ tail := rfl
  rw [readUrl, if_pos starts, dropped]
  dsimp only
  have hostIff (more : List Char) : host ++ more = host ↔ more = [] := by
    simp
  rw [List.takeWhile_append_of_pos plain, List.dropWhile_append_of_pos plain, Option.some.injEq,
    UrlParts.mk.injEq, hostIff, Prod.ext_iff]
  refine and_congr_right fun stopped => ?_
  have whole := List.takeWhile_append_dropWhile (p := fun char => !endsHost char) (l := tail)
  rw [stopped, List.nil_append] at whole
  rw [whole]

theorem takeWhile_append_of_stop {α : Type*} {stop : α → Bool} (first : List α) {second : List α}
    (stopped : second.takeWhile stop = []) :
    (first ++ second).takeWhile stop = first.takeWhile stop := by
  induction first with
  | nil => exact stopped
  | cons value first induction =>
      rw [List.cons_append, List.takeWhile_cons, List.takeWhile_cons, induction]

section

variable {parts : UrlParts}

theorem query_stops (parts : UrlParts) (query : List Char) (stop : Char → Bool)
    (question : stop '?' = false) :
    (if parts.arguments = [] then [] else '?' :: query).takeWhile stop = [] := by
  split
  · rfl
  · rw [List.takeWhile_cons, question]
    rfl

theorem readTarget_append (query : List Char) {path : List Char} (noQuery : '?' ∉ path)
    (noFragment : '#' ∉ path) :
    readTarget ((path ++ if parts.arguments = [] then [] else '?' :: query).takeWhile
      fun char => char ≠ '#') =
      (percentDecode hexValue path, decodeArguments hexValue
        (if parts.arguments = [] then [] else query.takeWhile fun char => char ≠ '#')) := by
  have noHash : ∀ char ∈ path, decide (char ≠ '#') = true := by
    intro char member
    simpa using fun equal : char = '#' => noFragment (equal ▸ member)
  have noMark : ∀ char ∈ path, decide (char ≠ '?') = true := by
    intro char member
    simpa using fun equal : char = '?' => noQuery (equal ▸ member)
  rw [readTarget, List.takeWhile_append_of_pos noHash, List.takeWhile_append_of_pos noMark,
    List.dropWhile_append_of_pos noMark]
  split
  · simp
  · simp

theorem plainPath_of_read {path query : List Char}
    (simplified : path.length ≤ (cString parts.path).length)
    (read : (readTarget ((path ++ if parts.arguments = [] then [] else '?' :: query).takeWhile
      fun char => char ≠ '#')).1 = parts.path) :
    path = parts.path ∧ cString parts.path = parts.path ∧ '?' ∉ path ∧ '#' ∉ path ∧
      percentDecode hexValue path = path := by
  have stopped : ((path ++ if parts.arguments = [] then [] else '?' :: query).takeWhile
      fun char => char ≠ '#').takeWhile (fun char => char ≠ '?') =
        path.takeWhile fun char => decide (char ≠ '?') && decide (char ≠ '#') := by
    rw [List.takeWhile_takeWhile]
    have same := takeWhile_append_of_stop path (query_stops parts query
      (fun char => decide (char ≠ '?') && decide (char ≠ '#')) (by decide))
    simpa using same
  rw [readTarget] at read
  dsimp only at read
  rw [stopped] at read
  have taken := List.takeWhile_prefix (l := path)
    fun char => decide (char ≠ '?') && decide (char ≠ '#')
  have decoded := length_percentDecode_le hexValue
    (path.takeWhile fun char => decide (char ≠ '?') && decide (char ≠ '#'))
  have cut := length_cString_le parts.path
  have bound := taken.length_le
  rw [read] at decoded
  have whole : path.takeWhile (fun char => decide (char ≠ '?') && decide (char ≠ '#')) = path :=
    taken.eq_of_length (by omega)
  rw [whole] at read decoded
  have undecoded : percentDecode hexValue path = path :=
    percentDecode_eq_self hexValue (by rw [read]; omega)
  have all := List.takeWhile_eq_self_iff.mp whole
  refine ⟨undecoded.symm.trans read, cString_eq_self (by omega), fun member => ?_,
    fun member => ?_, undecoded⟩
  · simpa using all '?' member
  · simpa using all '#' member

theorem PlainUrl.path_eq (plain : PlainUrl parts) :
    (bufferPathSimplify (String.ofList (cString parts.path))).toList = parts.path := by
  rw [plain.noNul, plain.simplified, String.toList_ofList]

theorem PlainUrl.uncut (plain : PlainUrl parts) :
    parts.arguments.map (mapArgument cString) = parts.arguments := by
  refine (List.map_congr_left fun argument member => ?_).trans (List.map_id _)
  have own := plain.arguments argument member
  exact mapArgument_eq_self own.key.uncut fun value isValue => (own.value value isValue).uncut

theorem PlainUrl.printedUrl_eq (plain : PlainUrl parts) : printedUrl parts = parts.text := by
  rw [printedUrl, plain.path_eq, plain.uncut, UrlParts.text, List.append_assoc, List.append_assoc,
    List.append_assoc]

theorem readUrl_printedUrl_iff (hostEnds : ∀ char ∈ parts.host, endsHost char = false)
    (absolute : parts.path.head? = some '/') :
    readUrl (printedUrl parts) = some parts ↔ PlainUrl parts := by
  have nonempty : parts.path ≠ [] := by
    intro empty
    rw [empty] at absolute
    cases absolute
  refine (readUrl_http_iff hostEnds _).trans ?_
  constructor
  · rintro ⟨_, read⟩
    have simplified : (bufferPathSimplify (String.ofList (cString parts.path))).toList.length ≤
        (cString parts.path).length := by
      have bound := length_bufferPathSimplify_le (String.ofList (cString parts.path))
      rwa [String.length_ofList, ← String.length_toList] at bound
    rcases plainPath_of_read simplified (congrArg Prod.fst read) with
      ⟨same, noNul, noQuery, noFragment, undecoded⟩
    rw [readTarget_append _ noQuery noFragment] at read
    have survives := congrArg Prod.snd read
    dsimp only at survives
    rw [same] at noQuery noFragment undecoded
    have arguments : (∀ argument ∈ parts.arguments, PlainArgument hexValue cString argument) ∧
        ∀ argument ∈ parts.arguments.getLast?, printArgument argument ≠ [] := by
      by_cases none : parts.arguments = []
      · rw [none]
        simp
      · rw [if_neg none] at survives
        exact plainArgument_of_decoded length_cString_le (fun text => cString_eq_self) survives
    refine ⟨?_, noNul, noQuery, noFragment, undecoded, arguments.1, arguments.2⟩
    have text := congrArg String.ofList same
    rwa [noNul, String.ofList_toList] at text
  · intro plain
    have noFragment : '#' ∉ joinArguments parts.arguments := by
      rw [mem_joinArguments (by decide)]
      rintro ⟨argument, member, inText⟩
      have own := plain.arguments argument member
      rcases (mem_printArgument (by decide)).mp inText with inKey | ⟨value, isValue, inValue⟩
      · exact own.key.noFragment inKey
      · exact (own.value value isValue).noFragment inValue
    have whole : (joinArguments parts.arguments).takeWhile (fun char => decide (char ≠ '#')) =
        joinArguments parts.arguments := by
      refine List.takeWhile_eq_self_iff.mpr fun char member => ?_
      simpa using fun equal : char = '#' => noFragment (equal ▸ member)
    rw [plain.path_eq, plain.uncut]
    constructor
    · cases shape : parts.path with
      | nil => exact absurd shape nonempty
      | cons char rest =>
          rw [shape, List.head?_cons, Option.some.injEq] at absolute
          rw [absolute]
          rfl
    · rw [readTarget_append _ plain.noQuery plain.noFragment, plain.undecoded, whole]
      split
      · next none =>
          rw [none]
          rfl
      · rw [decodeArguments_joinArguments plain.arguments plain.last]

end

/-! ## Bytes -/

theorem mem_simplifyLoop {pre1 char : Char} {out rest : List Char} {slash : Nat}
    (member : char ∈ simplifyLoop pre1 out slash rest) : char ∈ out ∨ char ∈ rest := by
  induction rest generalizing pre1 out slash with
  | nil => exact .inl member
  | cons next rest induction =>
      have moved {kept : List Char} (sub : kept ⊆ out ++ [next])
          (found : char ∈ kept ∨ char ∈ rest) : char ∈ out ∨ char ∈ next :: rest := by
        rcases found with inKept | inRest
        · rcases List.mem_append.mp (sub inKept) with inOut | isNext
          · exact .inl inOut
          · exact .inr (List.mem_cons.mpr (.inl (List.mem_singleton.mp isNext)))
        · exact .inr (List.mem_cons_of_mem _ inRest)
      rw [simplifyLoop] at member
      split at member
      · exact moved (List.take_subset _ _) (.inl member)
      · exact moved (List.take_subset _ _) (induction member)
      · exact moved (List.Subset.refl _) (induction member)

theorem mem_bufferPathSimplify {char : Char} {src : String}
    (member : char ∈ (bufferPathSimplify src).toList) : char ∈ src.toList := by
  rw [bufferPathSimplify, String.toList_ofList] at member
  have skipped : char ∈ src.toList.dropWhile fun char => decide (char = ' ') := by
    rcases mem_simplifyLoop member with inNone | inRest
    · cases inNone
    · generalize src.toList.dropWhile _ = chars at inRest ⊢
      revert inRest
      fun_cases skipDots chars <;> simp +contextual
  exact (List.dropWhile_sublist _).subset skipped

theorem printedUrl_bytes {parts : UrlParts}
    (bytes : ∀ char, (char ∈ parts.host ∨ char ∈ parts.path ∨
      ∃ argument ∈ parts.arguments, char ∈ printArgument argument) → char.toNat < 256)
    {char : Char} (member : char ∈ printedUrl parts) : char.toNat < 256 := by
  rw [printedUrl, List.mem_append, List.mem_append, List.mem_append] at member
  rcases member with (inScheme | inHost) | inPath | inQuery
  · have all : httpScheme.all (fun char => char.toNat < 256) = true := by decide
    simpa using List.all_eq_true.mp all char inScheme
  · exact bytes char (.inl inHost)
  · have inSource := mem_bufferPathSimplify inPath
    rw [String.toList_ofList] at inSource
    exact bytes char (.inr (.inl ((List.takeWhile_sublist _).subset inSource)))
  · split at inQuery
    · cases inQuery
    · rcases List.mem_cons.mp inQuery with rfl | inText
      · decide
      · by_cases separator : char = '&'
        · rw [separator]
          decide
        by_cases equals : char = '='
        · rw [equals]
          decide
        rcases (mem_joinArguments separator).mp inText with ⟨shown, isShown, inShown⟩
        rcases List.mem_map.mp isShown with ⟨argument, isArgument, rfl⟩
        refine bytes char (.inr (.inr ⟨argument, isArgument, (mem_printArgument equals).mpr ?_⟩))
        rcases (mem_printArgument equals).mp inShown with inKey | ⟨value, isValue, inValue⟩
        · exact .inl ((List.takeWhile_sublist _).subset inKey)
        · rcases Option.map_eq_some_iff.mp isValue with ⟨text, isText, rfl⟩
          exact .inr ⟨text, isText, (List.takeWhile_sublist _).subset inValue⟩

/-! ## The detour -/

theorem originalUrl_eq {request : Request} {url : WebUrl} (handed : Handed request url)
    {query : String} (collected : request.arguments.foldlM getQueryCallback "" = some query) :
    ("http://" ++ String.ofList url.host ++ bufferPathSimplify request.url ++ query).toList =
      printedUrl url.parts := by
  have text := collectedQuery_eq collected
  rw [handed.arguments, List.map_map] at text
  have shown : (fun argument : String × Option String =>
      (argument.1.toList, argument.2.map String.toList)) ∘
        (fun argument => textArgument (mapArgument cString argument)) = mapArgument cString := by
    funext argument
    rcases argument with ⟨key, none | value⟩
    · simp [textArgument, mapArgument]
    · simp [textArgument, mapArgument]
  rw [shown] at text
  have host : url.parts.host = url.host := rfl
  have scheme : "http://".toList = ['h', 't', 't', 'p', ':', '/', '/'] := by decide
  rw [String.toList_append, String.toList_append, String.toList_append, text, handed.path,
    printedUrl, host]
  simp only [String.toList_ofList, List.map_eq_nil_iff, List.append_assoc, httpScheme, scheme]

namespace Gateway

theorem route_foreign {gateway : Gateway} {request : Request} {client : Client}
    (notAuthenticated : client.fwConnectionState ≠ gateway.marks.authenticated)
    (notTrusted : client.fwConnectionState ≠ gateway.marks.trusted)
    (foreign : isForeignHosts gateway.config request.host = true) :
    gateway.route request client = .respond (redirectToSplashpage gateway.config request
      (request.host.getD "") (bufferPathSimplify request.url)) := by
  simp only [route, notAuthenticated, notTrusted, or_self, if_false, preauthenticated, foreign,
    if_true]

theorem libmicrohttpdCb_respond {gateway found : Gateway} {request : Request} {node : Node}
    {response : Response} (client : gateway.requestClient request = (some node, found))
    (routed : found.route request node.client = .respond response) :
    gateway.libmicrohttpdCb request = (response, found) := by
  rw [libmicrohttpdCb, client]
  dsimp only
  rw [routed]

theorem libmicrohttpdCb_foreign {gateway found : Gateway} {request : Request} {node : Node}
    (client : gateway.requestClient request = (some node, found))
    (notAuthenticated : node.client.fwConnectionState ≠ found.marks.authenticated)
    (notTrusted : node.client.fwConnectionState ≠ found.marks.trusted)
    (foreign : isForeignHosts found.config request.host = true) :
    gateway.libmicrohttpdCb request =
      (redirectToSplashpage found.config request (request.host.getD "")
        (bufferPathSimplify request.url), found) :=
  libmicrohttpdCb_respond client (route_foreign notAuthenticated notTrusted foreign)

end Gateway

theorem redirArgument_of_redirect {validHeader : String → Bool} {config : Config}
    {request : Request} {url : WebUrl} (handed : Handed request url) {target : String}
    (redirected : (redirectToSplashpage config request (request.host.getD "")
      (bufferPathSimplify request.url)).location validHeader = some target) :
    redirArgument target = some (String.ofList (printedUrl url.parts)) := by
  rw [redirectToSplashpage, handed.host, Option.getD_some] at redirected
  cases collected : request.arguments.foldlM getQueryCallback "" with
  | none =>
      rw [collected] at redirected
      cases redirected
  | some query =>
      rw [collected] at redirected
      have origin := originalUrl_eq handed collected
      have originText : s!"http://{String.ofList url.host}{bufferPathSimplify request.url}{query}" =
          String.ofList (printedUrl url.parts) := by
        rw [← origin, String.ofList_toList]
        rfl
      dsimp only at redirected
      rw [originText, encodeAndRedirectToSplashpage, Option.getD_some] at redirected
      cases encoded : uhUrlencode queryMaxLen (String.ofList (printedUrl url.parts)) with
      | none =>
          rw [encoded] at redirected
          cases redirected
      | some text =>
          rw [encoded] at redirected
          have shape := (Option.ite_none_right_eq_some.mp redirected).2
          have given : s!"http://{config.gwHttpName}/{config.splashpage}?redir={text}" =
              s!"http://{config.gwHttpName}/{config.splashpage}" ++ "?redir=" ++ text := rfl
          rw [← Option.some.inj shape, given]
          refine redirArgument_eq (fun char member => ?_) encoded
          rw [String.toList_ofList] at member
          exact printedUrl_bytes handed.bytes member

theorem Gateway.libmicrohttpdCb_authenticated {gateway found : Gateway} {auth : Request}
    {node : Node} {id : BitVec 32} {reason redirectUrl : Option String} {limits : SessionLimits}
    (client : gateway.requestClient auth = (some node, found))
    (unset : found.config.redirectURL = none)
    (routed : found.route auth node.client = .authenticate id reason redirectUrl limits)
    (accepted : (found.authClientAuth id reason).1 = 0) :
    (gateway.libmicrohttpdCb auth).1 = authenticatedResponse (auth.argument "redir") := by
  have same : redirectUrl = auth.argument "redir" := by
    have ofClient {target : Option String}
        (decided : authenticateClient found.config auth target node.client =
          .authenticate id reason redirectUrl limits) : redirectUrl = target := by
      simp only [authenticateClient] at decided
      split at decided
      · split at decided
        · cases decided
        · exact (Decision.authenticate.inj decided).2.2.1.symm
      · exact (Decision.authenticate.inj decided).2.2.1.symm
    simp only [route] at routed
    split at routed
    · rw [authenticated] at routed
      split at routed
      · cases routed
      · split at routed
        · cases routed
        · split at routed <;> cases routed
    · simp only [preauthenticated] at routed
      split at routed
      · cases routed
      · split at routed
        · split at routed
          · have target := ofClient routed
            rw [unset] at target
            exact target
          · cases routed
        · split at routed <;> cases routed
  rw [libmicrohttpdCb, client]
  dsimp only
  rw [routed]
  dsimp only
  rw [if_neg (not_not.mpr accepted), same]

/-- The detour leads back to the first URL just if nothing in it, once decoded, has a
meaning where it is printed, and libmicrohttpd takes it for a header. -/
theorem original_url_survives_iff {validHeader : String → Bool}
    {first later : Gateway} {request auth : Request} {url : WebUrl}
    (detour : Detour validHeader first later request auth url) :
    ReturnsTo validHeader later auth url ↔
      PlainUrl url.parts ∧ validHeader (String.ofList url.parts.text) = true := by
  rcases detour.preauthenticated with ⟨node, found, client, notAuthenticated, notTrusted, foreign⟩
  rcases detour.sentBack with ⟨target, redirected, sentBack⟩
  rcases detour.authenticated with
    ⟨authNode, authFound, id, reason, redirectUrl, limits, authClient, unset, routed, accepted⟩
  rw [Gateway.libmicrohttpdCb_foreign client notAuthenticated notTrusted foreign] at redirected
  have answer : (later.libmicrohttpdCb auth).1 =
      .redirect (String.ofList (printedUrl url.parts)) := by
    rw [Gateway.libmicrohttpdCb_authenticated authClient unset routed accepted, sentBack,
      redirArgument_of_redirect detour.handed redirected]
    rfl
  have absolute : url.parts.path.head? = some '/' := by
    have starts := url.absolute
    rw [WebUrl.parts]
    cases shape : url.path with
    | nil => simp [shape] at starts
    | cons char rest =>
        rw [shape, List.head?_cons, Option.some.injEq] at starts
        rw [starts, percentDecode]
        · rfl
        · intro high low rest slash
          cases slash
  have read : readUrl (printedUrl url.parts) = some url.parts ↔ PlainUrl url.parts :=
    readUrl_printedUrl_iff url.hostEnds absolute
  rw [ReturnsTo, answer]
  constructor
  · rintro ⟨location, sent, same⟩
    have accepted := Option.ite_none_right_eq_some.mp sent
    rw [← Option.some.inj accepted.2, String.toList_ofList] at same
    have plain := read.mp same
    rw [← plain.printedUrl_eq]
    exact ⟨plain, accepted.1⟩
  · rintro ⟨plain, valid⟩
    refine ⟨String.ofList (printedUrl url.parts), ?_, ?_⟩
    · rw [plain.printedUrl_eq]
      exact if_pos valid
    · rw [String.toList_ofList]
      exact read.mpr plain

/-! ## Two searches -/

def firstRequest (url : WebUrl) : Request :=
  { defaultRequest (String.ofList (cString url.parts.path)) fun _ => none with
    headers := [("Host", some (String.ofList url.host))]
    arguments := url.parts.arguments.map fun argument =>
      textArgument (mapArgument cString argument) }

def splashLocation (url : WebUrl) : String :=
  ((defaultGateway.libmicrohttpdCb (firstRequest url)).1.location fun _ => true).getD ""

def waitingGateway (url : WebUrl) : Gateway :=
  (defaultGateway.libmicrohttpdCb (firstRequest url)).2

/-- The splash page sends back what it was given. -/
def authRequest (url : WebUrl) : Request :=
  defaultRequest "/nodogsplash_auth/" fun name =>
    if name = "redir" then redirArgument (splashLocation url)
    else if name = "tok" then (waitingGateway url).clients.nodes.head?.map (·.client.token)
    else none

theorem endsHost_of_all {host : List Char} (all : (host.all fun char => !endsHost char) = true) :
    ∀ char ∈ host, endsHost char = false := by
  simpa only [List.all_eq_true, Bool.not_eq_true'] using all

def plainSearch : WebUrl where
  host := "example.org".toList
  path := "/find".toList
  query := some "q=a&lang=en".toList
  hostEnds := endsHost_of_all (by decide +kernel)
  absolute := by decide +kernel
  pathEnds := by decide +kernel
  queryEnds := by
    intro text query
    rw [← Option.some.inj query]
    decide +kernel

def encodedSearch : WebUrl where
  host := "example.org".toList
  path := "/find".toList
  query := some "q=a%26b".toList
  hostEnds := endsHost_of_all (by decide +kernel)
  absolute := by decide +kernel
  pathEnds := by decide +kernel
  queryEnds := by
    intro text query
    rw [← Option.some.inj query]
    decide +kernel

theorem detour_default {url : WebUrl}
    (bytes : ((url.host ++ url.parts.path ++ url.parts.arguments.flatMap printArgument).all
      fun char => char.toNat < 256) = true)
    (first : ((defaultGateway.requestClient (firstRequest url)).1.any fun node =>
      decide (node.client.fwConnectionState ≠
          (defaultGateway.requestClient (firstRequest url)).2.marks.authenticated ∧
        node.client.fwConnectionState ≠
          (defaultGateway.requestClient (firstRequest url)).2.marks.trusted ∧
        isForeignHosts (defaultGateway.requestClient (firstRequest url)).2.config
          (firstRequest url).host = true)) = true)
    (redirected : ((defaultGateway.libmicrohttpdCb (firstRequest url)).1.location
      fun _ => true).isSome = true)
    (host : (firstRequest url).host = some (String.ofList url.host))
    (authenticated : (((waitingGateway url).requestClient (authRequest url)).1.any fun node =>
      decide (((waitingGateway url).requestClient (authRequest url)).2.config.redirectURL = none ∧
        ((waitingGateway url).requestClient (authRequest url)).2.route (authRequest url)
          node.client = .authenticate node.client.id none ((authRequest url).argument "redir")
            ⟨0, 0, 0⟩ ∧
        (((waitingGateway url).requestClient (authRequest url)).2.authClientAuth node.client.id
          none).1 = 0)) = true) :
    Detour (fun _ => true) defaultGateway (waitingGateway url) (firstRequest url)
      (authRequest url) url := by
  constructor
  · refine ⟨host, rfl, rfl, fun char member => ?_⟩
    refine of_decide_eq_true (List.all_eq_true.mp bytes char ?_)
    rw [List.mem_append, List.mem_append, List.mem_flatMap]
    rcases member with inHost | inPath | inArgument
    · exact .inl (.inl inHost)
    · exact .inl (.inr inPath)
    · exact .inr inArgument
  · rcases Option.any_eq_true _ _ |>.mp first with ⟨node, found, facts⟩
    exact ⟨node, (defaultGateway.requestClient (firstRequest url)).2, Prod.ext found rfl,
      of_decide_eq_true facts⟩
  · rcases Option.isSome_iff_exists.mp redirected with ⟨target, sent⟩
    refine ⟨target, sent, ?_⟩
    have location : splashLocation url = target := by
      rw [splashLocation, sent, Option.getD_some]
    rw [← location]
    rfl
  · rcases Option.any_eq_true _ _ |>.mp authenticated with ⟨node, found, facts⟩
    rcases of_decide_eq_true facts with ⟨unset, routed, accepted⟩
    exact ⟨node, ((waitingGateway url).requestClient (authRequest url)).2, node.client.id, none,
      (authRequest url).argument "redir", ⟨0, 0, 0⟩, Prod.ext found rfl, unset, routed, accepted⟩

theorem original_url_survives_iff_plainSearch :
    ReturnsTo (fun _ => true) (waitingGateway plainSearch) (authRequest plainSearch) plainSearch ↔
      PlainUrl plainSearch.parts ∧ true = true :=
  original_url_survives_iff (detour_default (by decide +kernel) (by decide +kernel)
    (by decide +kernel) (by decide +kernel) (by decide +kernel))

/-- The search for `a&b` becomes one for `a`, with an argument `b`. -/
theorem encodedSearch_lost :
    Detour (fun _ => true) defaultGateway (waitingGateway encodedSearch)
        (firstRequest encodedSearch) (authRequest encodedSearch) encodedSearch ∧
      ((waitingGateway encodedSearch).libmicrohttpdCb (authRequest encodedSearch)).1.location
        (fun _ => true) = some "http://example.org/find?q=a&b" ∧
      ¬ ReturnsTo (fun _ => true) (waitingGateway encodedSearch) (authRequest encodedSearch)
        encodedSearch := by
  have sent :
      ((waitingGateway encodedSearch).libmicrohttpdCb (authRequest encodedSearch)).1.location
      (fun _ => true) = some "http://example.org/find?q=a&b" := by
    decide +kernel
  refine ⟨detour_default (by decide +kernel) (by decide +kernel) (by decide +kernel)
    (by decide +kernel) (by decide +kernel), sent, ?_⟩
  rintro ⟨location, located, same⟩
  rw [← Option.some.inj (sent.symm.trans located)] at same
  have lost : readUrl "http://example.org/find?q=a&b".toList ≠ some encodedSearch.parts := by
    decide +kernel
  exact lost same

end Nodogsplash
