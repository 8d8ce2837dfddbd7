import Nodogsplash.CaptiveRedirect
import Nodogsplash.Foundation.Buffers

/-! # The buffer of the query string

`get_query_callback` prints the arguments of a request one after the other to a buffer of
fixed size. -/

namespace Nodogsplash

open Buffers QueryText

/-! ## The code -/

/-- `enum MHD_ValueKind`. -/
inductive ValueKind
  | header
  | cookie
  | postData
  | getArgument
  | footer
  deriving DecidableEq

/-- `struct get_query_data`. -/
structure GetQueryData where
  error : Bool
  capacity : Nat
  size : Nat
  query : List Char

/-- `left`. -/
def GetQueryData.left (data : GetQueryData) : Int := toInt32 ((data.capacity : Int) - data.size)

/-- `%c%s=%s` and `%c%s`. -/
def separated (separator : Char) (key : String) (value : Option String) : List Char :=
  separator :: printArgument (mapArgument cString (key.toList, value.map String.toList))

/-- What `snprintf` with a size leaves in a buffer of which it is given a place. -/
def snprintfAt (buffer : List Char) (offset size : Nat) (text : List Char) : List Char :=
  if size = 0 then buffer else overwrite buffer offset (text.take (size - 1) ++ ['\x00'])

/-- `get_query_callback`, and whether it returns `MHD_YES`. -/
def getQueryCallbackInto (data : GetQueryData) (kind : ValueKind) (key value : Option String) :
    Bool × GetQueryData :=
  match key, kind with
  | some key, .getArgument =>
      let text := separated (if data.size ≠ 0 then '&' else '?') key value
      let query := snprintfAt data.query data.size (toUInt64 data.left) text
      if (text.length : Int) ≥ data.left then
        (false, { data with query := query.set data.size '\x00', error := true })
      else (true, { data with query, size := data.size + text.length })
  | _, _ => (true, data)

/-- `MHD_get_connection_values` goes on as long as the callback says so. -/
def getConnectionValues (data : GetQueryData) : List (String × Option String) → GetQueryData
  | [] => data
  | argument :: rest =>
      let (goesOn, data) := getQueryCallbackInto data .getArgument (some argument.1) argument.2
      if goesOn then getConnectionValues data rest else data

/-- The data with which the callback is called. -/
def callbackData (data : GetQueryData) : List (String × Option String) → List GetQueryData
  | [] => []
  | argument :: rest =>
      let (goesOn, next) := getQueryCallbackInto data .getArgument (some argument.1) argument.2
      data :: if goesOn then callbackData next rest else []

/-- `data` of `redirect_to_splashpage`. -/
def emptyQuery : GetQueryData where
  error := false
  capacity := queryMaxLen
  size := 0
  query := List.replicate queryMaxLen '\x00'

/-- `redirect_to_splashpage`; nothing if the query has no end in its buffer. -/
def redirectToSplashpageInto (config : Config) (request : Request) (host url : String) :
    Option Response :=
  let data := getConnectionValues emptyQuery request.arguments
  if data.error then some (.error 503)
  else
    (string '\x00' data.query).map fun query =>
      encodeAndRedirectToSplashpage config (some s!"http://{host}{url}{String.ofList query}")

/-! ## What is collected -/

/-- All arguments behind each other, the first one after `separator`. -/
def printedFrom (separator : Char) : List (String × Option String) → List Char
  | [] => []
  | argument :: rest => separated separator argument.1 argument.2 ++ printedFrom '&' rest

/-- `?` or `&`, then the key or the key and its value, for every argument. -/
def printedArguments (arguments : List (String × Option String)) : List Char :=
  printedFrom '?' arguments

example : printedArguments [("q", some "a b"), ("", none), ("r", some "")] =
    "?q=a b&&r=".toList := by
  decide

/-- The call of `snprintf` writes to places of the buffer. -/
structure GetQueryData.InBounds (data : GetQueryData) : Prop where
  length : data.query.length = queryMaxLen
  offset : data.size < queryMaxLen
  size : data.size + toUInt64 data.left = queryMaxLen

structure GetQueryData.Collects (data : GetQueryData) (query : List Char) : Prop where
  text : string '\x00' data.query = some query
  size : data.size = query.length
  below : data.size < queryMaxLen

def printedQuery (stored : List Char) : GetQueryData where
  error := false
  capacity := queryMaxLen
  size := stored.length
  query := fill '\x00' queryMaxLen stored

def nextSeparator (stored : List Char) : Char := if stored.length ≠ 0 then '&' else '?'

section

variable {stored : List Char}

theorem left_printedQuery (room : stored.length < queryMaxLen) :
    (printedQuery stored).left = (queryMaxLen : Int) - stored.length := by
  have small : (queryMaxLen : Int) = 4096 := rfl
  have difference : (printedQuery stored).left =
      ((queryMaxLen : Int) - stored.length).bmod (2 ^ 32) := rfl
  rw [difference, Int.bmod_eq_of_le] <;> omega

theorem toUInt64_left (room : stored.length < queryMaxLen) :
    toUInt64 (printedQuery stored).left = queryMaxLen - stored.length := by
  have small : (queryMaxLen : Int) = 4096 := rfl
  rw [left_printedQuery room, toUInt64]
  omega

theorem inBounds_printedQuery (room : stored.length < queryMaxLen) :
    (printedQuery stored).InBounds where
  length := length_fill stored
  offset := room
  size := by
    have offset : (printedQuery stored).size = stored.length := rfl
    rw [toUInt64_left room, offset]
    omega

theorem noNul_separated (separator : Char) (ordinary : separator ≠ '\x00') (key : String)
    (value : Option String) : '\x00' ∉ separated separator key value := by
  have ends (text : List Char) : '\x00' ∉ cString text := by
    intro member
    have tested := List.mem_takeWhile_imp member
    simp at tested
  rw [separated, List.mem_cons, not_or]
  refine ⟨ordinary.symm, ?_⟩
  cases value with
  | none => exact ends key.toList
  | some value =>
      simp only [mapArgument, Option.map_some, printArgument, List.mem_append, List.mem_cons,
        not_or]
      exact ⟨ends key.toList, by decide, ends value.toList⟩

theorem noNul_printedFrom {separator : Char} (ordinary : separator ≠ '\x00')
    (arguments : List (String × Option String)) : '\x00' ∉ printedFrom separator arguments := by
  induction arguments generalizing separator with
  | nil => exact List.not_mem_nil
  | cons argument rest induction =>
      rw [printedFrom, List.mem_append, not_or]
      exact ⟨noNul_separated separator ordinary _ _, induction (by decide)⟩

theorem getQueryCallbackInto_printed (room : stored.length < queryMaxLen) (key : String)
    (value : Option String) :
    (stored.length + (separated (nextSeparator stored) key value).length < queryMaxLen ∧
      getQueryCallbackInto (printedQuery stored) .getArgument (some key) value =
        (true, printedQuery (stored ++ separated (nextSeparator stored) key value))) ∨
    (queryMaxLen ≤ stored.length + (separated (nextSeparator stored) key value).length ∧
      ∃ data, data.error = true ∧
        getQueryCallbackInto (printedQuery stored) .getArgument (some key) value =
          (false, data)) := by
  let text := separated (nextSeparator stored) key value
  let query := snprintfAt (fill '\x00' queryMaxLen stored) stored.length
    (toUInt64 (printedQuery stored).left) text
  have called : getQueryCallbackInto (printedQuery stored) .getArgument (some key) value =
      if (text.length : Int) ≥ (printedQuery stored).left then
        (false, { printedQuery stored with query := query.set stored.length '\x00', error := true })
      else (true, { printedQuery stored with query, size := stored.length + text.length }) := rfl
  rw [left_printedQuery room] at called
  by_cases fits : stored.length + text.length < queryMaxLen
  · left
    have whole : text.take (queryMaxLen - stored.length - 1) = text :=
      List.take_of_length_le (by omega)
    have printed : query = fill '\x00' queryMaxLen (stored ++ text) := by
      simp only [query]
      rw [toUInt64_left room, snprintfAt, if_neg (by omega), whole,
        overwrite_fill_terminated fits]
    refine ⟨fits, ?_⟩
    rw [called, if_neg (by omega), printed, ← List.length_append]
    rfl
  · right
    rw [if_pos (by omega)] at called
    have long : queryMaxLen ≤ stored.length + text.length := by omega
    exact ⟨long, _, rfl, called⟩

theorem nextSeparator_append (key : String) (value : Option String) (separator : Char) :
    nextSeparator (stored ++ separated separator key value) = '&' := by
  rw [nextSeparator, if_pos]
  rw [List.length_append, separated, List.length_cons]
  omega

theorem getConnectionValues_printed (room : stored.length < queryMaxLen)
    (arguments : List (String × Option String)) :
    let query := printedFrom (nextSeparator stored) arguments
    (stored.length + query.length < queryMaxLen ∧
      getConnectionValues (printedQuery stored) arguments = printedQuery (stored ++ query)) ∨
    (queryMaxLen ≤ stored.length + query.length ∧
      (getConnectionValues (printedQuery stored) arguments).error = true) := by
  induction arguments generalizing stored with
  | nil =>
      left
      simp only [printedFrom, List.length_nil, List.append_nil]
      exact ⟨room, rfl⟩
  | cons argument rest induction =>
      let text := separated (nextSeparator stored) argument.1 argument.2
      simp only [printedFrom, List.length_append, getConnectionValues]
      rcases getQueryCallbackInto_printed room argument.1 argument.2 with
        ⟨fits, called⟩ | ⟨full, data, error, called⟩
      · have below : (stored ++ text).length < queryMaxLen := by rwa [List.length_append]
        have later := induction below
        simp only [text, nextSeparator_append, List.length_append, List.append_assoc,
          Nat.add_assoc] at later
        simp only [called, if_true]
        exact later
      · right
        simp only [called, Bool.false_eq_true, if_false]
        exact ⟨by omega, error⟩

theorem callbackData_printed (room : stored.length < queryMaxLen)
    (arguments : List (String × Option String)) {data : GetQueryData}
    (member : data ∈ callbackData (printedQuery stored) arguments) :
    ∃ printed, data = printedQuery printed ∧ printed.length < queryMaxLen := by
  induction arguments generalizing stored with
  | nil => cases member
  | cons argument rest induction =>
      simp only [callbackData] at member
      rcases List.mem_cons.mp member with rfl | later
      · exact ⟨stored, rfl, room⟩
      · rcases getQueryCallbackInto_printed room argument.1 argument.2 with
          ⟨fits, called⟩ | ⟨_, data, _, called⟩
        · simp only [called, if_true] at later
          exact induction (by rwa [List.length_append]) later
        · simp only [called, Bool.false_eq_true, if_false] at later
          cases later

end

theorem collects_printedQuery {query : List Char} (room : query.length < queryMaxLen)
    (plain : '\x00' ∉ query) : (printedQuery query).Collects query where
  text := by
    have more : queryMaxLen - query.length = queryMaxLen - query.length - 1 + 1 := by omega
    have filled : (printedQuery query).query =
        query.take queryMaxLen ++ List.replicate (queryMaxLen - query.length) '\x00' := rfl
    rw [filled, List.take_of_length_le room.le, more, List.replicate_succ, string_append plain]
  size := rfl
  below := room

/-- All arguments are printed if the text and its terminator fit. -/
theorem getConnectionValues_cases (arguments : List (String × Option String)) :
    let data := getConnectionValues emptyQuery arguments
    (data.error = false ∧ data.Collects (printedArguments arguments)) ∨
      (data.error = true ∧ queryMaxLen ≤ (printedArguments arguments).length) := by
  have room : ([] : List Char).length < queryMaxLen := by decide
  rcases getConnectionValues_printed room arguments with ⟨fits, printed⟩ | ⟨full, error⟩
  · left
    have below : (printedArguments arguments).length < queryMaxLen := by
      rwa [List.length_nil, Nat.zero_add] at fits
    have collected : getConnectionValues emptyQuery arguments =
      printedQuery (printedArguments arguments) := printed
    simp only [collected]
    exact ⟨rfl, collects_printedQuery below (noNul_printedFrom (by decide) arguments)⟩
  · right
    rw [List.length_nil, Nat.zero_add] at full
    exact ⟨error, full⟩

section

variable (config : Config) {request : Request} (host url : String)

theorem redirectToSplashpageInto_of_error
    (error : (getConnectionValues emptyQuery request.arguments).error = true) :
    redirectToSplashpageInto config request host url = some (.error 503) := if_pos error

theorem redirectToSplashpageInto_of_collects {query : List Char}
    (accepted : (getConnectionValues emptyQuery request.arguments).error = false)
    (collects : (getConnectionValues emptyQuery request.arguments).Collects query) :
    redirectToSplashpageInto config request host url =
      some (encodeAndRedirectToSplashpage config
        (some s!"http://{host}{url}{String.ofList query}")) := by
  simp only [redirectToSplashpageInto, accepted, Bool.false_eq_true, if_false, collects.text]
  rfl

end

/-- What becomes of the arguments of a request: either the query is collected whole, with its
end, and is what the redirect is made of, or the client is answered 503 and nothing of the
query is used; `snprintf` stays in the buffer. -/
structure CompleteOrRefused (arguments : List (String × Option String)) : Prop where
  decided : ((getConnectionValues emptyQuery arguments).error = true ∧
      ∃ code page, sendError code = some ⟨503, page⟩ ∧
        ∀ config (request : Request) host url,
          redirectToSplashpageInto config { request with arguments } host url =
            some (.error code)) ∨
    ((getConnectionValues emptyQuery arguments).error = false ∧
      (getConnectionValues emptyQuery arguments).Collects (printedArguments arguments) ∧
      ∀ config (request : Request) host url,
        redirectToSplashpageInto config { request with arguments } host url =
          some (encodeAndRedirectToSplashpage config
            (some s!"http://{host}{url}{String.ofList (printedArguments arguments)}")))
  bounds : ∀ called ∈ callbackData emptyQuery arguments, called.InBounds

theorem inBounds_callbackData {arguments : List (String × Option String)} :
    ∀ called ∈ callbackData emptyQuery arguments, called.InBounds := by
  intro called member
  have room : ([] : List Char).length < queryMaxLen := by decide
  rcases callbackData_printed room arguments member with ⟨printed, rfl, below⟩
  exact inBounds_printedQuery below

theorem sendError_status (code : Nat) (page : String) : sendError code ≠ some ⟨503, page⟩ := by
  rw [sendError.eq_def]
  split <;> simp

theorem not_completeOrRefused {arguments : List (String × Option String)}
    (long : queryMaxLen ≤ (printedArguments arguments).length) :
    ¬ CompleteOrRefused arguments := by
  rintro ⟨⟨_, code, page, answer, _⟩ | ⟨_, collects, _⟩, _⟩
  · exact sendError_status code page answer
  · have below := collects.below
    rw [collects.size] at below
    omega

/-- The query is collected whole and with its end, or refused with a 503, exactly if it is
shorter than the buffer. A longer one is not used either, but answered with another
status. -/
theorem query_complete_or_refused_iff (arguments : List (String × Option String)) :
    (CompleteOrRefused arguments ↔ (printedArguments arguments).length < queryMaxLen) ∧
      (queryMaxLen ≤ (printedArguments arguments).length →
        (getConnectionValues emptyQuery arguments).error = true ∧
          (∀ config (request : Request) host url,
            redirectToSplashpageInto config { request with arguments } host url =
              some (.error 503)) ∧
          ∀ called ∈ callbackData emptyQuery arguments, called.InBounds) := by
  rcases getConnectionValues_cases arguments with ⟨accepted, collects⟩ | ⟨error, full⟩
  · have short : (printedArguments arguments).length < queryMaxLen := by
      rw [← collects.size]
      exact collects.below
    have complete : CompleteOrRefused arguments := by
      refine ⟨.inr ⟨accepted, collects, fun config request host url => ?_⟩, inBounds_callbackData⟩
      exact redirectToSplashpageInto_of_collects config host url accepted collects
    exact ⟨iff_of_true complete short, fun long => absurd short (Nat.not_lt.mpr long)⟩
  · refine ⟨iff_of_false (not_completeOrRefused full) (Nat.not_lt.mpr full), fun _ => ?_⟩
    refine ⟨error, fun config request host url => ?_, inBounds_callbackData⟩
    exact redirectToSplashpageInto_of_error config host url error

/-- An argument that fills the buffer is refused with the status of an internal server
error. -/
theorem long_query_answered_500 :
    let arguments := [("q", some (String.ofList (List.replicate 4096 'a')))]
    ¬ CompleteOrRefused arguments ∧
      ∀ config (request : Request) host url,
        redirectToSplashpageInto config { request with arguments } host url =
            some (.error 503) ∧
          (sendError 503).map QueuedPage.status = some 500 := by
  intro arguments
  have value : cString (String.ofList (List.replicate 4096 'a')).toList =
      List.replicate 4096 'a' := by
    rw [String.toList_ofList, cString, List.takeWhile_eq_self_iff]
    intro char member
    rw [List.eq_of_mem_replicate member]
    rfl
  have long : queryMaxLen ≤ (printedArguments arguments).length := by
    have printed : printedArguments arguments =
        '?' :: (cString "q".toList ++ '=' :: List.replicate 4096 'a') ++ [] := by
      rw [← value]
      rfl
    rw [printed, List.append_nil, List.length_cons, List.length_append, List.length_cons,
      List.length_replicate, queryMaxLen]
    omega
  refine ⟨not_completeOrRefused long, fun config request host url => ⟨?_, rfl⟩⟩
  rcases getConnectionValues_cases arguments with ⟨_, collects⟩ | ⟨error, _⟩
  · have below := collects.below
    rw [collects.size] at below
    omega
  · exact redirectToSplashpageInto_of_error config host url error

/-! ## The decision without the buffer -/

def CStrings (argument : String × Option String) : Prop :=
  cString argument.1.toList = argument.1.toList ∧
    ∀ value ∈ argument.2, cString value.toList = value.toList

theorem separated_eq {argument : String × Option String} (strings : CStrings argument)
    (separator : Char) :
    separated separator argument.1 argument.2 =
      separator :: printArgument (argument.1.toList, argument.2.map String.toList) := by
  rcases argument with ⟨key, value⟩
  rw [separated, mapArgument, strings.1]
  cases value with
  | none => rfl
  | some value =>
      rw [Option.map_some, Option.map_some, strings.2 value rfl]

theorem printedFrom_eq {argument : String × Option String}
    {arguments : List (String × Option String)}
    (strings : ∀ other ∈ argument :: arguments, CStrings other) (separator : Char) :
    printedFrom separator (argument :: arguments) =
      separator :: joinArguments ((argument :: arguments).map fun argument =>
        (argument.1.toList, argument.2.map String.toList)) := by
  induction arguments generalizing argument separator with
  | nil =>
      rw [printedFrom, printedFrom, List.append_nil,
        separated_eq (strings argument List.mem_cons_self)]
      simp [joinArguments]
  | cons next rest induction =>
      have later :=
        induction (fun other member => strings other (List.mem_cons_of_mem _ member)) '&'
      rw [printedFrom, separated_eq (strings argument List.mem_cons_self), later]
      simp [joinArguments, List.intercalate_cons_cons]

theorem printedArguments_eq {arguments : List (String × Option String)}
    (strings : ∀ argument ∈ arguments, CStrings argument) :
    printedArguments arguments = queryText arguments := by
  cases arguments with
  | nil => rfl
  | cons argument rest => exact printedFrom_eq strings '?'

/-- The requests are decided as if the query were collected without a buffer. -/
theorem redirectToSplashpageInto_eq (config : Config) {request : Request}
    (strings : ∀ argument ∈ request.arguments, CStrings argument) (host url : String) :
    redirectToSplashpageInto config request host url =
      some (redirectToSplashpage config request host url) := by
  rw [redirectToSplashpage]
  rcases getConnectionValues_cases request.arguments with ⟨accepted, collects⟩ | ⟨error, full⟩
  · have below : (queryText request.arguments).length < queryMaxLen := by
      rw [← printedArguments_eq strings, ← collects.size]
      exact collects.below
    rcases Option.isSome_iff_exists.mp ((collected_isSome_iff request.arguments).mpr below) with
      ⟨query, collected⟩
    have text : query = String.ofList (printedArguments request.arguments) := by
      rw [printedArguments_eq strings, queryText, ← collectedQuery_eq collected]
      exact String.ofList_toList.symm
    rw [redirectToSplashpageInto_of_collects config host url accepted collects, collected, text]
  · rw [redirectToSplashpageInto_of_error config host url error]
    cases collected : request.arguments.foldlM getQueryCallback "" with
    | none => rfl
    | some query =>
        have fits :=
          (collected_isSome_iff request.arguments).mp (Option.isSome_of_eq_some collected)
        rw [printedArguments_eq strings] at full
        omega

end Nodogsplash
