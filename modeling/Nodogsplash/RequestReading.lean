import Mathlib.Data.Nat.Find
import Nodogsplash.ControlProtocol
import Nodogsplash.Foundation.Buffers
import Nodogsplash.Foundation.Execution
import Nodogsplash.Text

/-! # Reading a request of the control connection

The loop of `ndsctl_handler` adds what `read` returns to its position, also when
that is an error or the end of the file. -/

namespace Nodogsplash

open Buffers

/-! ## The loop -/

/-- What `read` returns: some bytes, -1 with `EAGAIN`, or 0. -/
inductive ReadResult
  | bytes (piece : List Char)
  | again
  | eof
  deriving DecidableEq

/-- `request`, `read_bytes` and `done`. -/
structure RequestReader where
  request : List Char
  readBytes : Int
  done : Bool
  deriving DecidableEq

namespace RequestReader

def start : RequestReader where
  request := List.replicate maxBuf '\x00'
  readBytes := 0
  done := false

/-- The condition of the loop, in which `read_bytes` is compared as a `size_t`. -/
def Reads (reader : RequestReader) : Prop :=
  reader.done = false ∧ toUInt64 reader.readBytes < maxBuf - 1

instance (reader : RequestReader) : Decidable reader.Reads :=
  inferInstanceAs (Decidable (_ ∧ _))

/-- The body of the loop. The inner loop visits the bytes that have been read. -/
def read (reader : RequestReader) : ReadResult → RequestReader
  | .bytes piece =>
      { request := overwrite reader.request reader.readBytes.toNat (piece.map endString)
        readBytes := reader.readBytes + piece.length
        done := reader.done || piece.any isLineEnd }
  | .again => { reader with readBytes := reader.readBytes - 1 }
  | .eof => reader

/-- `read` is called, and returns no more than there is room for. -/
def Takes (reader : RequestReader) (result : ReadResult) : Prop :=
  reader.Reads ∧ ∀ piece, result = .bytes piece →
    piece ≠ [] ∧ reader.readBytes + piece.length ≤ maxBuf

abbrev ReadRun : RequestReader → List ReadResult → RequestReader → Prop :=
  Execution.Run (Execution.Guarded (Execution.ofFunction read) Takes)

end RequestReader

/-! ## Framing -/

def ReadResult.piece : ReadResult → List Char
  | .bytes piece => piece
  | .again => []
  | .eof => []

/-- The part of the stream that has been received. -/
def received (results : List ReadResult) : List Char := results.flatMap ReadResult.piece

def errors (results : List ReadResult) : Nat := results.count .again

def requestLine (stream : List Char) : List Char := stream.takeWhile fun char => !isLineEnd char

/-- The loop has ended, and the handler goes on to execute the request. -/
structure Left (results : List ReadResult) (reader : RequestReader) : Prop where
  run : RequestReader.ReadRun .start results reader
  ended : ¬ reader.Reads

/-- A line has been received, and it is the string that the handler looks at. -/
structure Framed (results : List ReadResult) (reader : RequestReader) : Prop where
  complete : (received results).any isLineEnd = true
  exact : string '\x00' reader.request = some (requestLine (received results))

/-- No `EAGAIN` comes before the end of the line, which fits in the buffer and has no
NUL in it. -/
structure Undisturbed (results : List ReadResult) : Prop where
  noError : .again ∉ results
  complete : (received results).any isLineEnd = true
  noNul : '\x00' ∉ requestLine (received results)

/-! ## The state of the loop -/

theorem received_append (first second : List ReadResult) :
    received (first ++ second) = received first ++ received second :=
  List.flatMap_append

theorem requestLine_append (stream piece : List Char) :
    requestLine (stream ++ piece) =
      if stream.any isLineEnd then requestLine stream else stream ++ requestLine piece := by
  induction stream with
  | nil => rfl
  | cons char stream induction =>
      cases ends : isLineEnd char with
      | true => simp [requestLine, ends]
      | false =>
          rw [requestLine, requestLine] at induction
          simp only [requestLine, List.cons_append, List.takeWhile_cons, ends, Bool.not_false,
            if_true, List.any_cons, Bool.false_or, induction]
          split <;> rfl

theorem map_endString_requestLine (stream : List Char) :
    (requestLine stream).map endString = requestLine stream :=
  map_endString fun char member => by simpa using List.mem_takeWhile_imp member

theorem getElem?_requestLine {stream : List Char} (complete : stream.any isLineEnd = true) :
    ∃ char, stream[(requestLine stream).length]? = some char ∧ isLineEnd char = true := by
  induction stream with
  | nil => cases complete
  | cons char stream induction =>
      cases ends : isLineEnd char with
      | true => exact ⟨char, by simp [requestLine, ends], ends⟩
      | false =>
          rw [List.any_cons, ends, Bool.false_or] at complete
          rcases induction complete with ⟨last, found, isEnd⟩
          exact ⟨last, by simpa [requestLine, ends] using found, isEnd⟩

namespace RequestReader

/-- What the variables say about the results so far: an `EAGAIN` takes the position back. -/
structure Reflects (reader : RequestReader) (results : List ReadResult) : Prop where
  size : reader.request.length = maxBuf
  range : -1 ≤ reader.readBytes ∧ reader.readBytes ≤ maxBuf
  position : reader.readBytes = (received results).length - errors results
  done : reader.done = (received results).any isLineEnd
  /-- The line has been cut off, by as many bytes as there were errors. -/
  cut : reader.done = true → ∃ index : Nat,
    (index : Int) = (requestLine (received results)).length - errors results ∧
      reader.request[index]? = some '\x00'
  /-- Without errors all that is received is stored. -/
  stored : .again ∉ results → ∃ zeros, (∀ char ∈ zeros, char = '\x00') ∧
    reader.request = (received results).map endString ++ zeros

theorem reflects_start : Reflects .start [] where
  size := List.length_replicate
  range := by decide
  position := rfl
  done := rfl
  cut := nofun
  stored _ := ⟨List.replicate maxBuf '\x00', fun _ member => List.eq_of_mem_replicate member, rfl⟩

variable {reader : RequestReader} {results : List ReadResult}

theorem Reflects.reads_iff (reflects : reader.Reflects results) :
    reader.Reads ↔ reader.done = false ∧ 0 ≤ reader.readBytes ∧ reader.readBytes < maxBuf - 1 := by
  have range := reflects.range
  simp only [Reads, toUInt64, maxBuf] at range ⊢
  constructor
  · rintro ⟨running, below⟩
    exact ⟨running, by omega⟩
  · rintro ⟨running, below⟩
    exact ⟨running, by omega⟩

theorem Reflects.read_bytes (reflects : reader.Reflects results) {piece : List Char}
    (takes : reader.Takes (.bytes piece)) :
    (reader.read (.bytes piece)).Reflects (results ++ [.bytes piece]) := by
  rcases reflects.reads_iff.mp takes.1 with ⟨running, low, below⟩
  rcases takes.2 piece rfl with ⟨_, fits⟩
  have noLine : (received results).any isLineEnd = false := by
    rw [← reflects.done, running]
  have more : received (results ++ [.bytes piece]) = received results ++ piece := by
    rw [received_append]
    simp [received, ReadResult.piece]
  have count : errors (results ++ [.bytes piece]) = errors results := by
    simp [errors]
  have room : reader.readBytes.toNat + (piece.map endString).length ≤ reader.request.length := by
    rw [reflects.size, List.length_map]
    omega
  constructor
  · rw [read, length_overwrite room, reflects.size]
  · rw [read]
    dsimp only
    omega
  · rw [more, count, List.length_append, read, reflects.position]
    dsimp only
    omega
  · rw [more, List.any_append, ← reflects.done]
    rfl
  · intro done
    rw [more, count, requestLine_append, noLine, if_neg Bool.false_ne_true, List.length_append]
    have complete : piece.any isLineEnd = true := by
      rwa [read, running, Bool.false_or] at done
    rcases getElem?_requestLine complete with ⟨char, found, isEnd⟩
    refine ⟨reader.readBytes.toNat + (requestLine piece).length, ?_, ?_⟩
    · have position := reflects.position
      omega
    · have inside : (requestLine piece).length < piece.length :=
        (List.getElem?_eq_some_iff.mp found).1
      have offset : (reader.request.take reader.readBytes.toNat).length =
          reader.readBytes.toNat := by
        rw [List.length_take]
        omega
      rw [read, overwrite, List.append_assoc, List.getElem?_append_right (by omega), offset,
        Nat.add_sub_cancel_left, List.getElem?_append_left (by rwa [List.length_map]),
        List.getElem?_map, found, Option.map_some, endString, isEnd]
      rfl
  · intro noError
    have before : .again ∉ results := fun member => noError (List.mem_append_left _ member)
    rcases reflects.stored before with ⟨zeros, zero, stored⟩
    have position : reader.readBytes.toNat = ((received results).map endString).length := by
      have noErrors : errors results = 0 := List.count_eq_zero.mpr before
      have position := reflects.position
      rw [List.length_map]
      omega
    refine ⟨zeros.drop piece.length, fun char member => zero char (List.mem_of_mem_drop member), ?_⟩
    rw [more, List.map_append, read, overwrite, stored, position, List.take_left,
      List.drop_length_add_append, List.length_map]

theorem Reflects.read (reflects : reader.Reflects results) {result : ReadResult}
    (takes : reader.Takes result) : (reader.read result).Reflects (results ++ [result]) := by
  rcases reflects.reads_iff.mp takes.1 with ⟨running, low, below⟩
  cases result with
  | bytes piece => exact reflects.read_bytes takes
  | again =>
      have same : received (results ++ [.again]) = received results := by
        rw [received_append]
        exact List.append_nil _
      have count : errors (results ++ [.again]) = errors results + 1 := by
        simp [errors]
      constructor
      · exact reflects.size
      · rw [RequestReader.read]
        dsimp only
        omega
      · rw [same, count, RequestReader.read, reflects.position]
        dsimp only
        omega
      · rw [same]
        exact reflects.done
      · intro done
        rw [RequestReader.read, running] at done
        cases done
      · intro noError
        exact absurd (List.mem_append_right _ (List.mem_singleton_self _)) noError
  | eof =>
      have same : received (results ++ [.eof]) = received results := by
        rw [received_append]
        exact List.append_nil _
      have count : errors (results ++ [.eof]) = errors results := by
        simp [errors]
      constructor
      · exact reflects.size
      · exact reflects.range
      · rw [same, count]
        exact reflects.position
      · rw [same]
        exact reflects.done
      · rw [same, count]
        exact reflects.cut
      · intro noError
        rw [same]
        exact reflects.stored fun member => noError (List.mem_append_left _ member)

theorem Reflects.run {final : RequestReader} {more : List ReadResult}
    (reflects : reader.Reflects results) (run : ReadRun reader more final) :
    final.Reflects (results ++ more) := by
  induction run generalizing results with
  | nil =>
      rw [List.append_nil]
      exact reflects
  | @cons current middle _ event events step _ induction =>
      have stepped : middle = current.read event := step.2
      subst stepped
      have later := induction (reflects.read step.1)
      rwa [List.append_assoc] at later

end RequestReader

/-! ## Exactly when the request is framed -/

theorem requestLine_split {stream : List Char} (complete : stream.any isLineEnd = true) :
    ∃ rest, stream.map endString = requestLine stream ++ '\x00' :: rest := by
  rcases getElem?_requestLine complete with ⟨char, found, isEnd⟩
  have split : requestLine stream ++ stream.dropWhile (fun char => !isLineEnd char) = stream :=
    List.takeWhile_append_dropWhile
  cases after : stream.dropWhile fun char => !isLineEnd char with
  | nil =>
      rw [after, List.append_nil] at split
      rw [split, List.getElem?_eq_none (Nat.le_refl _)] at found
      cases found
  | cons first rest =>
      rw [after] at split
      have same : first = char := by
        rw [← split, List.getElem?_append_right (by rw [split])] at found
        simpa [split] using found
      refine ⟨rest.map endString, ?_⟩
      conv_lhs => rw [← split]
      rw [List.map_append, map_endString_requestLine, List.map_cons, same, endString, isEnd]
      rfl

/-- The handler goes on with the line of the stream exactly if it got the line
without an error before its end. -/
theorem request_framed_iff {results : List ReadResult} {reader : RequestReader}
    (left : Left results reader) : Framed results reader ↔ Undisturbed results := by
  have reflects : reader.Reflects results := RequestReader.reflects_start.run left.run
  constructor
  · intro framed
    have done : reader.done = true := by
      rw [reflects.done]
      exact framed.complete
    rcases reflects.cut done with ⟨index, position, stops⟩
    have short := length_string_le framed.exact stops
    have none : errors results = 0 := by omega
    exact {
      noError := List.count_eq_zero.mp none
      complete := framed.complete
      noNul := not_mem_string framed.exact }
  · intro undisturbed
    rcases reflects.stored undisturbed.noError with ⟨zeros, _, stored⟩
    rcases requestLine_split undisturbed.complete with ⟨rest, split⟩
    constructor
    · exact undisturbed.complete
    · rw [stored, split, List.append_assoc, List.cons_append]
      exact string_append undisturbed.noNul

/-- The line arrives in two pieces. -/
theorem request_framed_iff_pieces :
    Framed [.bytes ['s', 't', 'a', 't'], .bytes ['u', 's', '\n']]
      ((RequestReader.start.read (.bytes ['s', 't', 'a', 't'])).read
        (.bytes ['u', 's', '\n'])) := by
  apply (request_framed_iff ?_).mpr
  · exact { noError := by decide, complete := by decide, noNul := by decide }
  · constructor
    · refine .cons ⟨⟨by decide, ?_⟩, rfl⟩ (.single ⟨⟨by decide, ?_⟩, rfl⟩)
      · rintro piece ⟨⟩
        exact ⟨by decide, by decide⟩
      · rintro piece ⟨⟩
        exact ⟨by decide, by decide⟩
    · decide

/-- A client sends a command without a line end and waits. -/
def unfinishedResults : List ReadResult :=
  .bytes ['s', 't', 'a', 't', 'u', 's'] :: List.replicate 7 .again

/-- The errors take the position below 0, and the handler executes what it has. -/
theorem unfinished_request_executed : ∃ reader, Left unfinishedResults reader ∧
    (received unfinishedResults).any isLineEnd = false ∧
    dispatchRequest reader.request = some (.status, none) ∧
    ¬ Framed unfinishedResults reader := by
  have waits (reader : RequestReader) (reads : reader.Reads) : reader.Takes .again :=
    ⟨reads, by rintro piece ⟨⟩⟩
  refine ⟨unfinishedResults.foldl RequestReader.read .start, ⟨?_, by decide⟩, by decide,
    by decide +kernel, ?_⟩
  · refine .cons ⟨⟨by decide, ?_⟩, rfl⟩ ?_
    · rintro piece ⟨⟩
      exact ⟨by decide, by decide⟩
    · exact .cons ⟨waits _ (by decide), rfl⟩ <| .cons ⟨waits _ (by decide), rfl⟩ <|
        .cons ⟨waits _ (by decide), rfl⟩ <| .cons ⟨waits _ (by decide), rfl⟩ <|
        .cons ⟨waits _ (by decide), rfl⟩ <| .cons ⟨waits _ (by decide), rfl⟩ <|
        .single ⟨waits _ (by decide), rfl⟩
  · intro framed
    have complete := framed.complete
    revert complete
    decide

/-! ## The end of the loop -/

/-- The reader after the given number of iterations: it stays where the loop has
ended. -/
def readerAfter (results : Nat → ReadResult) : Nat → RequestReader
  | 0 => .start
  | number + 1 =>
      let reader := readerAfter results number
      if reader.Reads then reader.read (results number) else reader

/-- What `read` may return: no more than there is room for, and nothing after the
end of the file. -/
structure Readable (results : Nat → ReadResult) : Prop where
  takes : ∀ number, (readerAfter results number).Reads →
    (readerAfter results number).Takes (results number)
  ended : ∀ number, results number = .eof → results (number + 1) = .eof

/-- The loop ends after finitely many iterations. -/
def Ends (results : Nat → ReadResult) : Prop :=
  ∃ number, ¬ (readerAfter results number).Reads

/-- The end of the file is reached, or the buffer is full. -/
def Exhausted (results : Nat → ReadResult) : Prop :=
  ∃ number, results number = .eof ∨ maxBuf - 1 ≤ (readerAfter results number).readBytes

/-- The results of the first calls. -/
def firstResults (results : Nat → ReadResult) (number : Nat) : List ReadResult :=
  (List.range number).map results

/-- There is a line end, more errors than bytes, or enough bytes beyond the errors. -/
def Decided (results : List ReadResult) : Prop :=
  (received results).any isLineEnd = true ∨ (received results).length < errors results ∨
    errors results + (maxBuf - 1) ≤ (received results).length

theorem firstResults_succ (results : Nat → ReadResult) (number : Nat) :
    firstResults results (number + 1) = firstResults results number ++ [results number] := by
  rw [firstResults, List.range_succ, List.map_append]
  rfl

theorem RequestReader.Reflects.reads_iff_not_decided {reader : RequestReader}
    {results : List ReadResult} (reflects : reader.Reflects results) :
    reader.Reads ↔ ¬ Decided results := by
  rw [reflects.reads_iff, reflects.done, reflects.position, Decided, not_or, not_or,
    Bool.not_eq_true]
  apply and_congr_right
  intro _
  simp only [maxBuf]
  omega

variable {results : Nat → ReadResult}

theorem readerAfter_reflects (readable : Readable results) {number : Nat}
    (reads : ∀ earlier < number, (readerAfter results earlier).Reads) :
    (readerAfter results number).Reflects (firstResults results number) := by
  induction number with
  | zero => exact RequestReader.reflects_start
  | succ number induction =>
      have here := reads number (Nat.lt_succ_self number)
      rw [readerAfter, if_pos here, firstResults_succ]
      apply RequestReader.Reflects.read
      · exact induction fun earlier below => reads earlier (Nat.lt_succ_of_lt below)
      · exact readable.takes number here

theorem ends_iff_decided (readable : Readable results) :
    Ends results ↔ ∃ number, Decided (firstResults results number) := by
  classical
  constructor
  · intro ends
    have before : ∀ earlier < Nat.find ends, (readerAfter results earlier).Reads :=
      fun earlier below => not_not.mp (Nat.find_min ends below)
    refine ⟨Nat.find ends, ?_⟩
    by_contra undecided
    exact Nat.find_spec ends
      ((readerAfter_reflects readable before).reads_iff_not_decided.mpr undecided)
  · rintro ⟨number, decided⟩
    by_contra endless
    have reads : ∀ number, (readerAfter results number).Reads :=
      fun number => not_not.mp fun ended => endless ⟨number, ended⟩
    have reflects := readerAfter_reflects readable fun earlier (_ : earlier < number) =>
      reads earlier
    exact reflects.reads_iff_not_decided.mp (reads number) decided

theorem eof_of_le (readable : Readable results) {first number : Nat}
    (atEnd : results first = .eof) (later : first ≤ number) : results number = .eof := by
  induction number, later using Nat.le_induction with
  | base => exact atEnd
  | succ number _ induction => exact readable.ended number induction

theorem decided_of_eof (readable : Readable results) {first number : Nat}
    (atEnd : results first = .eof) (decided : Decided (firstResults results number)) :
    ∃ earlier ≤ first, Decided (firstResults results earlier) := by
  induction number with
  | zero => exact ⟨0, Nat.zero_le _, decided⟩
  | succ number induction =>
      by_cases later : number + 1 ≤ first
      · exact ⟨number + 1, later, decided⟩
      · apply induction
        have eof : results number = .eof := eof_of_le readable atEnd (by omega)
        have same : received (firstResults results (number + 1)) =
            received (firstResults results number) := by
          rw [firstResults_succ, eof, received_append]
          exact List.append_nil _
        have count : errors (firstResults results (number + 1)) =
            errors (firstResults results number) := by
          simp [firstResults_succ, eof, errors]
        rwa [Decided, same, count] at decided

theorem ends_of_full (readable : Readable results) {number : Nat}
    (full : maxBuf - 1 ≤ (readerAfter results number).readBytes) : Ends results := by
  by_contra endless
  have reads : ∀ number, (readerAfter results number).Reads :=
    fun number => not_not.mp fun ended => endless ⟨number, ended⟩
  have reflects := readerAfter_reflects readable fun earlier (_ : earlier < number) =>
    reads earlier
  have below := (reflects.reads_iff.mp (reads number)).2.2
  omega

/-- At the end of the file the loop ends exactly if it was decided before. -/
theorem read_loop_ends_iff (readable : Readable results) :
    (Exhausted results → Ends results) ↔
      ∀ number, results number = .eof →
        ∃ earlier ≤ number, Decided (firstResults results earlier) := by
  constructor
  · intro property number eof
    rcases (ends_iff_decided readable).mp (property ⟨number, .inl eof⟩) with ⟨last, decided⟩
    exact decided_of_eof readable eof decided
  · rintro condition ⟨number, eof | full⟩
    · rcases condition number eof with ⟨earlier, _, decided⟩
      exact (ends_iff_decided readable).mpr ⟨earlier, decided⟩
    · exact ends_of_full readable full

/-- A client writes some bytes and shuts its side of the connection down. -/
def sentThenClosed (piece : List Char) (number : Nat) : ReadResult :=
  if number = 0 then .bytes piece else .eof

theorem readerAfter_sentThenClosed (piece : List Char) (number : Nat) :
    readerAfter (sentThenClosed piece) (number + 1) = readerAfter (sentThenClosed piece) 1 := by
  induction number with
  | zero => rfl
  | succ number induction =>
      rw [readerAfter, induction]
      exact ite_self _

theorem readable_sentThenClosed {piece : List Char} (some : piece ≠ [])
    (fits : piece.length ≤ maxBuf) : Readable (sentThenClosed piece) where
  takes number reads := by
    refine ⟨reads, ?_⟩
    cases number with
    | zero =>
        rintro taken ⟨⟩
        refine ⟨some, ?_⟩
        have position : (readerAfter (sentThenClosed piece) 0).readBytes = 0 := rfl
        omega
    | succ number =>
        rintro taken ⟨⟩
  ended number _ := rfl

/-- The command is complete when the client closes. -/
theorem read_loop_ends_iff_stop : Ends (sentThenClosed ['s', 't', 'o', 'p', '\n']) := by
  apply (read_loop_ends_iff (readable_sentThenClosed (by decide) (by decide))).mpr
  · intro number eof
    cases number with
    | zero => cases eof
    | succ number => exact ⟨1, by omega, .inl (by decide)⟩
  · exact ⟨1, .inl rfl⟩

/-- Without a line end the loop reads the end of the file again and again. -/
theorem read_loop_endless : ∃ results, Readable results ∧ Exhausted results ∧ ¬ Ends results := by
  refine ⟨sentThenClosed ['s', 't', 'o', 'p'],
    readable_sentThenClosed (by decide) (by decide), ⟨1, .inl rfl⟩, ?_⟩
  rintro ⟨number, ended⟩
  apply ended
  cases number with
  | zero => decide
  | succ number =>
      rw [readerAfter_sentThenClosed]
      decide

end Nodogsplash
