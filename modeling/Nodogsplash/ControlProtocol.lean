import Mathlib.Tactic.Common

/-! # The protocol between ndsctl and the daemon

What `ndsctl_do` writes for a command, and what `ndsctl_handler` makes of it
however it arrives. -/

namespace Nodogsplash

/-! ## ndsctl -/

/-- The entries of `arguments`. -/
inductive ControlCommand
  | clients
  | json
  | status
  | stop
  | debuglevel
  | deauth
  | auth
  | block
  | unblock
  | allow
  | unallow
  | trust
  | untrust
  deriving DecidableEq

def ControlCommand.cmd : ControlCommand → List Char
  | .clients => "clients".toList
  | .json => "json".toList
  | .status => "status".toList
  | .stop => "stop".toList
  | .debuglevel => "debuglevel".toList
  | .deauth => "deauth".toList
  | .auth => "auth".toList
  | .block => "block".toList
  | .unblock => "unblock".toList
  | .allow => "allow".toList
  | .unallow => "unallow".toList
  | .trust => "trust".toList
  | .untrust => "untrust".toList

/-- The command and its parameter, as `ndsctl_do` formats them. -/
def ControlCommand.line (command : ControlCommand) : Option (List Char) → List Char
  | some param => command.cmd ++ ' ' :: param
  | none => command.cmd

/-- The size of `request` in `ndsctl_do`. -/
def requestSize : Nat := 128

/-- What `ndsctl_do` writes: `snprintf` keeps what fits in `request`. -/
def ControlCommand.request (command : ControlCommand) (param : Option (List Char)) : List Char :=
  (command.line param ++ ['\r', '\n', '\r', '\n']).take (requestSize - 1)

/-! ## The daemon -/

/-- `MAX_BUF`. -/
def maxBuf : Nat := 4096

def isLineEnd (char : Char) : Bool :=
  char = '\r' || char = '\n'

def endString (char : Char) : Char :=
  if isLineEnd char then '\x00' else char

/-- The loop of `ndsctl_handler` over the results of `read`, and whether it has
seen a line end. The buffer is zero from the returned bytes on. -/
def readRequest (request : List Char) : List (List Char) → List Char × Bool
  | [] => (request, false)
  | piece :: rest =>
      if request.length < maxBuf - 1 then
        let longer := request ++ piece.map endString
        if piece.any isLineEnd then (longer, true) else readRequest longer rest
      else (request, false)

def stringAt (request : List Char) (offset : Nat) : List Char :=
  (request.drop offset).takeWhile fun char => decide (char ≠ '\x00')

/-- The tests of `ndsctl_handler` in their order: the command, the number of
characters that are compared, and the offset of the argument if one is passed. -/
def handlerBranches : List (ControlCommand × Nat × Option Nat) :=
  [(.status, 6, none), (.clients, 7, none), (.json, 4, some 5), (.stop, 4, none),
    (.block, 5, some 6), (.unblock, 7, some 8), (.allow, 5, some 6), (.unallow, 7, some 8),
    (.trust, 5, some 6), (.untrust, 7, some 8), (.auth, 4, some 5), (.deauth, 6, some 7),
    (.debuglevel, 10, some 11)]

/-- The branch that `ndsctl_handler` takes, with the argument it passes. -/
def dispatchRequest (request : List Char) : Option (ControlCommand × Option (List Char)) :=
  (handlerBranches.find? fun branch =>
    decide (request.take branch.2.1 = branch.1.cmd.take branch.2.1)).map fun branch =>
      (branch.1, branch.2.2.map (stringAt request))

/-- The commands whose branch passes an argument. -/
def ControlCommand.passes : ControlCommand → Bool
  | .status | .clients | .stop => false
  | _ => true

example : dispatchRequest "block 00:16:3e:00:00:01\x00\x00".toList =
    some (.block, some "00:16:3e:00:00:01".toList) := by decide

/-! ## Agreement -/

theorem endString_of_not {char : Char} (ordinary : isLineEnd char = false) :
    endString char = char := by
  rw [endString, ordinary]
  rfl

theorem map_endString {text : List Char} (ordinary : ∀ char ∈ text, isLineEnd char = false) :
    text.map endString = text :=
  (List.map_congr_left fun char member => endString_of_not (ordinary char member)).trans
    (List.map_id text)

theorem readRequest_line {pieces : List (List Char)} {line ends request : List Char}
    (ordinary : ∀ char ∈ line, isLineEnd char = false)
    (ended : ∀ char ∈ ends, isLineEnd char = true)
    (written : pieces.flatten = line ++ '\r' :: ends)
    (fits : request.length + line.length < maxBuf - 1) :
    ∃ zeros, (∀ char ∈ zeros, char = '\x00') ∧
      readRequest request pieces = (request ++ line ++ '\x00' :: zeros, true) := by
  induction pieces generalizing line request with
  | nil => simp at written
  | cons piece pieces induction =>
      rw [readRequest, if_pos (by omega)]
      rw [List.flatten_cons] at written
      have later {left : List Char} (equal : line = piece ++ left)
          (rest : pieces.flatten = left ++ '\r' :: ends) :
          ∃ zeros, (∀ char ∈ zeros, char = '\x00') ∧
            (if piece.any isLineEnd then (request ++ piece.map endString, true)
              else readRequest (request ++ piece.map endString) pieces) =
              (request ++ line ++ '\x00' :: zeros, true) := by
        have plain : ∀ char ∈ piece, isLineEnd char = false :=
          fun char member => ordinary char (equal ▸ List.mem_append_left _ member)
        have none : piece.any isLineEnd = false := by
          rw [List.any_eq_false]
          intro char member
          simp [plain char member]
        rw [none, map_endString plain]
        have room : (request ++ piece).length + left.length < maxBuf - 1 := by
          rw [equal, List.length_append] at fits
          rw [List.length_append]
          omega
        rcases induction
          (fun char member => ordinary char (equal ▸ List.mem_append_right _ member)) rest room
          with ⟨zeros, zero, read⟩
        exact ⟨zeros, zero, by simpa [equal] using read⟩
      rcases List.append_eq_append_iff.mp written with
        ⟨left, equal, rest⟩ | ⟨left, equal, rest⟩
      · exact later equal rest
      · cases left with
        | nil =>
            rw [List.append_nil] at equal
            exact later (by rw [equal, List.append_nil]) (by simpa using rest.symm)
        | cons char left =>
            rw [List.cons_append] at rest
            rcases List.cons.inj rest with ⟨rfl, remains⟩
            have some : piece.any isLineEnd = true := by
              rw [equal, List.any_append]
              simp [isLineEnd]
            refine ⟨left.map endString, ?_, ?_⟩
            · intro char member
              rcases List.mem_map.mp member with ⟨source, inLeft, rfl⟩
              have isEnd := ended source (remains ▸ List.mem_append_left _ inLeft)
              rw [endString, isEnd]
              rfl
            · rw [some, equal, List.map_append, map_endString ordinary]
              simp [endString, isLineEnd]

/-- Every test compares a whole command word, and an argument begins after the
blank that follows it. -/
theorem handlerBranches_offsets : ∀ branch ∈ handlerBranches,
    branch.2.1 = branch.1.cmd.length ∧
      branch.2.2 = if branch.1.passes then some (branch.1.cmd.length + 1) else none := by
  decide

/-- Two different command words differ in their first characters. -/
theorem cmd_conflicts (command : ControlCommand) : ∀ branch ∈ handlerBranches,
    branch.1 ≠ command →
      command.cmd.take (min branch.1.cmd.length command.cmd.length) ≠
        branch.1.cmd.take (min branch.1.cmd.length command.cmd.length) := by
  cases command <;> decide

/-- Whatever follows the word of a command, only the test of this command
succeeds. -/
theorem tested_iff (command : ControlCommand) (rest : List Char)
    {branch : ControlCommand × Nat × Option Nat} (member : branch ∈ handlerBranches) :
    (command.cmd ++ rest).take branch.2.1 = branch.1.cmd.take branch.2.1 ↔
      branch.1 = command := by
  rw [(handlerBranches_offsets branch member).1]
  constructor
  · intro same
    by_contra different
    apply cmd_conflicts command branch member different
    have prefixes := congrArg (List.take command.cmd.length) same
    rw [List.take_take, List.take_take, Nat.min_comm command.cmd.length] at prefixes
    rwa [List.take_append_of_le_length (Nat.min_le_right _ _)] at prefixes
  · rintro rfl
    rw [List.take_append_of_le_length (Nat.le_refl _)]

/-- Whatever follows the word of a command, the handler takes its branch. -/
theorem dispatchRequest_cmd (command : ControlCommand) (rest : List Char) :
    dispatchRequest (command.cmd ++ rest) =
      some (command, if command.passes then
        some (stringAt (command.cmd ++ rest) (command.cmd.length + 1)) else none) := by
  have finds : ∃ branch ∈ handlerBranches, branch.1 = command := by
    cases command <;> decide
  cases found : handlerBranches.find? (fun branch => decide
      ((command.cmd ++ rest).take branch.2.1 = branch.1.cmd.take branch.2.1)) with
  | none =>
      rcases finds with ⟨branch, member, own⟩
      have missed := List.find?_eq_none.mp found branch member
      simp only [decide_eq_true_eq] at missed
      exact absurd ((tested_iff command rest member).mpr own) missed
  | some branch =>
      have member := List.mem_of_find?_eq_some found
      have tested := List.find?_some found
      simp only [decide_eq_true_eq] at tested
      have own := (tested_iff command rest member).mp tested
      rw [dispatchRequest, found, Option.map_some, (handlerBranches_offsets branch member).2, own]
      cases command.passes with
      | true => rfl
      | false => rfl

theorem cmd_ordinary (command : ControlCommand) :
    ∀ char ∈ command.cmd, isLineEnd char = false := by
  have all : (command.cmd.all fun char => !isLineEnd char) = true := by
    cases command <;> decide
  simpa only [List.all_eq_true, Bool.not_eq_true'] using all

theorem stringAt_cmd (command : ControlCommand) (char : Char) (rest : List Char) :
    stringAt (command.cmd ++ char :: rest) (command.cmd.length + 1) =
      rest.takeWhile fun char => decide (char ≠ '\x00') := by
  rw [stringAt, List.drop_length_add_append]
  rfl

/-- However the bytes of `ndsctl_do` arrive, the handler takes the branch of the
command and passes the parameter. -/
theorem control_protocol_agrees (command : ControlCommand) (param : Option (List Char))
    (plain : ∀ text ∈ param, ∀ char ∈ text, char ≠ '\x00' ∧ isLineEnd char = false)
    (fits : (command.line param).length + 4 < requestSize) {pieces : List (List Char)}
    (arrives : pieces.flatten = command.request param) :
    (readRequest [] pieces).2 = true ∧
      dispatchRequest (readRequest [] pieces).1 =
        some (command, if command.passes then some (param.getD []) else none) := by
  have ordinary : ∀ char ∈ command.line param, isLineEnd char = false := by
    cases param with
    | none => exact cmd_ordinary command
    | some text =>
        intro char member
        rcases List.mem_append.mp member with inWord | inRest
        · exact cmd_ordinary command char inWord
        · rcases List.mem_cons.mp inRest with rfl | inText
          · rfl
          · exact (plain text rfl char inText).2
  have whole : command.request param = command.line param ++ '\r' :: ['\n', '\r', '\n'] := by
    rw [ControlCommand.request, List.take_of_length_le]
    rw [List.length_append]
    exact Nat.le_sub_one_of_lt fits
  rw [whole] at arrives
  have room : ([] : List Char).length + (command.line param).length < maxBuf - 1 := by
    simp only [List.length_nil, maxBuf, requestSize] at fits ⊢
    omega
  rcases readRequest_line ordinary (by simp [isLineEnd]) arrives room with ⟨zeros, zero, read⟩
  rw [read, List.nil_append]
  refine ⟨rfl, ?_⟩
  cases param with
  | none =>
      have argument : stringAt (command.cmd ++ '\x00' :: zeros) (command.cmd.length + 1) = [] := by
        rw [stringAt_cmd]
        cases zeros with
        | nil => rfl
        | cons char zeros =>
            rw [zero char List.mem_cons_self]
            rfl
      rw [ControlCommand.line, dispatchRequest_cmd, argument]
      rfl
  | some text =>
      have argument : stringAt (command.cmd ++ ' ' :: (text ++ '\x00' :: zeros))
          (command.cmd.length + 1) = text := by
        rw [stringAt_cmd, List.takeWhile_append_of_pos]
        · simp
        · intro char inText
          simpa using (plain text rfl char inText).1
      rw [ControlCommand.line, List.append_assoc, List.cons_append, dispatchRequest_cmd, argument]
      rfl

/-- The longest word arrives in three pieces. -/
theorem control_protocol_agrees_pieces :
    let pieces := ["debug".toList, "level 7\r".toList, "\n\r\n".toList]
    (readRequest [] pieces).2 = true ∧
      dispatchRequest (readRequest [] pieces).1 = some (.debuglevel, some ['7']) :=
  control_protocol_agrees .debuglevel (some ['7'])
    (by
      rintro text ⟨⟩ char member
      rw [List.mem_singleton.mp member]
      exact ⟨by decide, rfl⟩)
    (by decide) (by decide)

end Nodogsplash
