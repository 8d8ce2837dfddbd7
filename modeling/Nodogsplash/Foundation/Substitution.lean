import Mathlib.Data.List.TakeWhile
import Mathlib.Tactic.Common

/-! # Texts with variables

A variable is a marker and the longest name behind it. An expansion replaces each
variable by what is emitted for its name. -/

namespace Nodogsplash.Substitution

variable {α : Type*}

inductive Piece (α : Type*)
  | plain (item : α)
  | named (name : List α)
  deriving DecidableEq

def Piece.text (emit : List α → List α) : Piece α → List α
  | .plain item => [item]
  | .named name => emit name

/-- The expansion of pieces. -/
def expandPieces (emit : List α → List α) (pieces : List (Piece α)) : List α :=
  pieces.flatMap (Piece.text emit)

variable [DecidableEq α] (marker : α) (isName : α → Bool)

/-- The pieces of a text. The items of a name are pieces of their own in the rest. -/
def pieces : List α → List (Piece α)
  | [] => []
  | item :: rest =>
      if item = marker then
        .named (rest.takeWhile isName) :: (pieces rest).drop (rest.takeWhile isName).length
      else .plain item :: pieces rest

def expand (emit : List α → List α) (text : List α) : List α :=
  expandPieces emit (pieces marker isName text)

section

variable {marker isName} {name rest : List α}

theorem pieces_plain {item : α} (ordinary : item ≠ marker) (rest : List α) :
    pieces marker isName (item :: rest) = .plain item :: pieces marker isName rest := by
  rw [pieces, if_neg ordinary]

theorem pieces_append (ordinary : ∀ item ∈ name, item ≠ marker) (rest : List α) :
    pieces marker isName (name ++ rest) = name.map .plain ++ pieces marker isName rest := by
  induction name with
  | nil => rfl
  | cons item name induction =>
      rw [List.forall_mem_cons] at ordinary
      rw [List.cons_append, pieces_plain ordinary.1, induction ordinary.2]
      rfl

theorem pieces_marker (unnamed : isName marker = false) (rest : List α) :
    pieces marker isName (marker :: rest) =
      .named (rest.takeWhile isName) :: pieces marker isName (rest.dropWhile isName) := by
  have ordinary : ∀ item ∈ rest.takeWhile isName, item ≠ marker := by
    rintro item member rfl
    rw [List.mem_takeWhile_imp member] at unnamed
    cases unnamed
  have split : pieces marker isName (rest.takeWhile isName ++ rest.dropWhile isName) = _ :=
    pieces_append ordinary (rest.dropWhile isName)
  rw [List.takeWhile_append_dropWhile] at split
  rw [pieces, if_pos rfl, split, List.drop_left' (by rw [List.length_map])]

end

theorem isName_of_mem_pieces {marker : α} {isName : α → Bool} {text name : List α}
    (member : .named name ∈ pieces marker isName text) : ∀ item ∈ name, isName item = true := by
  induction text with
  | nil => cases member
  | cons item rest induction =>
      rw [pieces] at member
      split at member
      · rcases List.mem_cons.mp member with here | later
        · cases here
          exact fun item inName => List.mem_takeWhile_imp inName
        · exact induction (List.mem_of_mem_drop later)
      · rcases List.mem_cons.mp member with here | later
        · cases here
        · exact induction later

/-! ## Comparing expansions -/

section

variable {first second : List α → List α}

omit [DecidableEq α] in
theorem expandPieces_cons (emit : List α → List α) (piece : Piece α) (rest : List (Piece α)) :
    expandPieces emit (piece :: rest) = piece.text emit ++ expandPieces emit rest :=
  List.flatMap_cons

omit [DecidableEq α] in
theorem take_expandPieces_congr {pieces : List (Piece α)} {size : Nat}
    (agree : ∀ before piece after, pieces = before ++ piece :: after →
      (expandPieces first before).length < size → piece.text first = piece.text second) :
    (expandPieces first pieces).take size = (expandPieces second pieces).take size := by
  induction pieces generalizing size with
  | nil => rfl
  | cons piece rest induction =>
      cases size with
      | zero => rfl
      | succ size =>
          have here := agree [] piece rest rfl (Nat.succ_pos size)
          rw [expandPieces_cons, expandPieces_cons, here, List.take_append, List.take_append]
          apply congrArg
          apply induction
          intro before other after split short
          apply agree (piece :: before) other after
          · rw [split, List.cons_append]
          · rw [expandPieces_cons, here, List.length_append]
            omega

omit [DecidableEq α] in
theorem countP_expandPieces_le {test : α → Bool} {pieces : List (Piece α)}
    (fewer : ∀ piece ∈ pieces, (piece.text first).countP test ≤ (piece.text second).countP test) :
    (expandPieces first pieces).countP test ≤ (expandPieces second pieces).countP test := by
  induction pieces with
  | nil => exact Nat.le_refl _
  | cons piece rest induction =>
      rw [List.forall_mem_cons] at fewer
      rw [expandPieces_cons, expandPieces_cons, List.countP_append, List.countP_append]
      exact Nat.add_le_add fewer.1 (induction fewer.2)

omit [DecidableEq α] in
theorem countP_piece_eq {test : α → Bool} {pieces : List (Piece α)}
    (fewer : ∀ piece ∈ pieces, (piece.text first).countP test ≤ (piece.text second).countP test)
    (equal : (expandPieces first pieces).countP test = (expandPieces second pieces).countP test) :
    ∀ piece ∈ pieces, (piece.text first).countP test = (piece.text second).countP test := by
  induction pieces with
  | nil => exact fun _ none => nomatch none
  | cons piece rest induction =>
      rw [List.forall_mem_cons] at fewer
      rw [expandPieces_cons, expandPieces_cons, List.countP_append, List.countP_append] at equal
      have others := countP_expandPieces_le fewer.2
      have here := fewer.1
      exact List.forall_mem_cons.mpr ⟨by omega, induction fewer.2 (by omega)⟩

theorem takeWhile_expandPieces {emit : List α → List α} {stop : α} {pieces : List (Piece α)}
    (clean : ∀ name, .named name ∈ pieces → stop ∉ emit name) :
    (expandPieces emit pieces).takeWhile (fun item => decide (item ≠ stop)) =
      expandPieces emit (pieces.takeWhile fun piece => decide (piece ≠ .plain stop)) := by
  induction pieces with
  | nil => rfl
  | cons piece rest induction =>
      have others := induction fun name member => clean name (List.mem_cons_of_mem _ member)
      by_cases ended : piece = .plain stop
      · subst ended
        simp [Piece.text, expandPieces]
      · have whole : ∀ item ∈ piece.text emit, decide (item ≠ stop) = true := by
          intro item member
          cases piece with
          | plain other =>
              rw [Piece.text, List.mem_singleton] at member
              rw [member]
              simpa using ended
          | named name =>
              have outside := clean name List.mem_cons_self
              rw [decide_eq_true_eq]
              rintro rfl
              exact outside member
        rw [expandPieces_cons, List.takeWhile_append_of_pos whole, others,
          List.takeWhile_cons_of_pos (by simpa using ended), expandPieces_cons]

end

end Nodogsplash.Substitution
