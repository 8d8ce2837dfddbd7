import Mathlib.Data.List.DropRight
import Mathlib.Tactic.Common
import Nodogsplash.Foundation.Buffers

/-! # Strings stored in a memory

A string begins at a position of a memory and ends at the first terminator from there on.
Readers that cut a string in place store terminators in it. -/

namespace Nodogsplash.StoredStrings

open Buffers

variable {α : Type*} [DecidableEq α] (terminator : α)

def textAt (memory : List α) (position : Nat) : List α :=
  (memory.drop position).takeWhile fun item => decide (item ≠ terminator)

/-- Step over the items of the string that meet a condition. -/
def advance (condition : α → Bool) (memory : List α) (position : Nat) : Nat :=
  position + ((textAt terminator memory position).takeWhile condition).length

omit [DecidableEq α] in
def terminate (memory : List α) (position : Nat) : List α :=
  overwrite memory position [terminator]

def trimEnd (condition : α → Bool) (memory : List α) (position : Nat) : List α :=
  let text := textAt terminator memory position
  let kept := text.rdropWhile condition
  overwrite memory (position + kept.length)
    (List.replicate (text.length - kept.length) terminator)

/-- A string stands at the position, and `rest` behind its terminator. -/
structure Holds (memory : List α) (position : Nat) (text rest : List α) : Prop where
  split : memory.drop position = text ++ terminator :: rest
  plain : terminator ∉ text

omit [DecidableEq α] in
theorem drop_overwrite {memory piece : List α} {position offset : Nat}
    (inside : position + offset ≤ memory.length) :
    (overwrite memory (position + offset) piece).drop position =
      overwrite (memory.drop position) offset piece := by
  have room : position ≤ (memory.take (position + offset)).length := by
    rw [List.length_take]
    omega
  rw [overwrite, overwrite, List.append_assoc, List.drop_append_of_le_length room, List.drop_take,
    List.drop_drop, Nat.add_sub_cancel_left, List.append_assoc, Nat.add_assoc]

variable {terminator}

theorem holds_textAt {memory : List α} {position : Nat}
    (ends : terminator ∈ memory.drop position) :
    Holds terminator memory position (textAt terminator memory position)
      (memory.drop (position + (textAt terminator memory position).length + 1)) := by
  have parts := List.takeWhile_append_dropWhile (p := fun item => decide (item ≠ terminator))
    (l := memory.drop position)
  have plain : terminator ∉ textAt terminator memory position := by
    intro member
    have other := List.mem_takeWhile_imp member
    simp at other
  cases shape : (memory.drop position).dropWhile fun item => decide (item ≠ terminator) with
  | nil =>
      rw [shape, List.append_nil] at parts
      rw [← parts] at ends
      exact absurd ends plain
  | cons item rest =>
      have same : item = terminator := by
        have stops := List.head?_dropWhile_not (fun item => decide (item ≠ terminator))
          (memory.drop position)
        rw [shape] at stops
        simpa using stops
      rw [shape, same] at parts
      have split : memory.drop position = textAt terminator memory position ++ terminator :: rest :=
        parts.symm
      refine ⟨?_, plain⟩
      rw [Nat.add_assoc, ← List.drop_drop]
      conv_rhs => rw [split, List.drop_length_add_append, List.drop_one, List.tail_cons]
      exact split

/-- What is left of the string behind the items that are stepped over. -/
theorem textAt_advance (condition : α → Bool) (memory : List α) (position : Nat) :
    textAt terminator memory (advance terminator condition memory position) =
      (textAt terminator memory position).dropWhile condition := by
  rw [textAt, advance, ← List.drop_drop, textAt]
  induction memory.drop position with
  | nil => rfl
  | cons item rest induction =>
      by_cases ended : item = terminator
      · simp [ended]
      · rw [List.takeWhile_cons_of_pos (by simpa using ended)]
        cases meets : condition item with
        | true =>
            rw [List.takeWhile_cons_of_pos meets, List.length_cons, List.drop_succ_cons, induction,
              List.dropWhile_cons_of_pos meets]
        | false =>
            rw [List.takeWhile_cons_of_neg (by simp [meets]),
              List.dropWhile_cons_of_neg (by simp [meets]), List.length_nil, List.drop_zero,
              List.takeWhile_cons_of_pos (by simpa using ended)]

namespace Holds

variable {memory : List α} {position : Nat} {text front back rest : List α}

omit [DecidableEq α] in
theorem inside (holds : Holds terminator memory position text rest) :
    position + text.length < memory.length := by
  have lengths := congrArg List.length holds.split
  rw [List.length_drop, List.length_append, List.length_cons] at lengths
  omega

theorem textAt_eq (holds : Holds terminator memory position text rest) :
    textAt terminator memory position = text := by
  rw [textAt, holds.split, List.takeWhile_append_of_pos]
  · simp
  · intro item member
    have other : item ≠ terminator := fun equal => holds.plain (equal ▸ member)
    simpa using other

omit [DecidableEq α] in
theorem suffix (holds : Holds terminator memory position (front ++ text) rest) :
    Holds terminator memory (position + front.length) text rest where
  split := by
    rw [← List.drop_drop, holds.split, List.append_assoc, List.drop_left]
  plain member := holds.plain (List.mem_append_right front member)

theorem advance_eq (holds : Holds terminator memory position text rest) (condition : α → Bool) :
    advance terminator condition memory position =
      position + (text.takeWhile condition).length := by
  rw [advance, holds.textAt_eq]

theorem advance (holds : Holds terminator memory position text rest) (condition : α → Bool) :
    Holds terminator memory (advance terminator condition memory position)
      (text.dropWhile condition) rest := by
  rw [holds.advance_eq]
  apply suffix
  rwa [List.takeWhile_append_dropWhile]

omit [DecidableEq α] in
theorem behind (holds : Holds terminator memory position text rest) :
    memory.drop (position + text.length + 1) = rest := by
  rw [Nat.add_assoc, ← List.drop_drop, holds.split, List.drop_length_add_append,
    List.drop_one, List.tail_cons]

omit [DecidableEq α] in
theorem drop_overwrite (holds : Holds terminator memory position (front ++ back) rest)
    (piece : List α) :
    (overwrite memory (position + front.length) piece).drop position =
      front ++ piece ++ (back ++ terminator :: rest).drop piece.length := by
  have inside := holds.inside
  rw [List.length_append] at inside
  rw [StoredStrings.drop_overwrite (by omega), holds.split, List.append_assoc, overwrite_append]

omit [DecidableEq α] in
/-- What stands behind a place in the string, and behind its terminator. -/
theorem drop_front (holds : Holds terminator memory position (front ++ back) rest) :
    memory.drop (position + front.length) = back ++ terminator :: rest :=
  (suffix holds).split

omit [DecidableEq α] in
theorem terminate (holds : Holds terminator memory position (front ++ back) rest) :
    Holds terminator (terminate terminator memory (position + front.length)) position front
      (memory.drop (position + front.length + 1)) where
  split := by
    rw [StoredStrings.terminate, holds.drop_overwrite, List.length_singleton, List.append_assoc,
      List.singleton_append, ← List.drop_drop, holds.drop_front]
  plain member := holds.plain (List.mem_append_left back member)

omit [DecidableEq α] in
theorem second {item : α} (holds : Holds terminator memory position (front ++ item :: text) rest) :
    Holds terminator (StoredStrings.terminate terminator memory (position + front.length))
      (position + front.length + 1) text rest where
  split := by
    rw [holds.terminate.behind, ← List.drop_drop, holds.drop_front, List.cons_append,
      List.drop_one, List.tail_cons]
  plain member := holds.plain (List.mem_append_right front (List.mem_cons_of_mem item member))

theorem trimEnd (holds : Holds terminator memory position text rest) (condition : α → Bool) :
    Holds terminator (trimEnd terminator condition memory position) position
      (text.rdropWhile condition)
      ((text.rtakeWhile condition).map (fun _ => terminator) ++ rest) := by
  have parts : text.rdropWhile condition ++ text.rtakeWhile condition = text := by
    rw [List.rdropWhile, List.rtakeWhile, ← List.reverse_append, List.takeWhile_append_dropWhile,
      List.reverse_reverse]
  have count : text.length - (text.rdropWhile condition).length =
      (text.rtakeWhile condition).length := by
    have lengths := congrArg List.length parts
    rw [List.length_append] at lengths
    omega
  have whole := holds
  rw [← parts] at whole
  constructor
  · rw [StoredStrings.trimEnd, holds.textAt_eq, count, whole.drop_overwrite,
      List.length_replicate, List.drop_left, List.map_const', List.append_assoc,
      ← List.singleton_append, ← List.append_assoc (List.replicate _ _),
      ← List.replicate_succ', List.replicate_succ, List.cons_append]
  · exact fun member => holds.plain ((List.rdropWhile_prefix condition text).subset member)

end Holds

end Nodogsplash.StoredStrings
