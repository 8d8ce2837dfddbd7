import Mathlib.Data.List.TakeWhile

/-! # Buffers of fixed size

A buffer is a list that keeps its length. What is stored in it is read back as the
string before its first terminator, if it has one. -/

namespace Nodogsplash.Buffers

variable {α : Type*}

def overwrite (buffer : List α) (offset : Nat) (piece : List α) : List α :=
  buffer.take offset ++ piece ++ buffer.drop (offset + piece.length)

theorem length_overwrite {buffer piece : List α} {offset : Nat}
    (fits : offset + piece.length ≤ buffer.length) :
    (overwrite buffer offset piece).length = buffer.length := by
  simp only [overwrite, List.length_append, List.length_take, List.length_drop]
  omega

theorem overwrite_append (stored room piece : List α) :
    overwrite (stored ++ room) stored.length piece =
      stored ++ piece ++ room.drop piece.length := by
  rw [overwrite, List.take_left, List.drop_length_add_append]

def fill (terminator : α) (size : Nat) (text : List α) : List α :=
  text.take size ++ List.replicate (size - text.length) terminator

section

variable {terminator : α} {size : Nat} {stored : List α}

@[simp] theorem length_fill (text : List α) : (fill terminator size text).length = size := by
  simp only [fill, List.length_append, List.length_take, List.length_replicate]
  omega

theorem fill_full (full : size ≤ stored.length) (text : List α) :
    fill terminator size (stored ++ text) = fill terminator size stored := by
  have none : size - stored.length = 0 := Nat.sub_eq_zero_of_le full
  have noneMore : size - (stored ++ text).length = 0 := by
    rw [List.length_append]
    omega
  rw [fill, fill, none, noneMore, List.take_append_of_le_length full]

theorem overwrite_fill (room : stored.length ≤ size) (text : List α) :
    overwrite (fill terminator size stored) stored.length (text.take (size - stored.length)) =
      fill terminator size (stored ++ text) := by
  rw [fill, List.take_of_length_le room, overwrite_append, fill, List.take_append,
    List.take_of_length_le room, List.drop_replicate, List.length_take, List.length_append]
  congr 2
  omega

theorem fill_terminator (room : stored.length < size) :
    fill terminator size (stored ++ [terminator]) = fill terminator size stored := by
  have more : size - stored.length = size - (stored ++ [terminator]).length + 1 := by
    rw [List.length_append, List.length_singleton]
    omega
  rw [fill, fill, more, List.replicate_succ, List.take_of_length_le room.le,
    List.take_of_length_le (by rw [List.length_append]; exact room), List.append_assoc,
    List.singleton_append]

theorem overwrite_fill_terminated {text : List α} (room : stored.length + text.length < size) :
    overwrite (fill terminator size stored) stored.length (text ++ [terminator]) =
      fill terminator size (stored ++ text) := by
  have whole : (text ++ [terminator]).take (size - stored.length) = text ++ [terminator] := by
    rw [List.take_of_length_le]
    rw [List.length_append, List.length_singleton]
    omega
  have written : overwrite (fill terminator size stored) stored.length
      ((text ++ [terminator]).take (size - stored.length)) =
        fill terminator size (stored ++ (text ++ [terminator])) := overwrite_fill (by omega) _
  rw [whole] at written
  rw [written, ← List.append_assoc, fill_terminator]
  rwa [List.length_append]

theorem fill_congr {first second : List α} (same : first.take size = second.take size) :
    fill terminator size first = fill terminator size second := by
  have lengths := congrArg List.length same
  rw [List.length_take, List.length_take] at lengths
  rw [fill, fill, same]
  congr 2
  omega

end

variable [DecidableEq α] {terminator : α} {buffer text : List α}

omit [DecidableEq α] in
/-- A terminator is in the buffer if there is room for it or one in what is stored. -/
theorem mem_fill {size : Nat} :
    terminator ∈ fill terminator size text ↔
      text.length < size ∨ terminator ∈ text.take size := by
  rw [fill, List.mem_append, or_comm, List.mem_replicate]
  exact or_congr ⟨fun room => by omega, fun room => ⟨by omega, rfl⟩⟩ Iff.rfl

theorem mem_fill_iff {size : Nat} :
    terminator ∈ fill terminator size text ↔
      (text.takeWhile fun item => decide (item ≠ terminator)).length < size := by
  rw [mem_fill]
  induction text generalizing size with
  | nil => simp
  | cons item rest induction =>
      cases size with
      | zero => simp
      | succ size =>
          rw [List.takeWhile_cons, List.take_succ_cons, List.mem_cons]
          by_cases ended : item = terminator
          · simp [ended]
          · rw [if_pos (by simpa using ended), List.length_cons, List.length_cons,
              Nat.add_lt_add_iff_right, Nat.add_lt_add_iff_right, ← induction]
            simp [Ne.symm ended]

omit [DecidableEq α] in
theorem countP_fill {test : α → Bool} {size : Nat} (ordinary : test terminator = false)
    (room : text.length ≤ size) : (fill terminator size text).countP test = text.countP test := by
  rw [fill, List.take_of_length_le room, List.countP_append, List.countP_replicate, ordinary]
  rfl

/-- The string in a buffer, if it ends there. -/
def string (terminator : α) (buffer : List α) : Option (List α) :=
  if terminator ∈ buffer then some (buffer.takeWhile fun item => decide (item ≠ terminator))
  else none

theorem string_eq_none : string terminator buffer = none ↔ terminator ∉ buffer := by
  rw [string]
  split
  · next member => simp [member]
  · next absent => simp [absent]

theorem string_append {rest : List α} (plain : terminator ∉ text) :
    string terminator (text ++ terminator :: rest) = some text := by
  rw [string, if_pos (List.mem_append_right _ List.mem_cons_self),
    List.takeWhile_append_of_pos]
  · simp
  · intro item member
    have other : item ≠ terminator := fun equal => plain (equal ▸ member)
    simpa using other

theorem length_string_le {index : Nat} (read : string terminator buffer = some text)
    (stops : buffer[index]? = some terminator) : text.length ≤ index := by
  rw [string] at read
  split at read
  · by_contra beyond
    cases read
    have same : (buffer.takeWhile fun item => decide (item ≠ terminator))[index]? =
        some terminator := by
      rcases List.takeWhile_prefix (l := buffer) fun item => decide (item ≠ terminator) with
        ⟨rest, split⟩
      rw [← List.getElem?_append_left (Nat.lt_of_not_le beyond), split]
      exact stops
    have ordinary := List.mem_takeWhile_imp (List.mem_of_getElem? same)
    simp at ordinary
  · cases read

theorem not_mem_string (read : string terminator buffer = some text) : terminator ∉ text := by
  rw [string] at read
  split at read
  · cases read
    intro member
    have ordinary := List.mem_takeWhile_imp member
    simp at ordinary
  · cases read

end Nodogsplash.Buffers
