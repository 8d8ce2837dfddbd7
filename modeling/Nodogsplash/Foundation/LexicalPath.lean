import Mathlib.Algebra.GroupWithZero.Nat
import Mathlib.Tactic.Common

/-! # Paths as texts

A path is a list of characters with a separator between its segments. It is
resolved segment by segment, without looking at a file system: the empty segment
and the dot stay, two dots go to the parent, any other segment goes down. -/

namespace Nodogsplash.LexicalPath

variable {α : Type*} [DecidableEq α] (separator dot : α)

def segments (path : List α) : List (List α) := path.splitOn separator

/-- From a location, given by its names from the innermost to the outermost, to
where a segment leads. The root is its own parent. -/
def enter (location : List (List α)) (segment : List α) : List (List α) :=
  if segment = [] ∨ segment = [dot] then location
  else if segment = [dot, dot] then location.tail
  else segment :: location

def resolve (location : List (List α)) (path : List α) : List (List α) :=
  (segments separator path).foldl (enter dot) location

variable {separator dot}

theorem segments_append (first rest : List α) :
    segments separator (first ++ separator :: rest) =
      segments separator first ++ segments separator rest :=
  List.splitOn_append_cons_self first rest

theorem segments_of_plain {name : List α} (plain : separator ∉ name) :
    segments separator name = [name] :=
  List.splitOn_eq_singleton plain

theorem segments_cons_of_plain {name : List α} (plain : separator ∉ name) (rest : List α) :
    segments separator (name ++ separator :: rest) = name :: segments separator rest := by
  rw [segments_append, segments_of_plain plain, List.singleton_append]

theorem separator_not_mem_segments {path name : List α}
    (member : name ∈ segments separator path) : separator ∉ name := by
  rw [segments] at member
  induction path generalizing name with
  | nil =>
      rw [List.splitOn_nil, List.mem_singleton] at member
      simp [member]
  | cons char rest induction =>
      rw [List.splitOn_cons_eq_if_modifyHead] at member
      split at member
      · rcases List.mem_cons.mp member with rfl | later
        · simp
        · exact induction later
      · next other =>
          cases parts : rest.splitOn separator with
          | nil => exact absurd parts (List.splitOn_ne_nil separator rest)
          | cons first others =>
              rw [parts, List.modifyHead_cons] at member
              rcases List.mem_cons.mp member with rfl | later
              · have notFirst := induction (parts ▸ List.mem_cons_self)
                simp only [List.mem_cons, not_or]
                exact ⟨fun equal => other (beq_iff_eq.mpr equal.symm), notFirst⟩
              · exact induction (parts ▸ List.mem_cons_of_mem _ later)

/-- A path that is continued is resolved from where its first part leads. -/
theorem resolve_append (location : List (List α)) (first rest : List α) :
    resolve separator dot location (first ++ separator :: rest) =
      resolve separator dot (resolve separator dot location first) rest := by
  rw [resolve, segments_append, List.foldl_append]
  rfl

theorem suffix_enter {segment : List α} (noParent : segment ≠ [dot, dot])
    (location : List (List α)) : location <:+ enter dot location segment := by
  rw [enter, if_neg noParent]
  split
  · exact List.suffix_refl _
  · exact List.suffix_cons _ _

theorem suffix_resolve {path : List α} (noParent : [dot, dot] ∉ segments separator path)
    (location : List (List α)) : location <:+ resolve separator dot location path := by
  rw [resolve]
  generalize segments separator path = names at noParent
  induction names generalizing location with
  | nil => exact List.suffix_refl _
  | cons name names induction =>
      rw [List.mem_cons, not_or] at noParent
      exact (suffix_enter (Ne.symm noParent.1) location).trans (induction _ noParent.2)

end Nodogsplash.LexicalPath
