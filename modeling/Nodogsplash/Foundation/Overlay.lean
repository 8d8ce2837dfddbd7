import Nodogsplash.Foundation.KeyedList

/-! # A program's part of shared lists

Named lists that a program shares with others. Some names and some elements are
its own; what remains without them does not notice what the program does to
them. -/

namespace Nodogsplash.Overlay

variable {κ ρ : Type*}

structure Ownership (κ ρ : Type*) where
  name : κ → Bool
  element : ρ → Bool

def rest (own : Ownership κ ρ) (contents : List (κ × List ρ)) : List (κ × List ρ) :=
  (contents.filter fun part => !own.name part.1).map fun part =>
    (part.1, part.2.filter fun element => !own.element element)

section

variable {own : Ownership κ ρ} {contents : List (κ × List ρ)} {name : κ}

theorem rest_cons (part : κ × List ρ) (contents : List (κ × List ρ)) :
    rest own (part :: contents) =
      if own.name part.1 then rest own contents
      else (part.1, part.2.filter fun element => !own.element element) :: rest own contents := by
  cases owned : own.name part.1 with
  | true => simp [rest, owned]
  | false => simp [rest, owned]

theorem rest_append_own (owned : own.name name = true) (elements : List ρ) :
    rest own (contents ++ [(name, elements)]) = rest own contents := by
  simp [rest, List.filter_append, owned]

theorem rest_eq_self (names : ∀ part ∈ contents, own.name part.1 = false)
    (elements : ∀ part ∈ contents, ∀ element ∈ part.2, own.element element = false) :
    rest own contents = contents := by
  induction contents with
  | nil => rfl
  | cons part contents induction =>
      have kept : part.2.filter (fun element => !own.element element) = part.2 :=
        List.filter_eq_self.mpr fun element member => by
          simp [elements part List.mem_cons_self element member]
      rw [rest_cons, names part List.mem_cons_self, kept,
        induction (fun other member => names other (List.mem_cons_of_mem _ member))
          fun other member => elements other (List.mem_cons_of_mem _ member)]
      rfl

variable [DecidableEq κ]

theorem rest_filter_own (owned : own.name name = true) :
    rest own (contents.filter fun part => decide (part.1 ≠ name)) = rest own contents := by
  induction contents with
  | nil => rfl
  | cons part contents induction =>
      by_cases same : part.1 = name
      · rw [List.filter_cons_of_neg (by simp [same]), induction, rest_cons, same, owned]
        rfl
      · rw [List.filter_cons_of_pos (by simp [same]), rest_cons, rest_cons, induction]

def put (name : κ) (elements : List ρ) (contents : List (κ × List ρ)) : List (κ × List ρ) :=
  KeyedList.update Prod.fst name (fun part => (part.1, elements)) contents

theorem put_same {elements : List ρ} (same : ∀ part ∈ contents, part.1 = name → part.2 = elements) :
    put name elements contents = contents := by
  rw [put, KeyedList.update]
  refine (List.map_congr_left ?_).trans (List.map_id _)
  intro part member
  split
  · next equal => rw [← same part member equal]; rfl
  · rfl

theorem map_fst_put (name : κ) (elements : List ρ) (contents : List (κ × List ρ)) :
    (put name elements contents).map Prod.fst = contents.map Prod.fst := by
  rw [put, KeyedList.map_key_update]
  intro part
  rfl

theorem rest_put_own (owned : own.name name = true) (elements : List ρ) :
    rest own (put name elements contents) = rest own contents := by
  induction contents with
  | nil => rfl
  | cons part contents induction =>
      rw [put, KeyedList.update] at induction ⊢
      rw [List.map_cons, rest_cons, rest_cons, induction]
      by_cases same : part.1 = name
      · rw [if_pos same, same, owned]
        rfl
      · rw [if_neg same]

theorem rest_put (distinct : (contents.map Prod.fst).Nodup) {elements old : List ρ}
    (present : (name, old) ∈ contents)
    (same : elements.filter (fun element => !own.element element) =
      old.filter fun element => !own.element element) :
    rest own (put name elements contents) = rest own contents := by
  rcases KeyedList.exists_split Prod.fst distinct present with
    ⟨before, after, rfl, notBefore, notAfter⟩
  have split := KeyedList.update_split Prod.fst (fun part => (part.1, elements)) (name, old)
    notBefore notAfter
  rw [put, split]
  simp only [rest, List.filter_append, List.filter_cons, List.map_append]
  split
  · simp [same]
  · rfl

end

end Nodogsplash.Overlay
