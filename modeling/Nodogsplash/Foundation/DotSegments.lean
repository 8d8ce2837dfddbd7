import Nodogsplash.Foundation.LexicalPath

/-! # Paths without dot segments

A user agent takes the segments `.` and `..` out of a path before it asks for it.
The path gets shorter by that, or it had no such segment. -/

namespace Nodogsplash.LexicalPath

variable {α : Type*} [DecidableEq α] (separator dot : α)

/-- The segments that are left behind those in `kept`. A last segment of dots leaves
an empty one. -/
def removeDots (kept : List (List α)) : List (List α) → List (List α)
  | [] => kept
  | [name] =>
      if name = [dot] then kept ++ [[]]
      else if name = [dot, dot] then kept.dropLast ++ [[]]
      else kept ++ [name]
  | name :: next :: rest =>
      if name = [dot] then removeDots kept (next :: rest)
      else if name = [dot, dot] then removeDots kept.dropLast (next :: rest)
      else removeDots (kept ++ [name]) (next :: rest)

def removeDotSegments (path : List α) : List α :=
  separator :: [separator].intercalate (removeDots dot [] (segments separator path.tail))

example : removeDotSegments '/' '.' "/a/./b/../../g".toList = "/g".toList := by decide +kernel
example : removeDotSegments '/' '.' "/a/..".toList = "/".toList := by decide +kernel

def NoDots (names : List (List α)) : Prop := ∀ name ∈ names, name ≠ [dot] ∧ name ≠ [dot, dot]

def weight (names : List (List α)) : Nat := (names.map fun name => name.length + 1).sum

variable {separator dot}

section

omit [DecidableEq α]

theorem noDots_cons {name : List α} {names : List (List α)} :
    NoDots dot (name :: names) ↔ (name ≠ [dot] ∧ name ≠ [dot, dot]) ∧ NoDots dot names :=
  List.forall_mem_cons

@[simp] theorem weight_append (first rest : List (List α)) :
    weight (first ++ rest) = weight first + weight rest := by
  simp [weight]

@[simp] theorem weight_cons (name : List α) (names : List (List α)) :
    weight (name :: names) = name.length + 1 + weight names := by
  simp [weight]

@[simp] theorem weight_nil : weight ([] : List (List α)) = 0 := rfl

theorem weight_dropLast_le (names : List (List α)) : weight names.dropLast ≤ weight names := by
  rcases List.eq_nil_or_concat names with rfl | ⟨others, name, rfl⟩
  · exact Nat.le_refl _
  · rw [List.concat_eq_append, List.dropLast_concat, weight_append]
    exact Nat.le_add_right _ _

theorem length_intercalate_segments {names : List (List α)} (nonempty : names ≠ [])
    (separator : α) : ([separator].intercalate names).length + 1 = weight names := by
  induction names with
  | nil => exact absurd rfl nonempty
  | cons name names induction =>
      cases names with
      | nil => simp [List.intercalate]
      | cons next rest =>
          have others := induction (List.cons_ne_nil _ _)
          rw [List.intercalate_cons_cons, List.length_append, List.length_append, weight_cons,
            ← others, List.length_singleton]
          omega

end

theorem removeDots_ne_nil {names : List (List α)} (nonempty : names ≠ [])
    (kept : List (List α)) : removeDots dot kept names ≠ [] := by
  induction names generalizing kept with
  | nil => exact absurd rfl nonempty
  | cons name names induction =>
      cases names with
      | nil =>
          rw [removeDots]
          split
          · simp
          · split <;> simp
      | cons next rest =>
          have others := induction (List.cons_ne_nil next rest)
          rw [removeDots]
          split
          · exact others kept
          · split
            · exact others kept.dropLast
            · exact others (kept ++ [name])

variable (separator dot)

/-- Either there is nothing to remove, or what is left is shorter. -/
theorem removeDots_cases {names : List (List α)} (nonempty : names ≠ [])
    (kept : List (List α)) :
    (NoDots dot names ∧ removeDots dot kept names = kept ++ names) ∨
      (¬ NoDots dot names ∧ weight (removeDots dot kept names) < weight kept + weight names) := by
  induction names generalizing kept with
  | nil => exact absurd rfl nonempty
  | cons name names induction =>
      have shrinks := weight_dropLast_le kept
      rw [noDots_cons]
      cases names with
      | nil =>
          rw [removeDots]
          split
          · next single => simp [single]
          · next notDot =>
              split
              · next parent =>
                  refine .inr ⟨fun clean => clean.1.2 parent, ?_⟩
                  simp only [parent, weight_append, weight_cons, weight_nil, List.length_nil,
                    List.length_cons]
                  omega
              · next notParent =>
                  exact .inl ⟨⟨⟨notDot, notParent⟩, fun _ none => nomatch none⟩, rfl⟩
      | cons next rest =>
          have others := induction (List.cons_ne_nil next rest)
          -- whatever is removed of the others, they do not get longer
          have bounded (kept : List (List α)) :
              weight (removeDots dot kept (next :: rest)) ≤
                weight kept + weight (next :: rest) := by
            rcases others kept with ⟨_, same⟩ | ⟨_, shorter⟩
            · exact Nat.le_of_eq (by rw [same, weight_append])
            · exact Nat.le_of_lt shorter
          rw [removeDots, weight_cons name]
          split
          · next single =>
              have bound := bounded kept
              exact .inr ⟨fun clean => clean.1.1 single, by omega⟩
          · next notDot =>
              split
              · next parent =>
                  have bound := bounded kept.dropLast
                  exact .inr ⟨fun clean => clean.1.2 parent, by omega⟩
              · next notParent =>
                  rcases others (kept ++ [name]) with ⟨clean, same⟩ | ⟨dirty, shorter⟩
                  · left
                    refine ⟨⟨⟨notDot, notParent⟩, clean⟩, ?_⟩
                    rw [same, List.append_assoc, List.singleton_append]
                  · right
                    refine ⟨fun clean => dirty clean.2, ?_⟩
                    simp only [weight_append, weight_cons, weight_nil] at shorter ⊢
                    omega

theorem removeDotSegments_cases (path : List α) :
    (NoDots dot (segments separator path) ∧
      removeDotSegments separator dot (separator :: path) = separator :: path) ∨
    (¬ NoDots dot (segments separator path) ∧
      (removeDotSegments separator dot (separator :: path)).length < path.length + 1) := by
  have nonempty : segments separator path ≠ [] := List.splitOn_ne_nil separator path
  have whole : [separator].intercalate (segments separator path) = path :=
    List.intercalate_splitOn separator
  have size := length_intercalate_segments nonempty separator
  rw [whole] at size
  rw [removeDotSegments, List.tail_cons, List.length_cons]
  rcases removeDots_cases dot nonempty [] with ⟨clean, same⟩ | ⟨dirty, shorter⟩
  · rw [same, List.nil_append, whole]
    exact .inl ⟨clean, rfl⟩
  · right
    rw [length_intercalate_segments (removeDots_ne_nil nonempty []) separator, size]
    exact ⟨dirty, by simpa using shorter⟩

theorem removeDotSegments_of_noDots {path : List α} (clean : NoDots dot (segments separator path)) :
    removeDotSegments separator dot (separator :: path) = separator :: path := by
  rcases removeDotSegments_cases separator dot path with
    ⟨_, same⟩ | ⟨dirty, _⟩
  · exact same
  · exact absurd clean dirty

end Nodogsplash.LexicalPath
