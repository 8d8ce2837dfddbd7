import Nodogsplash.Foundation.DotSegments
import Nodogsplash.PathSafety

/-! # The paths that stay as they are

`buffer_path_simplify` copies a path whose segments are names, and makes any other
that begins with a slash shorter. -/

namespace Nodogsplash

open LexicalPath

/-- No segment is a dot or two, and only the last may be empty. -/
def CleanSegments (names : List (List Char)) : Prop :=
  NoDots '.' names ∧ [] ∉ names.dropLast

instance (names : List (List Char)) : Decidable (CleanSegments names) := by
  unfold CleanSegments NoDots
  infer_instance

def CleanPath (path : List Char) : Prop := CleanSegments (segments '/' path)

instance (path : List Char) : Decidable (CleanPath path) :=
  inferInstanceAs (Decidable (CleanSegments (segments '/' path)))

/-! ## One token -/

/-- The last two characters of a text that begins with `char`. -/
def lastTwo (before char : Char) : List Char → Char × Char
  | [] => (before, char)
  | next :: rest => lastTwo char next rest

def endedToken (before : Char) (out : List Char) (slash : Nat) (char : Char) (name : List Char)
    (final : Bool) : List Char :=
  (out ++ char :: name).take (tokenEnd (out ++ char :: name) slash
    (lastTwo before char name).1 (lastTwo before char name).2 final)

theorem simplifyLoop_last (before : Char) (out : List Char) (slash : Nat) (char : Char)
    {name : List Char} (plain : '/' ∉ name) :
    simplifyLoop before out slash (char :: name) = endedToken before out slash char name true := by
  induction name generalizing before char out with
  | nil => rfl
  | cons next name induction =>
      rw [List.mem_cons, not_or] at plain
      have others := induction char (out ++ [char]) next plain.2
      rw [simplifyLoop, List.head?_cons]
      split
      · next none => cases none
      · next slashed => exact absurd (Option.some.inj slashed).symm plain.1
      · rw [others, endedToken, endedToken, lastTwo, List.append_assoc, List.singleton_append]

theorem simplifyLoop_next (before : Char) (out : List Char) (slash : Nat) (char : Char)
    {name : List Char} (plain : '/' ∉ name) (rest : List Char) :
    simplifyLoop before out slash (char :: (name ++ '/' :: rest)) =
      simplifyLoop (lastTwo before char name).2 (endedToken before out slash char name false)
        (endedToken before out slash char name false).length ('/' :: rest) := by
  induction name generalizing before char out with
  | nil => rfl
  | cons next name induction =>
      rw [List.mem_cons, not_or] at plain
      have others := induction char (out ++ [char]) next plain.2
      rw [simplifyLoop, List.cons_append, List.head?_cons]
      split
      · next none => cases none
      · next slashed => exact absurd (Option.some.inj slashed).symm plain.1
      · rw [others, endedToken, endedToken, lastTwo, List.append_assoc, List.singleton_append]

theorem lastTwo_fst_ne {before char : Char} {name : List Char} (first : before ≠ '/')
    (second : char ≠ '/') (plain : '/' ∉ name) : (lastTwo before char name).1 ≠ '/' := by
  induction name generalizing before char with
  | nil => exact first
  | cons next name induction =>
      rw [List.mem_cons, not_or] at plain
      exact induction second (Ne.symm plain.1) plain.2

theorem tokenEnd_name (before : Char) (out : List Char) {name : List Char}
    (plain : '/' ∉ name) (nonempty : name ≠ []) (noDots : name ≠ ['.'] ∧ name ≠ ['.', '.'])
    (final : Bool) :
    tokenEnd (out ++ '/' :: name) out.length (lastTwo before '/' name).1
      (lastTwo before '/' name).2 final = (out ++ '/' :: name).length := by
  match name, nonempty with
  | [first], _ =>
      have other : first ≠ '.' := by simpa using noDots.1
      simp [tokenEnd, lastTwo, other]
  | first :: second :: rest, _ =>
      simp only [List.mem_cons, not_or] at plain
      have slash : (lastTwo first second rest).1 ≠ '/' :=
        lastTwo_fst_ne (Ne.symm plain.1) (Ne.symm plain.2.1) plain.2.2
      cases rest with
      | nil =>
          have other : ¬ (first = '.' ∧ second = '.') := fun dots =>
            noDots.2 (by rw [dots.1, dots.2])
          simp only [lastTwo] at slash
          simp [tokenEnd, lastTwo, slash]
          intro dot another
          exact absurd ⟨of_decide_eq_true dot, of_decide_eq_true another⟩ other
      | cons third rest =>
          have ended : (lastTwo before '/' (first :: second :: third :: rest)).1 ≠ '/' := slash
          simp [tokenEnd, ended]

theorem endedToken_name (before : Char) (out : List Char) {name : List Char}
    (plain : '/' ∉ name) (nonempty : name ≠ []) (noDots : name ≠ ['.'] ∧ name ≠ ['.', '.'])
    (final : Bool) :
    endedToken before out out.length '/' name final = out ++ '/' :: name := by
  rw [endedToken, tokenEnd_name before out plain nonempty noDots final, List.take_length]

/-- A segment of dots, or an empty one before another, is not kept. -/
theorem length_endedToken_lt (before : Char) (out : List Char) {name : List Char} {final : Bool}
    (removed : name = ['.'] ∨ name = ['.', '.'] ∨ name = [] ∧ final = false) :
    (endedToken before out out.length '/' name final).length < (out ++ '/' :: name).length := by
  have one : (if final then 1 else 0) ≤ 1 := by
    cases final <;> simp
  have back (position : Nat) : lastSlash (out ++ '/' :: name) position ≤ position := by
    rcases lastSlash_cases (out ++ '/' :: name) position with ⟨_, below⟩ | start
    · exact below
    · omega
  rw [endedToken, List.length_take]
  refine lt_of_le_of_lt (min_le_left _ _) ?_
  rcases removed with rfl | rfl | ⟨rfl, rfl⟩
  · simp [tokenEnd, lastTwo]
    omega
  · have below := back (out.length - 1)
    simp [tokenEnd, lastTwo] at below ⊢
    split <;> omega
  · simp [tokenEnd, lastTwo]

/-! ## The path -/

theorem cleanSegments_cons {name next : List Char} {rest : List (List Char)} :
    CleanSegments (name :: next :: rest) ↔
      (name ≠ [] ∧ name ≠ ['.'] ∧ name ≠ ['.', '.']) ∧ CleanSegments (next :: rest) := by
  rw [CleanSegments, CleanSegments, noDots_cons, List.dropLast_cons_cons, List.mem_cons, not_or,
    ne_comm (a := name) (b := [])]
  constructor
  · rintro ⟨⟨noDots, others⟩, nonempty, noEmpty⟩
    exact ⟨⟨nonempty, noDots⟩, others, noEmpty⟩
  · rintro ⟨⟨nonempty, noDots⟩, others, noEmpty⟩
    exact ⟨⟨noDots, others⟩, nonempty, noEmpty⟩

theorem cleanSegments_singleton {name : List Char} :
    CleanSegments [name] ↔ name ≠ ['.'] ∧ name ≠ ['.', '.'] := by
  simp [CleanSegments, NoDots]

/-- From the end of a token on, the segments are copied, or something is removed. -/
theorem simplifyLoop_cases {names : List (List Char)} (nonempty : names ≠ [])
    (plain : ∀ name ∈ names, '/' ∉ name) (before : Char) (out : List Char) :
    (CleanSegments names ∧
      simplifyLoop before out out.length ('/' :: ['/'].intercalate names) =
        out ++ '/' :: ['/'].intercalate names) ∨
    (¬ CleanSegments names ∧
      (simplifyLoop before out out.length ('/' :: ['/'].intercalate names)).length <
        out.length + (['/'].intercalate names).length + 1) := by
  induction names generalizing before out with
  | nil => exact absurd rfl nonempty
  | cons name names induction =>
      have plainName := plain name List.mem_cons_self
      cases names with
      | nil =>
          rw [List.intercalate_singleton, simplifyLoop_last before out out.length '/' plainName,
            cleanSegments_singleton]
          by_cases dots : name = ['.'] ∨ name = ['.', '.']
          · have shorter : (endedToken before out out.length '/' name true).length <
                (out ++ '/' :: name).length :=
              length_endedToken_lt before out (dots.imp_right .inl)
            rw [List.length_append, List.length_cons] at shorter
            exact .inr ⟨not_and_or.mpr (dots.imp not_not.mpr not_not.mpr), shorter⟩
          · rw [not_or] at dots
            refine .inl ⟨dots, ?_⟩
            by_cases empty : name = []
            · rw [empty]
              simp [endedToken, tokenEnd, lastTwo]
            · exact endedToken_name before out plainName empty dots true
      | cons next rest =>
          have others := induction (List.cons_ne_nil next rest)
            (fun other member => plain other (List.mem_cons_of_mem _ member))
            (lastTwo before '/' name).2 (endedToken before out out.length '/' name false)
          rw [List.intercalate_cons_cons, List.append_assoc, List.singleton_append,
            simplifyLoop_next before out out.length '/' plainName, cleanSegments_cons]
          by_cases kept : name ≠ [] ∧ name ≠ ['.'] ∧ name ≠ ['.', '.']
          · rw [endedToken_name before out plainName kept.1 kept.2 false] at others ⊢
            rcases others with ⟨clean, same⟩ | ⟨dirty, shorter⟩
            · refine .inl ⟨⟨kept, clean⟩, ?_⟩
              rw [same, List.append_assoc, List.cons_append]
            · refine .inr ⟨fun clean => dirty clean.2, ?_⟩
              simp only [List.length_append, List.length_cons] at shorter ⊢
              omega
          · have removed : name = ['.'] ∨ name = ['.', '.'] ∨ name = [] ∧ false = false := by
              simp only [and_true]
              tauto
            have shorter := length_endedToken_lt before out removed
            have bound := length_simplifyLoop_le (lastTwo before '/' name).2
              (endedToken before out out.length '/' name false)
              (endedToken before out out.length '/' name false).length
              ('/' :: ['/'].intercalate (next :: rest))
            refine .inr ⟨fun clean => kept clean.1, ?_⟩
            simp only [List.length_append, List.length_cons] at shorter bound ⊢
            omega

/-- A path that begins with a slash is clean, or it gets shorter. -/
theorem bufferPathSimplify_cases (path : List Char) :
    (CleanPath path ∧ bufferPathSimplify (String.ofList ('/' :: path)) =
      String.ofList ('/' :: path)) ∨
    (¬ CleanPath path ∧
      (bufferPathSimplify (String.ofList ('/' :: path))).length < path.length + 1) := by
  have whole : ['/'].intercalate (segments '/' path) = path := List.intercalate_splitOn '/'
  have loop := simplifyLoop_cases (List.splitOn_ne_nil '/' path)
    (fun _ member => separator_not_mem_segments member) '\x00' []
  rw [segments] at whole
  rw [whole, List.length_nil, List.nil_append] at loop
  have start : bufferPathSimplify (String.ofList ('/' :: path)) =
      String.ofList (simplifyLoop '\x00' [] 0 ('/' :: path)) := by
    rw [bufferPathSimplify, String.toList_ofList]
    rfl
  rw [start, String.length_ofList]
  rcases loop with ⟨clean, same⟩ | ⟨dirty, shorter⟩
  · exact .inl ⟨clean, by rw [same]⟩
  · exact .inr ⟨dirty, by omega⟩

end Nodogsplash
