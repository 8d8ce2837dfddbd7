import Mathlib.Data.List.Basic
import Mathlib.Data.List.TakeWhile
import Mathlib.Tactic.Common

/-! # Words of a text

The words of a text are its nonempty pieces between separators. A reader takes the first
word of a trimmed text off and has the others in a trimmed text. -/

namespace Nodogsplash.Words

variable {α : Type*} {separator : α → Bool}

def words (separator : α → Bool) (text : List α) : List (List α) :=
  (text.splitOnP separator).filter fun piece => !piece.isEmpty

structure Trimmed (separator : α → Bool) (text : List α) : Prop where
  first : ∀ element ∈ text.head?, separator element = false
  last : ∀ element ∈ text.getLast?, separator element = false

def firstWord (separator : α → Bool) (text : List α) : List α :=
  text.takeWhile fun element => !separator element

def otherWords (separator : α → Bool) (text : List α) : List α :=
  ((text.dropWhile fun element => !separator element).drop 1).dropWhile separator

@[simp] theorem words_nil : words separator ([] : List α) = [] := rfl

theorem words_cons_of_separator {element : α} (separates : separator element = true)
    (text : List α) : words separator (element :: text) = words separator text := by
  rw [words, words, List.splitOnP_cons_eq_if_modifyHead, if_pos separates]
  rfl

theorem words_dropWhile (text : List α) :
    words separator (text.dropWhile separator) = words separator text := by
  induction text with
  | nil => rfl
  | cons element text induction =>
      cases separates : separator element with
      | true => rw [List.dropWhile_cons_of_pos separates, induction,
          words_cons_of_separator separates]
      | false => rw [List.dropWhile_cons_of_neg (by simp [separates])]

theorem words_append {word rest : List α} (nonempty : word ≠ [])
    (plain : ∀ element ∈ word, separator element = false)
    (apart : ∀ element ∈ rest.head?, separator element = true) :
    words separator (word ++ rest) = word :: words separator rest := by
  cases rest with
  | nil => simp [words, List.splitOnP_eq_singleton plain, nonempty]
  | cons element rest =>
      have separates : separator element = true := apart element rfl
      rw [words_cons_of_separator separates, words,
        List.splitOnP_append_cons_of_forall_mem plain element separates]
      simp [words, nonempty]

theorem plain_of_mem_splitOnP {text piece : List α} (member : piece ∈ text.splitOnP separator) :
    ∀ element ∈ piece, separator element = false := by
  induction text generalizing piece with
  | nil =>
      rw [List.splitOnP_nil, List.mem_singleton] at member
      rw [member]
      exact fun _ => nofun
  | cons element text induction =>
      rw [List.splitOnP_cons_eq_if_modifyHead] at member
      split at member
      · rcases List.mem_cons.mp member with rfl | later
        · exact fun _ => nofun
        · exact induction later
      · next plain =>
          rcases List.exists_cons_of_ne_nil (List.splitOnP_ne_nil separator text) with
            ⟨first, rest, pieces⟩
          rw [pieces, List.modifyHead_cons] at member
          rcases List.mem_cons.mp member with rfl | later
          · have others := induction (pieces ▸ List.mem_cons_self)
            exact List.forall_mem_cons.mpr ⟨by simpa using plain, others⟩
          · exact induction (pieces ▸ List.mem_cons_of_mem _ later)

theorem mem_words {text word : List α} (member : word ∈ words separator text) :
    word ≠ [] ∧ ∀ element ∈ word, separator element = false := by
  rcases List.mem_filter.mp member with ⟨piece, nonempty⟩
  exact ⟨by simpa using nonempty, plain_of_mem_splitOnP piece⟩

theorem words_map {β : Type*} {target : β → Bool} {change : α → β}
    (keeps : ∀ element, target (change element) = separator element) (text : List α) :
    words target (text.map change) = (words separator text).map (List.map change) := by
  have pieces : (text.map change).splitOnP target =
      (text.splitOnP separator).map (List.map change) := by
    induction text with
    | nil => rfl
    | cons element text induction =>
        rcases List.exists_cons_of_ne_nil (List.splitOnP_ne_nil separator text) with
          ⟨first, rest, split⟩
        rw [List.map_cons, List.splitOnP_cons_eq_if_modifyHead, List.splitOnP_cons_eq_if_modifyHead,
          keeps, induction, split]
        cases separator element <;> rfl
  rw [words, words, pieces, List.filter_map]
  congr 2
  funext piece
  simp

theorem isPrefixOf_firstWord [DecidableEq α] {front : List α}
    (plain : ∀ element ∈ front, separator element = false) (text : List α) :
    front.isPrefixOf (firstWord separator text) = front.isPrefixOf text := by
  induction front generalizing text with
  | nil => rfl
  | cons element front induction =>
      rcases List.forall_mem_cons.mp plain with ⟨first, others⟩
      cases text with
      | nil => rfl
      | cons other text =>
          by_cases same : element = other
          · subst same
            rw [firstWord, List.takeWhile_cons_of_pos (by simp [first]), List.isPrefixOf_cons_cons,
              List.isPrefixOf_cons_cons]
            exact congrArg _ (induction others text)
          · have differ : (element == other) = false := by simpa using same
            rw [firstWord, List.takeWhile_cons]
            split
            · rw [List.isPrefixOf_cons_cons, List.isPrefixOf_cons_cons, differ]
              rfl
            · rw [List.isPrefixOf_cons_cons, differ]
              rfl

theorem head_dropWhile (keep : α → Bool) (text : List α) :
    ∀ element ∈ (text.dropWhile keep).head?, keep element = false := by
  intro element head
  have stopped := List.head?_dropWhile_not keep text
  rwa [Option.mem_def.mp head] at stopped

namespace Trimmed

variable {text : List α}

theorem map {β : Type*} {target : β → Bool} {change : α → β} (trimmed : Trimmed separator text)
    (keeps : ∀ element, target (change element) = separator element) :
    Trimmed target (text.map change) where
  first := by
    intro element head
    rw [List.head?_map] at head
    rcases Option.map_eq_some_iff.mp head with ⟨source, first, rfl⟩
    rw [keeps, trimmed.first source first]
  last := by
    intro element final
    rw [List.getLast?_map] at final
    rcases Option.map_eq_some_iff.mp final with ⟨source, last, rfl⟩
    rw [keeps, trimmed.last source last]

theorem firstWord_eq_nil_iff (trimmed : Trimmed separator text) :
    firstWord separator text = [] ↔ text = [] := by
  cases text with
  | nil => exact Iff.rfl
  | cons element text =>
      rw [firstWord, List.takeWhile_cons_of_pos (by simp [trimmed.first element rfl])]
      exact iff_of_false (List.cons_ne_nil _ _) (List.cons_ne_nil _ _)

theorem words_eq (trimmed : Trimmed separator text) (nonempty : text ≠ []) :
    words separator text =
      firstWord separator text :: words separator (otherWords separator text) := by
  have after : words separator (otherWords separator text) =
      words separator (text.dropWhile fun element => !separator element) := by
    rw [otherWords, words_dropWhile]
    cases rest : text.dropWhile fun element => !separator element with
    | nil => rfl
    | cons element rest =>
        have separates := head_dropWhile (fun element => !separator element) text element (by
          rw [rest]
          rfl)
        rw [words_cons_of_separator (by simpa using separates)]
        rfl
  have first : firstWord separator text ≠ [] := fun none =>
    nonempty (trimmed.firstWord_eq_nil_iff.mp none)
  rw [after]
  have parts :
      text = firstWord separator text ++ text.dropWhile fun element => !separator element :=
    List.takeWhile_append_dropWhile.symm
  conv_lhs => rw [parts]
  refine words_append first ?_ ?_
  · intro element member
    simpa using List.mem_takeWhile_imp member
  · intro element head
    simpa using head_dropWhile (fun element => !separator element) text element head

theorem suffix {rest : List α} (trimmed : Trimmed separator text) (suffix : rest <:+ text)
    (first : ∀ element ∈ rest.head?, separator element = false) : Trimmed separator rest where
  first := first
  last := by
    rcases suffix with ⟨front, rfl⟩
    cases rest with
    | nil => exact fun _ => nofun
    | cons element rest =>
        intro final member
        exact trimmed.last final (List.mem_getLast?_append_of_mem_getLast? member)

theorem firstWord_eq (trimmed : Trimmed separator text) :
    firstWord separator text = (words separator text).headD [] := by
  by_cases empty : text = []
  · rw [empty]
    rfl
  · rw [trimmed.words_eq empty]
    rfl

theorem words_otherWords (trimmed : Trimmed separator text) :
    words separator (Words.otherWords separator text) = (words separator text).tail := by
  by_cases empty : text = []
  · rw [empty]
    rfl
  · rw [trimmed.words_eq empty]
    rfl

theorem words_isEmpty (trimmed : Trimmed separator text) :
    (words separator text).isEmpty = text.isEmpty := by
  by_cases empty : text = []
  · rw [empty]
    rfl
  · rw [trimmed.words_eq empty]
    simp [empty]

theorem otherWords_suffix (text : List α) : otherWords separator text <:+ text :=
  (List.dropWhile_suffix _).trans ((List.drop_suffix _ _).trans (List.dropWhile_suffix _))

theorem otherWords (trimmed : Trimmed separator text) :
    Trimmed separator (otherWords separator text) :=
  trimmed.suffix (otherWords_suffix text) (head_dropWhile separator _)

/-- What follows the first word is empty if the word ends the text. -/
theorem otherWords_eq_nil_iff (trimmed : Trimmed separator text) :
    Words.otherWords separator text = [] ↔
      (text.dropWhile fun element => !separator element) = [] := by
  constructor
  · intro empty
    by_contra more
    rcases List.exists_cons_of_ne_nil more with ⟨element, rest, after⟩
    -- a separator with nothing but separators behind it would end the text
    have first : separator element = true := by
      simpa using head_dropWhile (fun element => !separator element) text element (by
        rw [after]
        rfl)
    have others : ∀ other ∈ rest, separator other = true := by
      rw [Words.otherWords, after] at empty
      exact List.dropWhile_eq_nil_iff.mp empty
    have last : (element :: rest).getLast (List.cons_ne_nil _ _) ∈ text.getLast? := by
      rcases after ▸ List.dropWhile_suffix (fun element => !separator element) with ⟨front, parts⟩
      rw [← parts]
      exact List.mem_getLast?_append_of_mem_getLast? (List.getLast?_eq_some_getLast _)
    have separators : ∀ other ∈ element :: rest, separator other = true :=
      List.forall_mem_cons.mpr ⟨first, others⟩
    have plain := trimmed.last _ last
    rw [separators _ (List.getLast_mem _)] at plain
    cases plain
  · intro ended
    rw [Words.otherWords, ended]
    rfl

end Trimmed

end Nodogsplash.Words
