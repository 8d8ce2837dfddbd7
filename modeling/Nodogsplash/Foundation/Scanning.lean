import Mathlib.Algebra.Group.Nat.Defs
import Mathlib.Data.List.TakeWhile
import Mathlib.Tactic.Common

/-! # Formatted input

The conversions of `scanf` on the characters of an input, and columns of words
that they read. What counts as a blank is a parameter. -/

namespace Nodogsplash.Scanning

/-- What is left of an input, and whether a read has met its end. -/
structure Input where
  rest : List Char
  ended : Bool
  deriving DecidableEq

/-- The parts of a format. A conversion with `*` does not keep what it reads. -/
inductive Directive
  | blanks
  | word (keep : Bool)
  | number (keep : Bool)
  | set (keep : Bool) (width : Nat) (ranges : List (Char × Char))

inductive Item
  | text (chars : List Char)
  | number (value : Nat)
  deriving DecidableEq

def value (digits : List Char) : Nat :=
  digits.foldl (fun number digit => number * 10 + (digit.toNat - '0'.toNat)) 0

/-- The number that `strtoull` makes of digits and a sign. -/
def unsignedValue (negative : Bool) (digits : List Char) : Nat :=
  let number := value digits
  if 2 ^ 64 ≤ number then 2 ^ 64 - 1
  else if negative then (2 ^ 64 - number) % 2 ^ 64
  else number

def inRanges (ranges : List (Char × Char)) (char : Char) : Bool :=
  ranges.any fun range => range.1 ≤ char && char ≤ range.2

/-- The characters after an optional sign, and whether it is a minus. -/
def takeSign : List Char → Bool × List Char
  | '-' :: rest => (true, rest)
  | '+' :: rest => (false, rest)
  | rest => (false, rest)

def takeWhile (accepts : Char → Bool) (chars : List Char) : List Char × Input :=
  let rest := chars.dropWhile accepts
  (chars.takeWhile accepts, ⟨rest, rest.isEmpty⟩)

/-- Read at most `width` characters that a test accepts. -/
def takeAtMost (width : Nat) (accepts : Char → Bool) (chars : List Char) : List Char × Input :=
  let taken := (chars.take width).takeWhile accepts
  let rest := chars.drop taken.length
  (taken, ⟨rest, rest.isEmpty && decide (taken.length < width)⟩)

section

variable (blank : Char → Bool)

/-- Carry out a part of a format: what it stores if it does not fail, and the input then. -/
def Directive.read (chars : List Char) : Directive → Option (List Item) × Input
  | .blanks =>
      let rest := chars.dropWhile blank
      (some [], ⟨rest, rest.isEmpty⟩)
  | .word keep =>
      match chars.dropWhile blank with
      | [] => (none, ⟨[], true⟩)
      | first :: rest =>
          let (letters, input) := takeWhile (fun char => !blank char) (first :: rest)
          (some (if keep then [.text letters] else []), input)
  | .number keep =>
      match chars.dropWhile blank with
      | [] => (none, ⟨[], true⟩)
      | first :: rest =>
          let (negative, unsigned) := takeSign (first :: rest)
          let (digits, input) := takeWhile Char.isDigit unsigned
          if digits.isEmpty then (none, input)
          else (some (if keep then [.number (unsignedValue negative digits)] else []), input)
  | .set keep width ranges =>
      match chars with
      | [] => (none, ⟨[], true⟩)
      | first :: rest =>
          let (text, input) := takeAtMost width (inRanges ranges) (first :: rest)
          if text.isEmpty then (none, input)
          else (some (if keep then [.text text] else []), input)

/-- Read by a format up to the first failure: what has been stored, and the input then. -/
def scan : List Directive → List Char → List Item × Input
  | [], chars => ([], ⟨chars, false⟩)
  | directive :: directives, chars =>
      match directive.read blank chars with
      | (none, input) => ([], input)
      | (some items, input) =>
          let (more, last) := scan directives input.rest
          (items ++ more, ⟨last.rest, input.ended || last.ended⟩)

end

def skipLine : List Char → Input
  | [] => ⟨[], true⟩
  | char :: rest => if char = '\n' then ⟨rest, false⟩ else skipLine rest

/-- What `fgets` reads into a buffer with room for some characters and the terminating
NUL, up to the end of the line, and the rest. -/
def getLine : Nat → List Char → List Char × List Char
  | 0, rest => ([], rest)
  | _ + 1, [] => ([], [])
  | room + 1, char :: rest =>
      if char = '\n' then ([char], rest)
      else
        let (line, others) := getLine room rest
        (char :: line, others)

/-! ## What is left -/

theorem suffix_dropWhile (test : Char → Bool) (chars : List Char) :
    chars.dropWhile test <:+ chars :=
  List.dropWhile_suffix test

theorem takeSign_suffix (chars : List Char) : (takeSign chars).2 <:+ chars := by
  fun_cases takeSign chars with
  | case1 rest => exact List.suffix_cons _ rest
  | case2 rest => exact List.suffix_cons _ rest
  | case3 => exact List.suffix_refl chars

theorem read_suffix (blank : Char → Bool) (directive : Directive) (chars : List Char) :
    (directive.read blank chars).2.rest <:+ chars := by
  cases directive with
  | blanks => exact suffix_dropWhile blank chars
  | word keep =>
      have skipped := suffix_dropWhile blank chars
      simp only [Directive.read]
      split
      · exact List.nil_suffix
      · rename_i first rest visible
        rw [visible] at skipped
        exact (suffix_dropWhile _ _).trans skipped
  | number keep =>
      have skipped := suffix_dropWhile blank chars
      simp only [Directive.read]
      split
      · exact List.nil_suffix
      · rename_i first rest visible
        rw [visible] at skipped
        have left : (takeWhile Char.isDigit (takeSign (first :: rest)).2).2.rest <:+ chars :=
          ((suffix_dropWhile _ _).trans (takeSign_suffix _)).trans skipped
        split
        · exact left
        · exact left
  | set keep width ranges =>
      simp only [Directive.read]
      split
      · exact List.nil_suffix
      · split
        · exact List.drop_suffix _ _
        · exact List.drop_suffix _ _

theorem scan_suffix (blank : Char → Bool) (directives : List Directive) (chars : List Char) :
    (scan blank directives chars).2.rest <:+ chars := by
  induction directives generalizing chars with
  | nil => exact List.suffix_refl chars
  | cons directive directives induction =>
      have first := read_suffix blank directive chars
      rw [scan]
      split
      · rename_i input failed
        rwa [failed] at first
      · rename_i items input stored
        rw [stored] at first
        exact (induction input.rest).trans first

theorem skipLine_progress (chars : List Char) :
    (skipLine chars).ended = true ∨ (skipLine chars).rest.length < chars.length := by
  induction chars with
  | nil => exact .inl rfl
  | cons char rest induction =>
      rw [skipLine]
      split
      · exact .inr (Nat.lt_succ_self _)
      · rcases induction with ended | shorter
        · exact .inl ended
        · exact .inr (Nat.lt_succ_of_lt shorter)

theorem skipLine_ended {chars : List Char} (ended : (skipLine chars).ended = true) :
    (skipLine chars).rest = [] := by
  induction chars with
  | nil => rfl
  | cons char rest induction =>
      rw [skipLine] at ended ⊢
      split at ended
      · cases ended
      · next other =>
          rw [if_neg other]
          exact induction ended

theorem skipLine_append {line rest : List Char} (single : '\n' ∉ line) :
    skipLine (line ++ '\n' :: rest) = ⟨rest, false⟩ := by
  induction line with
  | nil => rw [List.nil_append, skipLine, if_pos rfl]
  | cons char line induction =>
      rw [List.mem_cons, not_or] at single
      rw [List.cons_append, skipLine, if_neg (Ne.symm single.1), induction single.2]

/-! ## Columns -/

section

variable {blank : Char → Bool} {tail : List Char}

theorem scan_of_stored {directive : Directive} {chars : List Char} {items : List Item}
    {rest : List Char} (read : directive.read blank chars = (some items, ⟨rest, false⟩))
    (directives : List Directive) :
    scan blank (directive :: directives) chars =
      (items ++ (scan blank directives rest).1, (scan blank directives rest).2) := by
  rw [scan, read]
  simp only [Bool.false_or]

theorem scan_of_failed {directive : Directive} {chars : List Char} {input : Input}
    (read : directive.read blank chars = (none, input)) (directives : List Directive) :
    scan blank (directive :: directives) chars = ([], input) := by
  rw [scan, read]

inductive Columns (blank : Char → Bool) (tail : List Char) :
    List (List Char) → List Char → Prop
  | nil : Columns blank tail [] tail
  | cons {gap word : List Char} {next : Char} {rest : List Char} {words : List (List Char)}
      (skipped : ∀ char ∈ gap, blank char = true ∧ char ≠ '\n')
      (visible : ∀ char ∈ word, blank char = false) (nonempty : word ≠ [])
      (ends : blank next = true) (columns : Columns blank tail words (next :: rest)) :
      Columns blank tail (word :: words) (gap ++ (word ++ next :: rest))

def layOut : List (List Char) → List (List Char) → List Char → List Char
  | gap :: gaps, word :: words, tail => gap ++ (word ++ layOut gaps words tail)
  | _, _, tail => tail

theorem layOut_append (gaps words : List (List Char)) (tail more : List Char) :
    layOut gaps words tail ++ more = layOut gaps words (tail ++ more) := by
  induction words generalizing gaps with
  | nil => cases gaps <;> rfl
  | cons word words induction =>
      cases gaps with
      | nil => rfl
      | cons gap gaps => rw [layOut, layOut, List.append_assoc, List.append_assoc, induction]

def isWord (blank : Char → Bool) (word : List Char) : Bool :=
  !word.isEmpty && word.all fun char => !blank char

def isGap (blank : Char → Bool) (gap : List Char) : Bool :=
  gap.all fun char => blank char && !decide (char = '\n')

theorem isWord_iff (word : List Char) :
    isWord blank word = true ↔ word ≠ [] ∧ ∀ char ∈ word, blank char = false := by
  simp [isWord]

theorem isGap_iff (gap : List Char) :
    isGap blank gap = true ↔ ∀ char ∈ gap, blank char = true ∧ char ≠ '\n' := by
  simp [isGap]

theorem columns_layOut {gaps words : List (List Char)} (lengths : gaps.length = words.length)
    (blanks : ∀ gap ∈ gaps, isGap blank gap = true) (apart : ∀ gap ∈ gaps.tail, gap ≠ [])
    (visible : ∀ word ∈ words, isWord blank word = true) (ends : tail.head?.any blank = true) :
    Columns blank tail words (layOut gaps words tail) := by
  induction words generalizing gaps with
  | nil => cases gaps <;> exact .nil
  | cons word words induction =>
      rcases gaps with _ | ⟨gap, gaps⟩
      · cases lengths
      have columns := induction (Nat.succ.inj lengths)
        (fun other member => blanks other (List.mem_cons_of_mem _ member))
        (fun other member => apart other (List.mem_of_mem_tail member))
        (fun other member => visible other (List.mem_cons_of_mem _ member))
      have next : (layOut gaps words tail).head?.any blank = true := by
        rcases gaps with _ | ⟨_ | ⟨char, more⟩, gaps⟩
        · exact ends
        · exact absurd rfl (apart [] List.mem_cons_self)
        · rcases words with _ | ⟨second, words⟩
          · exact ends
          · have isBlank := (isGap_iff _).mp (blanks _ (List.mem_cons_of_mem _ List.mem_cons_self))
            exact (isBlank char List.mem_cons_self).1
      rcases text : layOut gaps words tail with _ | ⟨first, rest⟩
      · rw [text] at next
        cases next
      · rw [text] at next columns
        rcases (isWord_iff word).mp (visible word List.mem_cons_self) with ⟨nonempty, plain⟩
        rw [layOut, text]
        exact .cons ((isGap_iff gap).mp (blanks gap List.mem_cons_self)) plain nonempty next
          columns

/-- A text that is on one line with `others` behind it. -/
def OnLine (others text : List Char) : Prop :=
  ∃ line, '\n' ∉ line ∧ text = line ++ '\n' :: others

theorem OnLine.skipLine_eq {others text : List Char} (onLine : OnLine others text) :
    skipLine text = ⟨others, false⟩ := by
  rcases onLine with ⟨line, single, rfl⟩
  exact skipLine_append single

theorem OnLine.append {others text : List Char} (onLine : OnLine others text) {before : List Char}
    (single : '\n' ∉ before) : OnLine others (before ++ text) := by
  rcases onLine with ⟨line, plain, rfl⟩
  refine ⟨before ++ line, ?_, (List.append_assoc _ _ _).symm⟩
  rw [List.mem_append, not_or]
  exact ⟨single, plain⟩

theorem dropWhile_gap {gap : List Char} {first : Char} (text : List Char)
    (blanks : ∀ char ∈ gap, blank char = true) (visible : blank first = false) :
    (gap ++ first :: text).dropWhile blank = first :: text := by
  rw [List.dropWhile_append_of_pos blanks, List.dropWhile_cons_of_neg (by simp [visible])]

theorem takeWhile_append {accepts : Char → Bool} {word : List Char} {next : Char}
    (text : List Char) (accepted : ∀ char ∈ word, accepts char = true)
    (stops : accepts next = false) :
    takeWhile accepts (word ++ next :: text) = (word, ⟨next :: text, false⟩) := by
  rw [takeWhile, List.dropWhile_append_of_pos accepted, List.takeWhile_append_of_pos accepted,
    List.dropWhile_cons_of_neg (by simp [stops]), List.takeWhile_cons_of_neg (by simp [stops]),
    List.append_nil]
  rfl

theorem takeAtMost_append {accepts : Char → Bool} (width : Nat) (word text : List Char)
    {next : Char} (stops : accepts next = false) :
    let taken := (word.take width).takeWhile accepts
    takeAtMost width accepts (word ++ next :: text) =
      (taken, ⟨word.drop taken.length ++ next :: text, false⟩) := by
  intro taken
  have behind (count : Nat) : ((next :: text).take count).takeWhile accepts = [] := by
    cases count with
    | zero => rfl
    | succ count => rw [List.take_succ_cons, List.takeWhile_cons_of_neg (by simp [stops])]
  have same : ((word ++ next :: text).take width).takeWhile accepts = taken := by
    rw [List.take_append, List.takeWhile_append, behind, List.append_nil]
    split
    · next all => exact ((List.takeWhile_sublist accepts).eq_of_length all).symm
    · rfl
  have short : taken.length ≤ word.length :=
    ((List.takeWhile_sublist accepts).trans (List.take_sublist width word)).length_le
  rw [takeAtMost, same, List.drop_append_of_le_length short]
  simp

theorem takeSign_of_isDigit {first : Char} (digit : first.isDigit = true) (rest : List Char) :
    takeSign (first :: rest) = (false, first :: rest) := by
  have notMinus : first ≠ '-' := fun equal => by
    rw [equal] at digit
    cases digit
  have notPlus : first ≠ '+' := fun equal => by
    rw [equal] at digit
    cases digit
  rw [takeSign]
  · intro more equal
    exact notMinus (List.cons.inj equal).1
  · intro more equal
    exact notPlus (List.cons.inj equal).1

namespace Columns

variable {words : List (List Char)} {word text : List Char}

theorem onLine (columns : Columns blank tail words text) (newline : blank '\n' = true)
    {others : List Char} (onLine : OnLine others tail) : OnLine others text := by
  induction columns with
  | nil => exact onLine
  | @cons gap word next rest words skipped visible nonempty ends columns induction =>
      refine (induction.append fun member => ?_).append fun member => (skipped _ member).2 rfl
      have hidden := visible _ member
      rw [newline] at hidden
      cases hidden

theorem no_blank (columns : Columns blank tail words text) :
    ∀ word ∈ words, ∀ char ∈ word, blank char = false := by
  induction columns with
  | nil => exact List.forall_mem_nil _
  | cons _ visible _ _ _ induction => exact List.forall_mem_cons.mpr ⟨visible, induction⟩

theorem scan_blanks (columns : Columns blank tail (word :: words) text) :
    ∃ first letters next rest, word = first :: letters ∧
      (∀ char ∈ word, blank char = false) ∧ blank next = true ∧
      Columns blank tail (word :: words) (word ++ next :: rest) ∧
      Columns blank tail words (next :: rest) ∧
      ∀ directives, scan blank (.blanks :: directives) text =
        scan blank directives (word ++ next :: rest) := by
  cases columns with
  | @cons gap _ next rest _ skipped visible nonempty ends columns =>
      rcases word with _ | ⟨first, letters⟩
      · exact absurd rfl nonempty
      refine ⟨first, letters, next, rest, rfl, visible, ends,
        .cons (List.forall_mem_nil _) visible nonempty ends columns, columns, ?_⟩
      have gone := dropWhile_gap (letters ++ next :: rest)
        (fun char member => (skipped char member).1) (visible first List.mem_cons_self)
      have stored : Directive.blanks.read blank (gap ++ (first :: letters ++ next :: rest)) =
          (some [], ⟨first :: letters ++ next :: rest, false⟩) := by
        rw [Directive.read, List.cons_append, gone]
        rfl
      exact scan_of_stored stored

theorem scan_word (columns : Columns blank tail (word :: words) text) (keep : Bool) :
    ∃ next, Columns blank tail words next ∧
      ∀ directives, scan blank (.word keep :: directives) text =
        ((if keep then [.text word] else []) ++ (scan blank directives next).1,
          (scan blank directives next).2) := by
  cases columns with
  | @cons gap _ next rest _ skipped visible nonempty ends columns =>
      refine ⟨next :: rest, columns, scan_of_stored ?_⟩
      rcases word with _ | ⟨first, letters⟩
      · exact absurd rfl nonempty
      have gone := dropWhile_gap (letters ++ next :: rest)
        (fun char member => (skipped char member).1) (visible first List.mem_cons_self)
      have whole : ∀ char ∈ first :: letters, (!blank char) = true := by
        intro char member
        rw [visible char member]
        rfl
      have stops : (!blank next) = false := by
        rw [ends]
        rfl
      have taken := takeWhile_append rest whole stops
      rw [List.cons_append] at taken ⊢
      rw [Directive.read, gone]
      simp only [taken]

theorem scan_number (columns : Columns blank tail (word :: words) text)
    (digits : ∀ char ∈ word, char.isDigit = true)
    (notDigit : ∀ char, blank char = true → char.isDigit = false)
    (small : value word < 2 ^ 64) (keep : Bool) :
    ∃ next, Columns blank tail words next ∧
      ∀ directives, scan blank (.number keep :: directives) text =
        ((if keep then [.number (value word)] else []) ++ (scan blank directives next).1,
          (scan blank directives next).2) := by
  cases columns with
  | @cons gap _ next rest _ skipped visible nonempty ends columns =>
      refine ⟨next :: rest, columns, scan_of_stored ?_⟩
      rcases word with _ | ⟨first, letters⟩
      · exact absurd rfl nonempty
      have gone := dropWhile_gap (letters ++ next :: rest)
        (fun char member => (skipped char member).1) (visible first List.mem_cons_self)
      have unsigned := takeSign_of_isDigit (digits first List.mem_cons_self)
        (letters ++ next :: rest)
      have taken := takeWhile_append rest digits (notDigit next ends)
      rw [List.cons_append] at taken ⊢
      rw [Directive.read, gone]
      simp only [unsigned, taken, List.isEmpty_cons, Bool.false_eq_true, if_false, unsignedValue,
        if_neg (not_le.mpr small)]

theorem scan_blanks_word (columns : Columns blank tail (word :: words) text) (keep : Bool) :
    ∃ next, Columns blank tail words next ∧
      ∀ directives, scan blank (.blanks :: .word keep :: directives) text =
        ((if keep then [.text word] else []) ++ (scan blank directives next).1,
          (scan blank directives next).2) := by
  rcases columns.scan_blanks with ⟨_, _, _, _, _, _, _, whole, _, skip⟩
  rcases whole.scan_word keep with ⟨next, left, reads⟩
  exact ⟨next, left, fun directives => by rw [skip, reads]⟩

theorem scan_blanks_number (columns : Columns blank tail (word :: words) text)
    (digits : ∀ char ∈ word, char.isDigit = true)
    (notDigit : ∀ char, blank char = true → char.isDigit = false)
    (small : value word < 2 ^ 64) (keep : Bool) :
    ∃ next, Columns blank tail words next ∧
      ∀ directives, scan blank (.blanks :: .number keep :: directives) text =
        ((if keep then [.number (value word)] else []) ++ (scan blank directives next).1,
          (scan blank directives next).2) := by
  rcases columns.scan_blanks with ⟨_, _, _, _, _, _, _, whole, _, skip⟩
  rcases whole.scan_number digits notDigit small keep with ⟨next, left, reads⟩
  exact ⟨next, left, fun directives => by rw [skip, reads]⟩

theorem scan_set (columns : Columns blank tail (word :: words) text) {ranges : List (Char × Char)}
    (notInSet : ∀ char, blank char = true → inRanges ranges char = false) (width : Nat) :
    let taken := (word.take width).takeWhile (inRanges ranges)
    ∃ next, Columns blank tail words next ∧ (∀ char ∈ word, blank char = false) ∧
      ∀ directives, scan blank (.blanks :: .set true width ranges :: directives) text =
        let rest := word.drop taken.length ++ next
        if taken.isEmpty then ([], ⟨rest, false⟩)
        else (.text taken :: (scan blank directives rest).1, (scan blank directives rest).2) := by
  intro taken
  rcases columns.scan_blanks with
    ⟨first, letters, next, rest, rfl, visible, ends, _, columns, skipped⟩
  refine ⟨next :: rest, columns, visible, ?_⟩
  intro directives
  have read := takeAtMost_append width (first :: letters) rest (notInSet next ends)
  rw [skipped]
  simp only
  rw [List.cons_append] at read ⊢
  by_cases found : taken.isEmpty = true
  · rw [if_pos found]
    apply scan_of_failed
    rw [Directive.read]
    simp only [read]
    exact if_pos found
  · rw [if_neg found]
    have stored : (Directive.set true width ranges).read blank
          (first :: (letters ++ next :: rest)) =
        (some [.text taken], ⟨(first :: letters).drop taken.length ++ next :: rest, false⟩) := by
      rw [Directive.read]
      simp only [read]
      exact if_neg found
    exact scan_of_stored stored directives

theorem scan_skipped {skipped : List (List Char)} {text : List Char}
    (columns : Columns blank tail (skipped ++ words) text) :
    ∃ next, Columns blank tail words next ∧
      ∀ directives, scan blank ((skipped.flatMap fun _ => [.blanks, .word false]) ++ directives)
        text = scan blank directives next := by
  induction skipped generalizing text with
  | nil => exact ⟨text, columns, fun _ => rfl⟩
  | cons word skipped induction =>
      rcases columns.scan_blanks_word false with ⟨middle, rest, reads⟩
      rcases induction rest with ⟨next, left, skips⟩
      exact ⟨next, left, fun directives => (reads _).trans (skips directives)⟩

end Columns

/-! ## Blank ends and lines -/

theorem scan_word_blank {chars : List Char} (blanks : ∀ char ∈ chars, blank char = true)
    (keep : Bool) (directives : List Directive) :
    (scan blank (.word keep :: directives) chars).1 = [] := by
  have gone : chars.dropWhile blank = [] := List.dropWhile_eq_nil_iff.mpr blanks
  rw [scan, Directive.read, gone]

theorem scan_blanks_blank {chars : List Char} (blanks : ∀ char ∈ chars, blank char = true)
    (directives : List Directive) :
    (scan blank (.blanks :: directives) chars).1 = (scan blank directives []).1 := by
  have gone : chars.dropWhile blank = [] := List.dropWhile_eq_nil_iff.mpr blanks
  rw [scan, Directive.read, gone]
  rfl

theorem Columns.scan_skips {words : List (List Char)} {text : List Char}
    (columns : Columns blank tail words text) (blanks : ∀ char ∈ tail, blank char = true)
    (count : Nat) :
    let skips := (List.replicate count [Directive.blanks, .word false]).flatten
    (∃ next, Columns blank tail (words.drop count) next ∧
        ∀ directives, scan blank (skips ++ directives) text = scan blank directives next) ∨
      (words.length < count ∧ ∀ directives, (scan blank (skips ++ directives) text).1 = []) := by
  induction count generalizing words text with
  | zero => exact .inl ⟨text, columns, fun _ => rfl⟩
  | succ count induction =>
      rcases words with _ | ⟨word, words⟩
      · cases columns
        refine .inr ⟨Nat.succ_pos count, fun directives => ?_⟩
        rw [List.replicate_succ, List.flatten_cons, List.cons_append, List.cons_append,
          scan_blanks_blank blanks]
        rfl
      · rcases columns.scan_blanks_word false with ⟨middle, rest, reads⟩
        rcases induction rest with ⟨next, left, skips⟩ | ⟨short, fails⟩
        · refine .inl ⟨next, left, fun directives => ?_⟩
          rw [List.replicate_succ, List.flatten_cons]
          exact (reads _).trans (skips directives)
        · refine .inr ⟨Nat.succ_lt_succ short, fun directives => ?_⟩
          rw [List.replicate_succ, List.flatten_cons]
          exact (congrArg Prod.fst (reads _)).trans (fails directives)

theorem getLine_append {line : List Char} (others : List Char) (single : '\n' ∉ line) {room : Nat}
    (fits : line.length < room) :
    getLine room (line ++ '\n' :: others) = (line ++ ['\n'], others) := by
  induction line generalizing room with
  | nil =>
      rcases room with _ | room
      · cases fits
      · rw [List.nil_append, getLine, if_pos rfl]
        rfl
  | cons char line induction =>
      rw [List.mem_cons, not_or] at single
      rcases room with _ | room
      · cases fits
      · rw [List.cons_append, getLine, if_neg (Ne.symm single.1),
          induction single.2 (Nat.lt_of_succ_lt_succ fits)]
        rfl

theorem getLine_suffix (room : Nat) (chars : List Char) : (getLine room chars).2 <:+ chars := by
  induction room generalizing chars with
  | zero => exact List.suffix_refl chars
  | succ room induction =>
      rcases chars with _ | ⟨char, rest⟩
      · exact List.suffix_refl []
      · rw [getLine]
        split
        · exact List.suffix_cons char rest
        · exact (induction rest).trans (List.suffix_cons char rest)

theorem length_getLine (room : Nat) (char : Char) (rest : List Char) :
    (getLine (room + 1) (char :: rest)).2.length ≤ rest.length := by
  rw [getLine]
  split
  · exact le_rfl
  · exact (getLine_suffix room rest).length_le

end

end Nodogsplash.Scanning
