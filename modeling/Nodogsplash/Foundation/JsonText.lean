import Mathlib.Data.List.Forall2
import Mathlib.Data.List.TakeWhile
import Mathlib.Tactic.Common

/-! # JSON texts

The grammar of JSON relates a text to the value at its beginning and to the text that is
left. What is printed piece by piece is judged by the values that its pieces stand for. -/

namespace Nodogsplash.JsonText

/-! ## Strings -/

def units (char : Char) : List Nat :=
  if char.toNat < 0x10000 then [char.toNat]
  else [0xD800 + (char.toNat - 0x10000) / 0x400, 0xDC00 + (char.toNat - 0x10000) % 0x400]

/-- The code unit of an escaped character other than `u`. -/
def escaped (char : Char) : Option Nat :=
  if char = '"' ∨ char = '\\' ∨ char = '/' then some char.toNat
  else if char = 'b' then some 8
  else if char = 'f' then some 12
  else if char = 'n' then some 10
  else if char = 'r' then some 13
  else if char = 't' then some 9
  else none

def hexDigit (char : Char) : Option Nat :=
  if char.isDigit then some (char.toNat - 48)
  else if 97 ≤ char.toNat ∧ char.toNat ≤ 102 then some (char.toNat - 87)
  else if 65 ≤ char.toNat ∧ char.toNat ≤ 70 then some (char.toNat - 55)
  else none

/-- Where a string is read: between characters, behind a backslash, or behind `\u` with more
digits to come and the number read so far. -/
inductive StringState
  | plain
  | escape
  | hex (left : Nat) (code : Nat)
  deriving DecidableEq

def StringState.next : StringState → Char → Option (List Nat × StringState)
  | .plain, char =>
      if char = '\\' then some ([], .escape)
      else if char.toNat < 32 then none
      else some (units char, .plain)
  | .escape, char =>
      if char = 'u' then some ([], .hex 3 0)
      else (escaped char).map fun code => ([code], .plain)
  | .hex 0 code, char => (hexDigit char).map fun digit => ([code * 16 + digit], .plain)
  | .hex (left + 1) code, char =>
      (hexDigit char).map fun digit => ([], .hex left (code * 16 + digit))

/-- The code units up to the closing quotation mark, and the text behind it. -/
def readChars (state : StringState) : List Char → Option (List Nat × List Char)
  | [] => none
  | char :: rest =>
      if state = .plain ∧ char = '"' then some ([], rest)
      else
        (state.next char).bind fun step =>
          (readChars step.2 rest).map fun read => (step.1 ++ read.1, read.2)

/-- The string that a text stands for between quotation marks. -/
def content (text : List Char) : Option (List Nat) :=
  (readChars .plain (text ++ ['"'])).bind fun read => if read.2 = [] then some read.1 else none

example : content "a\\u0041\\n".toList = some [97, 65, 10] := by decide
example : content "a\"b".toList = none := by decide
example : content "a\\".toList = none := by decide

theorem content_eq_some_iff {text : List Char} {string : List Nat} :
    content text = some string ↔ readChars .plain (text ++ ['"']) = some (string, []) := by
  rw [content]
  cases readChars .plain (text ++ ['"']) with
  | none => simp
  | some read =>
      rcases read with ⟨found, rest⟩
      rw [Option.bind_some]
      cases rest <;> simp

theorem readChars_append {state : StringState} {text rest : List Char} {string : List Nat}
    (read : readChars state text = some (string, rest)) (more : List Char) :
    readChars state (text ++ more) = some (string, rest ++ more) := by
  induction text generalizing state string with
  | nil => cases read
  | cons char text induction =>
      rw [readChars] at read
      rw [List.cons_append, readChars]
      split
      · next closes =>
          rw [if_pos closes] at read
          cases read
          rfl
      · next inside =>
          rw [if_neg inside] at read
          rcases Option.bind_eq_some_iff.mp read with ⟨step, known, mapped⟩
          rcases Option.map_eq_some_iff.mp mapped with ⟨⟨found, left⟩, inner, same⟩
          cases same
          rw [known, Option.bind_some, induction inner, Option.map_some]

/-- A text that is not closed within is closed by a quotation mark behind it, or not at all
if the text behind that is not closed. -/
theorem readChars_quote {state : StringState} {text tail : List Char}
    (within : readChars state text = none) (behind : readChars .plain tail = none) :
    readChars state (text ++ '"' :: tail) =
      (readChars state (text ++ ['"'])).map fun read => (read.1, tail) := by
  induction text generalizing state with
  | nil =>
      rw [List.nil_append, List.nil_append, readChars, readChars]
      split
      · rfl
      · next inside =>
          cases state with
          | plain => simp at inside
          | escape => simp [StringState.next, escaped, behind, readChars]
          | hex left code => cases left <;> rfl
  | cons char text induction =>
      rw [readChars] at within
      rw [List.cons_append, List.cons_append, readChars, readChars]
      split
      · next closes =>
          rw [if_pos closes] at within
          cases within
      · next inside =>
          rw [if_neg inside] at within
          cases known : state.next char with
          | none => rfl
          | some step =>
              rw [known, Option.bind_some, Option.map_eq_none_iff] at within
              rw [Option.bind_some, Option.bind_some, induction within, Option.map_map,
                Option.map_map]
              rfl

/-- The text has no closing quotation mark of its own. -/
def Unclosed (text : List Char) : Prop := readChars .plain text = none

/-- The string between quotation marks, if nothing behind them can close it later. -/
theorem readChars_content_iff {text tail rest : List Char} {string : List Nat}
    (closes : (content text).isSome = true ∨ Unclosed text ∧ Unclosed tail) :
    readChars .plain (text ++ '"' :: tail) = some (string, rest) ↔
      content text = some string ∧ rest = tail := by
  cases known : content text with
  | some found =>
      have read := readChars_append (content_eq_some_iff.mp known) tail
      rw [List.append_assoc, List.singleton_append, List.nil_append] at read
      rw [read, Option.some_inj, Prod.mk.injEq, Option.some_inj, eq_comm (a := tail)]
  | none =>
      rcases closes with stands | ⟨within, behind⟩
      · simp [known] at stands
      · rw [readChars_quote within behind]
        have alone : readChars .plain (text ++ ['"']) =
            (readChars .plain (text ++ ['"'])).map fun read => (read.1, []) :=
          readChars_quote within rfl
        cases read : readChars .plain (text ++ ['"']) with
        | none => simp
        | some found =>
            rw [read, Option.map_some, Option.some_inj] at alone
            rw [alone, ← content_eq_some_iff, known] at read
            cases read

theorem content_plain {text : List Char}
    (plain : ∀ char ∈ text, char ≠ '"' ∧ char ≠ '\\' ∧ 32 ≤ char.toNat) :
    content text = some (text.flatMap units) := by
  rw [content_eq_some_iff]
  induction text with
  | nil => rfl
  | cons char text induction =>
      rcases List.forall_mem_cons.mp plain with ⟨⟨noQuote, noBackslash, printable⟩, others⟩
      rw [List.cons_append, readChars, if_neg fun closes => noQuote closes.2, StringState.next,
        if_neg noBackslash, if_neg (by omega), Option.bind_some, induction others, Option.map_some,
        List.flatMap_cons]

/-! ## Numbers -/

def isNumberChar (char : Char) : Bool :=
  char.isDigit || char = '-' || char = '+' || char = '.' || char = 'e' || char = 'E'

def isExponent : List Char → Bool
  | [] => true
  | mark :: rest =>
      let digits := if rest.head? = some '-' ∨ rest.head? = some '+' then rest.tail else rest
      (mark = 'e' || mark = 'E') && !digits.isEmpty && digits.all Char.isDigit

def isFraction : List Char → Bool
  | '.' :: rest =>
      !(rest.takeWhile Char.isDigit).isEmpty && isExponent (rest.dropWhile Char.isDigit)
  | rest => isExponent rest

def isWhole (digits : List Char) : Bool :=
  digits = ['0'] || (!digits.isEmpty && digits.head? != some '0')

def isNumber (token : List Char) : Bool :=
  let token := if token.head? = some '-' then token.tail else token
  isWhole (token.takeWhile Char.isDigit) && isFraction (token.dropWhile Char.isDigit)

example : isNumber "-12.50e+3".toList = true := by decide
example : isNumber "01".toList = false := by decide
example : isNumber "-".toList = false := by decide

/-- `%d`. -/
def decimal (number : Int) : List Char :=
  if number < 0 then '-' :: Nat.toDigits 10 number.natAbs else Nat.toDigits 10 number.natAbs

/-- `%.2f` of a number of hundredths. -/
def twoDecimals (hundredths : Nat) : List Char :=
  Nat.toDigits 10 (hundredths / 100) ++
    ['.', Nat.digitChar (hundredths / 10 % 10), Nat.digitChar (hundredths % 10)]

example : twoDecimals 12305 = "123.05".toList := by decide

theorem isDigit_toDigits (number : Nat) :
    ∀ char ∈ Nat.toDigits 10 number, char.isDigit = true := fun _ =>
  Nat.isDigit_of_mem_toDigits (by decide) (by decide)

theorem isDigit_digitChar {digit : Nat} (small : digit < 10) :
    (Nat.digitChar digit).isDigit = true := by
  apply isDigit_toDigits digit
  rw [Nat.toDigits_of_lt_base small]
  exact List.mem_singleton_self _

theorem head?_toDigits {number : Nat} (positive : 0 < number) :
    (Nat.toDigits 10 number).head? ≠ some '0' := by
  induction number using Nat.strong_induction_on with
  | _ number induction =>
      by_cases small : number < 10
      · rw [Nat.toDigits_of_lt_base small]
        have digits : ∀ digit < 10, 0 < digit → [Nat.digitChar digit].head? ≠ some '0' := by
          decide
        exact digits number small positive
      · rw [Nat.toDigits_of_base_le (by decide) (by omega),
          List.head?_append_of_ne_nil _ Nat.toDigits_ne_nil]
        exact induction (number / 10) (by omega) (by omega)

theorem isWhole_toDigits (number : Nat) : isWhole (Nat.toDigits 10 number) = true := by
  rcases Nat.eq_zero_or_pos number with rfl | positive
  · rfl
  · simp [isWhole, Nat.toDigits_ne_nil, head?_toDigits positive]

theorem isNumber_toDigits (number : Nat) {rest : List Char}
    (stops : ∀ char ∈ rest.head?, char.isDigit = false) (fraction : isFraction rest = true) :
    isNumber (Nat.toDigits 10 number ++ rest) = true ∧
      isNumber ('-' :: (Nat.toDigits 10 number ++ rest)) = true := by
  have front :
      (Nat.toDigits 10 number ++ rest).takeWhile Char.isDigit = Nat.toDigits 10 number := by
    rw [List.takeWhile_append_of_pos (isDigit_toDigits number)]
    cases rest with
    | nil => simp
    | cons char rest => simp [stops char rfl]
  have back : (Nat.toDigits 10 number ++ rest).dropWhile Char.isDigit = rest := by
    rw [List.dropWhile_append_of_pos (isDigit_toDigits number)]
    cases rest with
    | nil => rfl
    | cons char rest => simp [stops char rfl]
  have unsigned : (Nat.toDigits 10 number ++ rest).head? ≠ some '-' := by
    rcases List.exists_cons_of_ne_nil (Nat.toDigits_ne_nil (n := number) (b := 10)) with
      ⟨first, others, shape⟩
    have digit := isDigit_toDigits number first (shape ▸ List.mem_cons_self)
    rw [shape, List.cons_append, List.head?_cons]
    rintro same
    cases same
    cases digit
  constructor
  · simp only [isNumber, if_neg unsigned, front, back, isWhole_toDigits, fraction, Bool.and_self]
  · simp only [isNumber, List.head?_cons, if_true, List.tail_cons, front, back, isWhole_toDigits,
      fraction, Bool.and_self]

theorem isNumber_decimal (number : Int) : isNumber (decimal number) = true := by
  have ends : ∀ char ∈ ([] : List Char).head?, char.isDigit = false := fun _ => nofun
  have whole := isNumber_toDigits number.natAbs ends rfl
  rw [List.append_nil] at whole
  rw [decimal]
  split
  · exact whole.2
  · exact whole.1

theorem isNumber_twoDecimals (hundredths : Nat) : isNumber (twoDecimals hundredths) = true := by
  have tenth := isDigit_digitChar (Nat.mod_lt (hundredths / 10) (by decide : 0 < 10))
  have last := isDigit_digitChar (Nat.mod_lt hundredths (by decide : 0 < 10))
  refine (isNumber_toDigits _ ?_ ?_).1
  · intro char head
    cases head
    rfl
  · simp [isFraction, isExponent, tenth, last]

theorem isNumberChar_of_isDigit {char : Char} (digit : char.isDigit = true) :
    isNumberChar char = true := by
  simp [isNumberChar, digit]

theorem isNumberChar_decimal (number : Int) :
    ∀ char ∈ decimal number, isNumberChar char = true := by
  intro char member
  rw [decimal] at member
  have digits := isDigit_toDigits number.natAbs char
  split at member
  · rcases List.mem_cons.mp member with rfl | inDigits
    · rfl
    · exact isNumberChar_of_isDigit (digits inDigits)
  · exact isNumberChar_of_isDigit (digits member)

theorem isNumberChar_twoDecimals (hundredths : Nat) :
    ∀ char ∈ twoDecimals hundredths, isNumberChar char = true := by
  have tenth := isDigit_digitChar (Nat.mod_lt (hundredths / 10) (by decide : 0 < 10))
  have last := isDigit_digitChar (Nat.mod_lt hundredths (by decide : 0 < 10))
  intro char member
  simp only [twoDecimals, List.mem_append, List.mem_cons, List.not_mem_nil, or_false] at member
  rcases member with digits | rfl | rfl | rfl
  · exact isNumberChar_of_isDigit (isDigit_toDigits _ char digits)
  · rfl
  · exact isNumberChar_of_isDigit tenth
  · exact isNumberChar_of_isDigit last

/-! ## The grammar -/

inductive Value
  | null
  | boolean (value : Bool)
  | number (token : List Char)
  | string (units : List Nat)
  | array (entries : List Value)
  | object (members : List (List Nat × Value))

def isBlank (char : Char) : Bool :=
  char = ' ' || char = '\t' || char = '\n' || char = '\r'

def skip (text : List Char) : List Char := text.dropWhile isBlank

def literals : List (List Char × Value) :=
  [("null".toList, .null), ("true".toList, .boolean true), ("false".toList, .boolean false)]

mutual

inductive Reads : List Char → Value → List Char → Prop
  | literal {text name rest : List Char} {value : Value} (known : (name, value) ∈ literals)
      (opens : skip text = name ++ rest) : Reads text value rest
  | number {text : List Char} (form : isNumber ((skip text).takeWhile isNumberChar) = true) :
      Reads text (.number ((skip text).takeWhile isNumberChar))
        ((skip text).dropWhile isNumberChar)
  | string {text chars rest : List Char} {string : List Nat} (opens : skip text = '"' :: chars)
      (read : readChars .plain chars = some (string, rest)) : Reads text (.string string) rest
  | emptyArray {text inner rest : List Char} (opens : skip text = '[' :: inner)
      (closes : skip inner = ']' :: rest) : Reads text (.array []) rest
  | array {text inner rest : List Char} {entries : List Value} (opens : skip text = '[' :: inner)
      (read : ReadsEntries inner entries rest) : Reads text (.array entries) rest
  | emptyObject {text inner rest : List Char} (opens : skip text = '{' :: inner)
      (closes : skip inner = '}' :: rest) : Reads text (.object []) rest
  | object {text inner rest : List Char} {members : List (List Nat × Value)}
      (opens : skip text = '{' :: inner) (read : ReadsMembers inner members rest) :
      Reads text (.object members) rest

inductive ReadsEntries : List Char → List Value → List Char → Prop
  | last {text after rest : List Char} {value : Value} (entry : Reads text value after)
      (closes : skip after = ']' :: rest) : ReadsEntries text [value] rest
  | more {text after next rest : List Char} {value : Value} {values : List Value}
      (entry : Reads text value after) (separates : skip after = ',' :: next)
      (read : ReadsEntries next values rest) : ReadsEntries text (value :: values) rest

inductive ReadsMembers : List Char → List (List Nat × Value) → List Char → Prop
  | last {text chars colon inner after rest : List Char} {key : List Nat} {value : Value}
      (opens : skip text = '"' :: chars) (name : readChars .plain chars = some (key, colon))
      (separates : skip colon = ':' :: inner) (read : Reads inner value after)
      (closes : skip after = '}' :: rest) : ReadsMembers text [(key, value)] rest
  | more {text chars colon inner after next rest : List Char} {key : List Nat} {value : Value}
      {members : List (List Nat × Value)} (opens : skip text = '"' :: chars)
      (name : readChars .plain chars = some (key, colon)) (separates : skip colon = ':' :: inner)
      (read : Reads inner value after) (continues : skip after = ',' :: next)
      (others : ReadsMembers next members rest) : ReadsMembers text ((key, value) :: members) rest

end

def Document (text : List Char) (value : Value) : Prop :=
  ∃ rest, Reads text value rest ∧ skip rest = []

/-! ## Values by their first character -/

def Value.opening : Value → Char → Bool
  | .null, char => char = 'n'
  | .boolean true, char => char = 't'
  | .boolean false, char => char = 'f'
  | .number _, char => isNumberChar char
  | .string _, char => char = '"'
  | .array _, char => char = '['
  | .object _, char => char = '{'

section

variable {text rest : List Char} {value : Value}

theorem Reads.opening (reads : Reads text value rest) :
    ∃ char more, skip text = char :: more ∧ value.opening char = true := by
  cases reads with
  | literal known opens =>
      simp only [literals, List.mem_cons, Prod.mk.injEq, List.not_mem_nil, or_false] at known
      rcases known with ⟨rfl, rfl⟩ | ⟨rfl, rfl⟩ | ⟨rfl, rfl⟩ <;> exact ⟨_, _, opens, rfl⟩
  | number form =>
      cases shape : skip text with
      | nil => simp [shape, isNumber, isWhole] at form
      | cons char more =>
          refine ⟨char, more, rfl, ?_⟩
          by_contra other
          have first : ¬ isNumberChar char = true := other
          rw [shape, List.takeWhile_cons_of_neg first] at form
          simp [isNumber, isWhole] at form
  | string opens => exact ⟨_, _, opens, rfl⟩
  | emptyArray opens => exact ⟨_, _, opens, rfl⟩
  | array opens => exact ⟨_, _, opens, rfl⟩
  | emptyObject opens => exact ⟨_, _, opens, rfl⟩
  | object opens => exact ⟨_, _, opens, rfl⟩

theorem Reads.opening_of {char : Char} {more : List Char} (reads : Reads text value rest)
    (opens : skip text = char :: more) : value.opening char = true := by
  rcases reads.opening with ⟨found, others, shape, begins⟩
  rw [opens] at shape
  cases shape
  exact begins

theorem reads_string_iff {chars : List Char} (opens : skip text = '"' :: chars) :
    Reads text value rest ↔
      ∃ string, readChars .plain chars = some (string, rest) ∧ value = .string string := by
  constructor
  · intro reads
    have begins := reads.opening_of opens
    cases value with
    | string =>
        cases reads with
        | string same read =>
            rw [opens] at same
            cases same
            exact ⟨_, read, rfl⟩
        | literal known => simp [literals] at known
    | boolean value => cases value <;> cases begins
    | _ => cases begins
  · rintro ⟨string, read, rfl⟩
    exact .string opens read

theorem reads_object_iff {inner : List Char} (opens : skip text = '{' :: inner) :
    Reads text value rest ↔
      (skip inner = '}' :: rest ∧ value = .object []) ∨
        ∃ members, ReadsMembers inner members rest ∧ value = .object members := by
  constructor
  · intro reads
    have begins := reads.opening_of opens
    cases value with
    | object =>
        cases reads with
        | emptyObject same closes =>
            rw [opens] at same
            cases same
            exact .inl ⟨closes, rfl⟩
        | object same read =>
            rw [opens] at same
            cases same
            exact .inr ⟨_, read, rfl⟩
        | literal known => simp [literals] at known
    | boolean value => cases value <;> cases begins
    | _ => cases begins
  · rintro (⟨closes, rfl⟩ | ⟨members, read, rfl⟩)
    · exact .emptyObject opens closes
    · exact .object opens read

theorem not_opening_of_isNumberChar {char : Char} (numeric : isNumberChar char = true)
    (begins : value.opening char = true) : ∃ token, value = .number token := by
  have apart (other : Char) (same : decide (char = other) = true) :
      isNumberChar other = true := of_decide_eq_true same ▸ numeric
  cases value with
  | number token => exact ⟨token, rfl⟩
  | boolean value => cases value <;> cases apart _ begins
  | _ => cases apart _ begins

theorem reads_number_iff {token tail : List Char} (opens : skip text = token ++ tail)
    (chars : ∀ char ∈ token, isNumberChar char = true) (nonempty : token ≠ [])
    (stops : ∀ char ∈ tail.head?, isNumberChar char = false) :
    Reads text value rest ↔ isNumber token = true ∧ value = .number token ∧ rest = tail := by
  have front : (skip text).takeWhile isNumberChar = token := by
    rw [opens, List.takeWhile_append_of_pos chars]
    cases tail with
    | nil => simp
    | cons char tail => simp [stops char rfl]
  have back : (skip text).dropWhile isNumberChar = tail := by
    rw [opens, List.dropWhile_append_of_pos chars]
    cases tail with
    | nil => rfl
    | cons char tail => simp [stops char rfl]
  constructor
  · intro reads
    rcases List.exists_cons_of_ne_nil nonempty with ⟨first, others, shape⟩
    have begins := reads.opening_of (by rw [opens, shape, List.cons_append])
    rcases not_opening_of_isNumberChar (chars first (shape ▸ List.mem_cons_self)) begins with
      ⟨found, rfl⟩
    cases reads with
    | number form =>
        rw [front] at form ⊢
        exact ⟨form, rfl, back⟩
    | literal known => simp [literals] at known
  · rintro ⟨form, rfl, rfl⟩
    have read : Reads text _ _ := .number (by rwa [front])
    rwa [front, back] at read

end

/-! ## Printed objects -/

/-- What may stand behind a printed value: the end of a line, perhaps behind a comma. -/
def Follows (tail : List Char) : Prop := ∃ more, tail = '\n' :: more ∨ tail = ',' :: '\n' :: more

def Means (text : List Char) (meaning : Value → Prop) : Prop :=
  ∀ tail, Follows tail → ∀ value rest,
    Reads (text ++ tail) value rest ↔ meaning value ∧ rest = tail

structure Printed where
  name : List Char
  text : List Char
  meaning : Value → Prop

namespace Printed

def line (printed : Printed) : List Char :=
  '"' :: (printed.name ++ '"' :: ':' :: printed.text)

structure IsMember (printed : Printed) (member : List Nat × Value) : Prop where
  name : content printed.name = some member.1
  meaning : printed.meaning member.2

/-- The name is closed by its quotation mark or never, and the text is as it is said. -/
structure Good (printed : Printed) : Prop where
  name : (content printed.name).isSome = true ∨
    Unclosed printed.name ∧ ∀ tail, Unclosed (':' :: (printed.text ++ tail))
  text : Means printed.text printed.meaning

end Printed

def joined (members : List Printed) : List Char :=
  [',', '\n'].intercalate (members.map Printed.line)

def objectText (members : List Printed) : List Char :=
  '{' :: '\n' :: (joined members ++ (if members.isEmpty then [] else ['\n']) ++ ['}'])

/-! ## The parts of a line -/

theorem skip_cons {char : Char} (other : isBlank char = false) (text : List Char) :
    skip (char :: text) = char :: text := List.dropWhile_cons_of_neg (by simp [other])

theorem skip_blank {char : Char} (blank : isBlank char = true) (text : List Char) :
    skip (char :: text) = skip text := List.dropWhile_cons_of_pos blank

section

variable {text other rest tail : List Char} {value : Value} {meaning : Value → Prop}

theorem Reads.congr (reads : Reads text value rest) (same : skip text = skip other) :
    Reads other value rest := by
  cases reads with
  | literal known opens => exact .literal known (same ▸ opens)
  | number form =>
      rw [same] at form ⊢
      exact .number form
  | string opens read => exact .string (same ▸ opens) read
  | emptyArray opens closes => exact .emptyArray (same ▸ opens) closes
  | array opens read => exact .array (same ▸ opens) read
  | emptyObject opens closes => exact .emptyObject (same ▸ opens) closes
  | object opens read => exact .object (same ▸ opens) read

theorem Follows.unclosed (follows : Follows tail) : Unclosed tail := by
  rcases follows with ⟨more, rfl | rfl⟩ <;> rfl

theorem Means.blank {char : Char} (means : Means text meaning) (blank : isBlank char = true) :
    Means (char :: text) meaning := by
  intro tail follows value rest
  rw [← means tail follows value rest, List.cons_append]
  have same := skip_blank blank (text ++ tail)
  exact ⟨fun reads => reads.congr same, fun reads => reads.congr same.symm⟩

theorem skip_token {token : List Char} (chars : ∀ char ∈ token, isNumberChar char = true)
    (nonempty : token ≠ []) (tail : List Char) : skip (token ++ tail) = token ++ tail := by
  rcases List.exists_cons_of_ne_nil nonempty with ⟨first, others, rfl⟩
  apply skip_cons
  have numeric := chars first List.mem_cons_self
  by_contra blank
  simp only [isBlank, Bool.not_eq_false, Bool.or_eq_true, decide_eq_true_eq] at blank
  rcases blank with ((rfl | rfl) | rfl) | rfl <;> cases numeric

theorem means_number {token : List Char} (form : isNumber token = true)
    (chars : ∀ char ∈ token, isNumberChar char = true) : Means token (· = .number token) := by
  have nonempty : token ≠ [] := by
    rintro rfl
    cases form
  intro tail follows value rest
  rw [reads_number_iff (skip_token chars nonempty tail) chars nonempty, and_iff_right form]
  rcases follows with ⟨more, rfl | rfl⟩ <;> exact fun _ head => by cases head; rfl

theorem means_decimal (number : Int) : Means (decimal number) (· = .number (decimal number)) :=
  means_number (isNumber_decimal number) (isNumberChar_decimal number)

theorem means_twoDecimals (hundredths : Nat) :
    Means (twoDecimals hundredths) (· = .number (twoDecimals hundredths)) :=
  means_number (isNumber_twoDecimals hundredths) (isNumberChar_twoDecimals hundredths)

theorem means_string (closes : (content text).isSome = true ∨ Unclosed text) :
    Means ('"' :: (text ++ ['"'])) fun value =>
      ∃ string, content text = some string ∧ value = .string string := by
  intro tail follows value rest
  have opens : skip ('"' :: (text ++ ['"']) ++ tail) = '"' :: (text ++ '"' :: tail) := by
    rw [List.cons_append, List.append_assoc, List.singleton_append]
    exact skip_cons rfl _
  rw [reads_string_iff opens]
  simp only [readChars_content_iff (closes.imp_right fun within => ⟨within, follows.unclosed⟩)]
  exact ⟨fun ⟨string, ⟨known, same⟩, equal⟩ => ⟨⟨string, known, equal⟩, same⟩,
    fun ⟨⟨string, known, equal⟩, same⟩ => ⟨string, ⟨known, same⟩, equal⟩⟩

theorem means_nothing {first : Char} {more : List Char} (visible : isBlank first = false)
    (other : ∀ value : Value, value.opening first = false) :
    Means (first :: more) fun _ => False := by
  intro tail _ value rest
  rw [false_and, iff_false]
  intro reads
  have begins := reads.opening_of (skip_cons visible (more ++ tail))
  rw [other] at begins
  cases begins

/-- The beginning of the text could only be a number, and is none. -/
theorem means_no_number {more : List Char} {next : Char} (token : List Char)
    (form : isNumber token = false)
    (chars : ∀ char ∈ token, isNumberChar char = true) (nonempty : token ≠ [])
    (stops : isNumberChar next = false) : Means (token ++ next :: more) fun _ => False := by
  intro tail _ value rest
  have opens : skip (token ++ next :: more ++ tail) = token ++ next :: (more ++ tail) := by
    rw [List.append_assoc, List.cons_append]
    exact skip_token chars nonempty _
  rw [false_and, iff_false, reads_number_iff opens chars nonempty, form]
  · exact fun numeric => Bool.false_ne_true numeric.1
  · intro char head
    cases head
    exact stops

end

/-! ## The lines of an object -/

section

variable {printed : Printed} {members : List (List Nat × Value)} {rest after : List Char}

theorem ReadsMembers.congr {text other : List Char} (reads : ReadsMembers text members rest)
    (same : skip text = skip other) : ReadsMembers other members rest := by
  cases reads with
  | last opens name separates read closes => exact .last (same ▸ opens) name separates read closes
  | more opens name separates read continues others =>
      exact .more (same ▸ opens) name separates read continues others

theorem skip_line (printed : Printed) (after : List Char) :
    skip (printed.line ++ after) =
      '"' :: (printed.name ++ '"' :: (':' :: (printed.text ++ after))) := by
  rw [Printed.line, List.cons_append, List.append_assoc]
  exact skip_cons rfl _

namespace Printed.Good

theorem reads_iff (good : printed.Good) (follows : Follows after) {key : List Nat}
    {colon left : List Char} {value : Value} :
    (readChars .plain (printed.name ++ '"' :: (':' :: (printed.text ++ after))) =
        some (key, colon) ∧ ∃ inner, skip colon = ':' :: inner ∧ Reads inner value left) ↔
      printed.IsMember (key, value) ∧ colon = ':' :: (printed.text ++ after) ∧ left = after := by
  have closes := good.name.imp_right fun within => And.imp_right (fun behind => behind after) within
  rw [readChars_content_iff closes]
  constructor
  · rintro ⟨⟨name, rfl⟩, inner, separates, reads⟩
    rw [skip_cons rfl] at separates
    cases separates
    rcases (good.text after follows value left).mp reads with ⟨meaning, same⟩
    exact ⟨⟨name, meaning⟩, rfl, same⟩
  · rintro ⟨member, rfl, rfl⟩
    exact ⟨⟨member.name, rfl⟩, _, skip_cons rfl _,
      (good.text left follows value left).mpr ⟨member.meaning, rfl⟩⟩

theorem readsMembers_iff (good : printed.Good) (follows : Follows after) :
    ReadsMembers (printed.line ++ after) members rest ↔
      ∃ member, printed.IsMember member ∧
        ((skip after = '}' :: rest ∧ members = [member]) ∨
          ∃ next others, skip after = ',' :: next ∧ ReadsMembers next others rest ∧
            members = member :: others) := by
  have line := skip_line printed after
  constructor
  · intro reads
    cases reads with
    | last opens name separates read closes =>
        rw [line] at opens
        cases opens
        rcases (good.reads_iff follows).mp ⟨name, _, separates, read⟩ with ⟨member, _, rfl⟩
        exact ⟨_, member, .inl ⟨closes, rfl⟩⟩
    | more opens name separates read continues others =>
        rw [line] at opens
        cases opens
        rcases (good.reads_iff follows).mp ⟨name, _, separates, read⟩ with ⟨member, _, rfl⟩
        exact ⟨_, member, .inr ⟨_, _, continues, others, rfl⟩⟩
  · rintro ⟨⟨key, value⟩, member, ends⟩
    rcases (good.reads_iff follows).mpr ⟨member, rfl, rfl⟩ with ⟨name, inner, separates, read⟩
    rcases ends with ⟨closes, rfl⟩ | ⟨next, others, continues, more, rfl⟩
    · exact .last line name separates read closes
    · exact .more line name separates read continues more

end Printed.Good

theorem Printed.line_prefix_joined (first : Printed) (lines : List Printed) :
    first.line <+: joined (first :: lines) := by
  cases lines with
  | nil =>
      have whole : joined [first] = first.line := List.intercalate_singleton
      exact ⟨[], (List.append_nil _).trans whole.symm⟩
  | cons second lines =>
      rw [joined, List.map_cons, List.map_cons, List.intercalate_cons_cons, List.append_assoc]
      exact List.prefix_append _ _

theorem readsMembers_joined {lines : List Printed} (nonempty : lines ≠ [])
    (good : ∀ printed ∈ lines, printed.Good) (tail : List Char) :
    ReadsMembers (joined lines ++ '\n' :: '}' :: tail) members rest ↔
      List.Forall₂ Printed.IsMember lines members ∧ rest = tail := by
  induction lines generalizing members with
  | nil => exact absurd rfl nonempty
  | cons first lines induction =>
      rcases List.forall_mem_cons.mp good with ⟨goodFirst, goodOthers⟩
      cases lines with
      | nil =>
          have ends : skip ('\n' :: '}' :: tail) = '}' :: tail := rfl
          rw [joined, List.map_singleton, List.intercalate_singleton,
            goodFirst.readsMembers_iff ⟨_, .inl rfl⟩, ends]
          constructor
          · rintro ⟨member, means, ⟨closes, rfl⟩ | ⟨next, others, continues, _⟩⟩
            · cases closes
              exact ⟨.cons means .nil, rfl⟩
            · cases continues
          · rintro ⟨all, rfl⟩
            cases all with
            | cons means none =>
                cases none
                exact ⟨_, means, .inl ⟨rfl, rfl⟩⟩
      | cons second lines =>
          have rejoined : joined (first :: second :: lines) ++ '\n' :: '}' :: tail =
              first.line ++ ',' :: '\n' :: (joined (second :: lines) ++ '\n' :: '}' :: tail) := by
            simp [joined, List.intercalate_cons_cons]
          have continues : skip
              (',' :: '\n' :: (joined (second :: lines) ++ '\n' :: '}' :: tail)) =
              ',' :: '\n' :: (joined (second :: lines) ++ '\n' :: '}' :: tail) := rfl
          have line : skip ('\n' :: (joined (second :: lines) ++ '\n' :: '}' :: tail)) =
              skip (joined (second :: lines) ++ '\n' :: '}' :: tail) := rfl
          rw [rejoined, goodFirst.readsMembers_iff ⟨_, .inr rfl⟩, continues]
          constructor
          · rintro ⟨member, means, ⟨closes, _⟩ | ⟨next, others, same, reads, rfl⟩⟩
            · cases closes
            · cases same
              rcases (induction (List.cons_ne_nil _ _) goodOthers).mp (reads.congr line) with
                ⟨all, same⟩
              exact ⟨.cons means all, same⟩
          · rintro ⟨all, same⟩
            cases all with
            | cons means all =>
                have reads := (induction (List.cons_ne_nil _ _) goodOthers).mpr ⟨all, same⟩
                exact ⟨_, means, .inr ⟨_, _, rfl, reads.congr line.symm, rfl⟩⟩

theorem means_objectText {lines : List Printed} (good : ∀ printed ∈ lines, printed.Good) :
    Means (objectText lines) fun value =>
      ∃ members, List.Forall₂ Printed.IsMember lines members ∧ value = .object members := by
  intro tail _ value rest
  cases lines with
  | nil =>
      have opens : skip (objectText [] ++ tail) = '{' :: '\n' :: '}' :: tail := rfl
      have closes : skip ('\n' :: '}' :: tail) = '}' :: tail := rfl
      rw [reads_object_iff opens, closes]
      constructor
      · rintro (⟨same, rfl⟩ | ⟨members, reads, rfl⟩)
        · cases same
          exact ⟨⟨[], .nil, rfl⟩, rfl⟩
        · cases reads with
          | last opens => cases closes.symm.trans opens
          | more opens => cases closes.symm.trans opens
      · rintro ⟨⟨members, all, rfl⟩, rfl⟩
        cases all
        exact .inl ⟨rfl, rfl⟩
  | cons first lines =>
      have opens : skip (objectText (first :: lines) ++ tail) =
          '{' :: '\n' :: (joined (first :: lines) ++ '\n' :: '}' :: tail) := by
        rw [objectText, List.cons_append]
        exact (skip_cons rfl _).trans (by simp)
      have line : skip ('\n' :: (joined (first :: lines) ++ '\n' :: '}' :: tail)) =
          skip (joined (first :: lines) ++ '\n' :: '}' :: tail) := rfl
      rw [reads_object_iff opens, line]
      constructor
      · rintro (⟨closes, _⟩ | ⟨members, reads, rfl⟩)
        · rcases first.line_prefix_joined lines with ⟨more, same⟩
          rw [← same, List.append_assoc, skip_line] at closes
          cases closes
        · rcases (readsMembers_joined (List.cons_ne_nil _ _) good tail).mp (reads.congr line) with
            ⟨all, same⟩
          exact ⟨⟨members, all, rfl⟩, same⟩
      · rintro ⟨⟨members, all, rfl⟩, same⟩
        have reads := (readsMembers_joined (List.cons_ne_nil _ _) good tail).mpr ⟨all, same⟩
        exact .inr ⟨members, reads.congr line.symm, rfl⟩

theorem document_objectText {lines : List Printed} (good : ∀ printed ∈ lines, printed.Good)
    (value : Value) :
    Document (objectText lines ++ ['\n']) value ↔
      ∃ members, List.Forall₂ Printed.IsMember lines members ∧ value = .object members := by
  have read := means_objectText good ['\n'] ⟨[], .inl rfl⟩ value
  constructor
  · rintro ⟨rest, reads, _⟩
    exact ((read rest).mp reads).1
  · intro means
    exact ⟨['\n'], (read ['\n']).mpr ⟨means, rfl⟩, rfl⟩

end

theorem exists_forall₂_iff {α β : Type*} {related : α → β → Prop} {entries : List α} :
    (∃ partners, List.Forall₂ related entries partners) ↔
      ∀ entry ∈ entries, ∃ partner, related entry partner := by
  induction entries with
  | nil => simp
  | cons entry entries induction =>
      rw [List.forall_mem_cons, ← induction]
      constructor
      · rintro ⟨partners, all⟩
        cases all with
        | cons one others => exact ⟨⟨_, one⟩, _, others⟩
      · rintro ⟨⟨partner, one⟩, partners, others⟩
        exact ⟨partner :: partners, .cons one others⟩

end Nodogsplash.JsonText
