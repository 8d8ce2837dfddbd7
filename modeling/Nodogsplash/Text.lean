import Mathlib.Algebra.Group.Int.Defs
import Mathlib.Algebra.Group.Nat.Defs
import Mathlib.Tactic.Common

/-! # Texts, numbers and the C library functions on them

C strings are Lean strings whose characters stand for bytes; none contains the
terminating NUL. `int` values are integers, wrapped where the source computes
with them. -/

namespace Nodogsplash

/-! ## Machine integers -/

/-- An `int` holding the low 32 bits of `value`. -/
def toInt32 (value : Int) : Int := value.bmod (2 ^ 32)

/-- An `unsigned long long` holding the low 64 bits of `value`. -/
def toUInt64 (value : Int) : Nat := (value % 2 ^ 64).toNat

/-! ## Comparison and classification of characters -/

/-- `strcasecmp` finds no difference. -/
def sameIgnoringCase (left right : String) : Bool :=
  left.toList.map Char.toLower == right.toList.map Char.toLower

@[simp] theorem sameIgnoringCase_refl (text : String) : sameIgnoringCase text text = true := by
  simp [sameIgnoringCase]

/-- `isspace` in the C locale. -/
def isSpace (char : Char) : Bool :=
  char = ' ' || (char.toNat ≥ 9 && char.toNat ≤ 13)

def hexValue (char : Char) : Option Nat :=
  if char.isDigit then some (char.toNat - '0'.toNat)
  else if 'a' ≤ char.toLower ∧ char.toLower ≤ 'f' then
    some (char.toLower.toNat - 'a'.toNat + 10)
  else none

/-! ## Ethernet addresses -/

/-- The six octets of an ethernet address. -/
abbrev EtherAddr := List UInt8

/-- One octet of `ether_aton`: one or two hexadecimal digits. All but the last
octet are followed by a colon, which is skipped; the last may be followed by
anything once it has two digits. -/
def etherOctet (last : Bool) : List Char → Option (UInt8 × List Char)
  | [] => none
  | first :: rest => do
      let high ← hexValue first
      let single := match rest.head? with
        | none => last
        | some next => if last then isSpace next else next = ':'
      if single then
        return (UInt8.ofNat high, rest.tail)
      else
        let second ← rest.head?
        let low ← hexValue second
        if !last && rest.tail.head? ≠ some ':' then none
        else return (UInt8.ofNat (high * 16 + low), rest.tail.tail)

def etherOctets : Nat → List Char → Option EtherAddr
  | 0, _ => some []
  | count + 1, chars => do
      let (octet, rest) ← etherOctet (count = 0) chars
      let octets ← etherOctets count rest
      return octet :: octets

/-- `ether_aton` of the C library. -/
def etherAton (text : String) : Option EtherAddr := etherOctets 6 text.toList

/-- `check_mac_format`. -/
def checkMacFormat (possiblemac : String) : Bool := (etherAton possiblemac).isSome

/-- `sscanf(text, "%17[A-Fa-f0-9:]", mac)`. -/
def scanMac (text : String) : String :=
  String.ofList ((text.toList.take 17).takeWhile fun char => (hexValue char).isSome || char = ':')

example : etherAton "00:16:3E:d8:29:6e" = some [0x00, 0x16, 0x3e, 0xd8, 0x29, 0x6e] := by decide
example : etherAton "0:1:2:3:4:5 eth0" = some [0, 1, 2, 3, 4, 5] := by decide
example : checkMacFormat "00:16:3e:d8:29" = false := by decide

/-! ## IPv4 addresses -/

/-- The progress of `inet_pton` through a dotted quad: the octets begun, the
value of the current one and whether it has a digit yet. -/
structure QuadScan where
  octets : Nat
  current : Nat
  sawDigit : Bool

def QuadScan.read (scan : QuadScan) (char : Char) : Option QuadScan :=
  if char.isDigit then
    let value := scan.current * 10 + (char.toNat - '0'.toNat)
    if scan.sawDigit && scan.current = 0 then none
    else if value > 255 then none
    else if scan.sawDigit then some { scan with current := value }
    else if scan.octets + 1 > 4 then none
    else some { octets := scan.octets + 1, current := value, sawDigit := true }
  else if char = '.' && scan.sawDigit then
    if scan.octets = 4 then none
    else some { scan with current := 0, sawDigit := false }
  else none

/-- `check_ip_format`: `inet_pton` accepts the text as an IPv4 address. -/
def checkIpFormat (possibleip : String) : Bool :=
  match possibleip.toList.foldlM QuadScan.read ⟨0, 0, false⟩ with
  | some scan => scan.octets = 4
  | none => false

example : checkIpFormat "192.168.42.222" = true := by decide
example : checkIpFormat "192.168.42.256" = false := by decide

/-! ## Formatted input -/

inductive Conversion
  | value (number : Int) (rest : List Char)
  | matchingFailure
  | endOfInput

/-- `strtol` keeps a number in the range of `long`, `%d` stores its low bits. -/
def storeInt (number : Int) : Int :=
  toInt32 (max (-2 ^ 63) (min number (2 ^ 63 - 1)))

def decimalValue (digits : List Char) : Nat :=
  digits.foldl (fun value digit => value * 10 + (digit.toNat - '0'.toNat)) 0

/-- One `%d` conversion: white space, an optional sign, decimal digits. -/
def scanDecimal (chars : List Char) : Conversion :=
  match chars.dropWhile isSpace with
  | [] => .endOfInput
  | char :: rest =>
      let signed := char = '-' || char = '+'
      let digits := if signed then rest else char :: rest
      let number := digits.takeWhile Char.isDigit
      if number.isEmpty then .matchingFailure
      else
        let value : Int := decimalValue number
        .value (storeInt (if char = '-' then -value else value)) (digits.dropWhile Char.isDigit)

/-- `sscanf` with `wanted` conversions `%d`: the result and the stored numbers.
The result is -1 when the input ends before the first conversion. -/
def sscanfDecimals : Nat → List Char → Int × List Int
  | 0, _ => (0, [])
  | wanted + 1, chars =>
      match scanDecimal chars with
      | .endOfInput => (-1, [])
      | .matchingFailure => (0, [])
      | .value number rest =>
          let (result, numbers) := sscanfDecimals wanted rest
          (max result 0 + 1, number :: numbers)

example : sscanfDecimals 3 "3600 0 -7\n".toList = (3, [3600, 0, -7]) := by decide
example : sscanfDecimals 3 "\n".toList = (-1, []) := by decide
example : sscanfDecimals 3 "600 kbit".toList = (1, [600]) := by decide

/-! ## Formatted output -/

/-- What `vasprintf` prints for a format without arguments: `%%` prints `%`.
Any other conversion reads an argument that was never passed. -/
def expandFormat : List Char → Option (List Char)
  | [] => some []
  | '%' :: '%' :: rest => (expandFormat rest).map ('%' :: ·)
  | '%' :: _ => none
  | char :: rest => (expandFormat rest).map (char :: ·)

/-- A text used as a format; `stray` stands for the undefined results. -/
def printfText (stray : String → String) (text : String) : String :=
  match expandFormat text.toList with
  | some expanded => String.ofList expanded
  | none => stray text

theorem expandFormat_of_plain {chars : List Char} (plain : '%' ∉ chars) :
    expandFormat chars = some chars := by
  induction chars with
  | nil => rfl
  | cons char rest induction =>
      have parts : char ≠ '%' ∧ '%' ∉ rest := by
        simpa [eq_comm, not_or] using plain
      rw [expandFormat, induction parts.2]
      · rfl
      · intro tail percent
        exact absurd percent parts.1
      · intro percent
        exact absurd percent parts.1

theorem printfText_of_plain (stray : String → String) {text : String}
    (plain : '%' ∉ text.toList) : printfText stray text = text := by
  rw [printfText, expandFormat_of_plain plain]
  exact String.ofList_toList

/-! ## Percent encoding -/

/-- The characters `uh_urlencode` copies. -/
def isUnreserved (char : Char) : Bool :=
  char.isAlphanum || char = '-' || char = '_' || char = '.' || char = '~'

def hexDigit (value : Nat) : Char :=
  if value < 10 then Char.ofNat ('0'.toNat + value) else Char.ofNat ('a'.toNat + (value - 10))

/-- The loop of `uh_urlencode` with `room` bytes left in the buffer. -/
def urlencodeLoop (room : Nat) : List Char → Option (List Char)
  | [] => some []
  | char :: rest =>
      if room = 0 then none
      else if isUnreserved char then
        (urlencodeLoop (room - 1) rest).map (char :: ·)
      else if 3 ≤ room then
        (urlencodeLoop (room - 3) rest).map
          (['%', hexDigit (char.toNat / 16 % 16), hexDigit (char.toNat % 16)] ++ ·)
      else none

/-- `uh_urlencode`: the bytes written to a buffer of `blen` bytes, or nothing
when it returns -1. -/
def uhUrlencode (blen : Nat) (src : String) : Option String :=
  (urlencodeLoop blen src.toList).map String.ofList

example : uhUrlencode 64 "a b/c" = some "a%20b%2fc" := by decide
example : uhUrlencode 2 "abc" = none := by decide

end Nodogsplash
