import Nodogsplash.Text

/-! # Texts of one ethernet address

`ether_aton` does not look at the case of the digits nor at anything behind the
characters that the MAC lists keep of a text. -/

namespace Nodogsplash

/-- The texts stand for one ethernet address. -/
def SameAddress (left right : String) : Prop := etherAton left = etherAton right

/-! ## Letter case -/

theorem toNat_toLower (char : Char) :
    char.toLower.toNat = if 65 ≤ char.toNat ∧ char.toNat ≤ 90 then char.toNat + 32
      else char.toNat := by
  by_cases upper : 65 ≤ char.toNat ∧ char.toNat ≤ 90
  · have lowered : char.toLower.val = char.val + 32 := congrArg Char.val (dif_pos upper)
    have small : char.val.toNat + 32 < 2 ^ 32 := by
      have := upper.2
      simp only [Char.toNat] at this
      omega
    rw [if_pos upper]
    simp only [Char.toNat, lowered, UInt32.toNat_add]
    exact Nat.mod_eq_of_lt small
  · have kept : char.toLower = char := dif_neg upper
    rw [if_neg upper, kept]

theorem isDigit_iff (char : Char) : char.isDigit = true ↔ 48 ≤ char.toNat ∧ char.toNat ≤ 57 := by
  simp only [Char.isDigit, Bool.and_eq_true, decide_eq_true_eq]
  exact Iff.rfl

theorem char_le_iff (left right : Char) : left ≤ right ↔ left.toNat ≤ right.toNat := Iff.rfl

theorem toLower_toLower (char : Char) : char.toLower.toLower = char.toLower := by
  apply Char.toNat_inj.mp
  have once := toNat_toLower char
  have twice := toNat_toLower char.toLower
  grind

theorem isDigit_toLower (char : Char) : char.toLower.isDigit = char.isDigit := by
  rw [Bool.eq_iff_iff, isDigit_iff, isDigit_iff, toNat_toLower]
  split <;> omega

theorem toLower_of_isDigit {char : Char} (digit : char.isDigit = true) : char.toLower = char := by
  apply Char.toNat_inj.mp
  rw [isDigit_iff] at digit
  rw [toNat_toLower, if_neg (by omega)]

@[simp] theorem hexValue_toLower (char : Char) : hexValue char.toLower = hexValue char := by
  rw [hexValue, hexValue, isDigit_toLower, toLower_toLower]
  split
  · rename_i digit
    rw [toLower_of_isDigit digit]
  · rfl

@[simp] theorem isSpace_toLower (char : Char) : isSpace char.toLower = isSpace char := by
  have equal : ∀ other : Char, isSpace other = true ↔
      other.toNat = 32 ∨ 9 ≤ other.toNat ∧ other.toNat ≤ 13 := by
    intro other
    simp only [isSpace, Bool.or_eq_true, Bool.and_eq_true, decide_eq_true_eq, ge_iff_le]
    rw [← Char.toNat_inj]
    rfl
  rw [Bool.eq_iff_iff, equal, equal, toNat_toLower]
  split <;> omega

@[simp] theorem toLower_eq_colon_iff (char : Char) : char.toLower = ':' ↔ char = ':' := by
  rw [← Char.toNat_inj, ← Char.toNat_inj (d := ':'), toNat_toLower]
  have colon : ':'.toNat = 58 := rfl
  rw [colon]
  split <;> omega

theorem etherOctet_map_toLower (last : Bool) (chars : List Char) :
    etherOctet last (chars.map Char.toLower) =
      (etherOctet last chars).map fun octet => (octet.1, octet.2.map Char.toLower) := by
  cases chars with
  | nil => rfl
  | cons first rest =>
      cases high : hexValue first with
      | none => simp [etherOctet, high]
      | some value =>
          cases rest with
          | nil => cases last <;> simp [etherOctet, high]
          | cons second rest =>
              cases low : hexValue second with
              | none =>
                  cases last with
                  | true => simp [etherOctet, high, low]
                  | false =>
                      by_cases colon : second = ':'
                      · simp [etherOctet, high, colon]
                      · simp [etherOctet, high, low, colon]
              | some digit =>
                  cases last with
                  | true => by_cases space : isSpace second <;> simp [etherOctet, high, low, space]
                  | false =>
                      by_cases colon : second = ':'
                      · simp [etherOctet, high, colon]
                      · cases rest with
                        | nil => simp [etherOctet, high, colon]
                        | cons third rest =>
                            by_cases next : third = ':' <;>
                              simp [etherOctet, high, low, colon, next]

theorem etherOctets_map_toLower (count : Nat) (chars : List Char) :
    etherOctets count (chars.map Char.toLower) = etherOctets count chars := by
  induction count generalizing chars with
  | zero => rfl
  | succ count induction =>
      rw [etherOctets, etherOctets, etherOctet_map_toLower]
      cases etherOctet (count = 0) chars with
      | none => rfl
      | some octet => simp [induction]

theorem SameAddress.of_sameIgnoringCase {left right : String}
    (same : sameIgnoringCase left right = true) : SameAddress left right := by
  rw [sameIgnoringCase, beq_iff_eq] at same
  rw [SameAddress, etherAton, etherAton, ← etherOctets_map_toLower, same, etherOctets_map_toLower]

/-! ## What the MAC lists keep of a text -/

def isMacChar (char : Char) : Bool := (hexValue char).isSome || char = ':'

theorem isMacChar_of_isSpace {char : Char} (space : isSpace char = true) :
    isMacChar char = false := by
  have value : char.toNat = 32 ∨ 9 ≤ char.toNat ∧ char.toNat ≤ 13 := by
    simp only [isSpace, Bool.or_eq_true, Bool.and_eq_true, decide_eq_true_eq, ge_iff_le] at space
    rwa [← Char.toNat_inj] at space
  have digit : ¬ char.isDigit = true := by
    rw [isDigit_iff]
    omega
  have letter : ¬ 'a' ≤ char.toLower := by
    rw [char_le_iff, toNat_toLower]
    have bound : 'a'.toNat = 97 := rfl
    split <;> omega
  have colon : char ≠ ':' := by
    rintro rfl
    simp at value
  simp [isMacChar, hexValue, digit, letter, colon]

def keptChars (limit : Nat) (chars : List Char) : List Char :=
  (chars.take limit).takeWhile isMacChar

theorem keptChars_cons {char : Char} (kept : isMacChar char = true) (limit : Nat)
    (chars : List Char) :
    keptChars (limit + 1) (char :: chars) = char :: keptChars limit chars := by
  simp [keptChars, kept]

theorem keptChars_of_isSpace {char : Char} (space : isSpace char = true) (limit : Nat)
    (chars : List Char) : keptChars limit (char :: chars) = [] := by
  cases limit with
  | zero => rfl
  | succ limit => simp [keptChars, isMacChar_of_isSpace space]

theorem isMacChar_of_hexValue {char : Char} {value : Nat} (digit : hexValue char = some value) :
    isMacChar char = true := by
  simp [isMacChar, digit]

theorem etherOctet_last_keptChars (limit : Nat) {chars after : List Char} {octet : UInt8}
    (read : etherOctet true chars = some (octet, after)) :
    ∃ rest, etherOctet true (keptChars (limit + 2) chars) = some (octet, rest) := by
  cases chars with
  | nil => cases read
  | cons first chars =>
      rcases Option.bind_eq_some_iff.mp read with ⟨high, firstHex, more⟩
      rw [keptChars_cons (isMacChar_of_hexValue firstHex)]
      cases chars with
      | nil => exact ⟨after, read⟩
      | cons second chars =>
          by_cases space : isSpace second = true
          · rw [keptChars_of_isSpace space]
            simp [space] at more
            exact ⟨[], by simp [etherOctet, firstHex, more.1]⟩
          · cases secondHex : hexValue second with
            | none => simp [space, secondHex] at more
            | some low =>
                simp [space, secondHex] at more
                rw [keptChars_cons (isMacChar_of_hexValue secondHex)]
                exact ⟨(keptChars limit chars).tail,
                  by simp [etherOctet, firstHex, secondHex, space, more.1]⟩

theorem etherOctet_keptChars (limit : Nat) {chars after : List Char} {octet : UInt8}
    (read : etherOctet false chars = some (octet, after)) :
    ∃ rest, limit ≤ rest ∧
      etherOctet false (keptChars (limit + 3) chars) = some (octet, keptChars rest after) := by
  cases chars with
  | nil => cases read
  | cons first chars =>
      rcases Option.bind_eq_some_iff.mp read with ⟨high, firstHex, more⟩
      rw [keptChars_cons (isMacChar_of_hexValue firstHex)]
      cases chars with
      | nil => simp at more
      | cons second chars =>
          by_cases colon : second = ':'
          · subst colon
            rw [keptChars_cons (by decide)]
            simp at more
            refine ⟨limit + 1, Nat.le_succ _, ?_⟩
            simp [etherOctet, firstHex, more.1, more.2]
          · cases secondHex : hexValue second with
            | none => simp [colon, secondHex] at more
            | some low =>
                rw [keptChars_cons (isMacChar_of_hexValue secondHex)]
                cases chars with
                | nil => simp [colon] at more
                | cons third chars =>
                    simp [colon, secondHex] at more
                    rcases more with ⟨rfl, equal, rfl⟩
                    rw [keptChars_cons (by decide)]
                    refine ⟨limit, Nat.le_refl _, ?_⟩
                    simp [etherOctet, firstHex, secondHex, colon, equal]

theorem etherOctets_keptChars {count limit : Nat} {chars : List Char} {octets : EtherAddr}
    (enough : 3 * count ≤ limit + 1) (valid : etherOctets count chars = some octets) :
    etherOctets count (keptChars limit chars) = some octets := by
  induction count generalizing limit chars octets with
  | zero => exact valid
  | succ count induction =>
      rcases Option.bind_eq_some_iff.mp valid with ⟨⟨octet, after⟩, read, more⟩
      rcases Option.bind_eq_some_iff.mp more with ⟨others, rest, equal⟩
      cases count with
      | zero =>
          rcases limit with _ | _ | limit
          · omega
          · omega
          rcases etherOctet_last_keptChars limit read with ⟨unread, kept⟩
          exact Option.bind_eq_some_iff.mpr ⟨_, kept, more⟩
      | succ count =>
          rcases limit with _ | _ | _ | limit
          · omega
          · omega
          · omega
          rcases etherOctet_keptChars limit read with ⟨remaining, bound, kept⟩
          exact Option.bind_eq_some_iff.mpr ⟨_, kept, Option.bind_eq_some_iff.mpr
            ⟨others, induction (by omega) rest, equal⟩⟩

theorem sameAddress_scanMac {text : String} (valid : checkMacFormat text = true) :
    SameAddress (scanMac text) text := by
  rcases Option.isSome_iff_exists.mp valid with ⟨octets, equal⟩
  rw [SameAddress, equal, etherAton, scanMac, String.toList_ofList]
  exact etherOctets_keptChars (by omega) equal

end Nodogsplash
