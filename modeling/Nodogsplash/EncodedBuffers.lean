import Nodogsplash.CaptiveRedirect
import Nodogsplash.Foundation.Buffers

/-! # The buffers of encoded input

`uh_urlencode` writes to a buffer of zeros and does not end what it writes. Its callers
read a string from the buffer. -/

namespace Nodogsplash

open Buffers

/-! ## The code -/

/-- The loop of `uh_urlencode` on its buffer, from the position `len` on. -/
def urlencodeInto (buf : List Char) (len : Nat) : List Char → Option (List Char)
  | [] => some buf
  | char :: rest =>
      if len < buf.length then
        if isUnreserved char then urlencodeInto (overwrite buf len [char]) (len + 1) rest
        else if len + 3 ≤ buf.length then
          urlencodeInto
            (overwrite buf len ['%', hexDigit (char.toNat / 16 % 16), hexDigit (char.toNat % 16)])
            (len + 3) rest
        else none
      else none

/-- A buffer of zeros and what is encoded to it. Without a value it stays as it is. -/
def encodeArgument (size : Nat) : Option String → Option (List Char)
  | none => some (List.replicate size '\x00')
  | some value => urlencodeInto (List.replicate size '\x00') 0 value.toList

/-- `username_enc` and `password_enc`, unless `do_binauth` returns -1 before its command. -/
def binauthBuffers (username password : Option String) : Option (List Char × List Char) := do
  let username ← encodeArgument 64 username
  let password ← encodeArgument 64 password
  return (username, password)

/-- `encoded`, unless `encode_and_redirect_to_splashpage` sends an error. -/
def redirectBuffer (originurl : Option String) : Option (List Char) :=
  encodeArgument queryMaxLen originurl

/-! ## What the readers get -/

def percentEncode (text : List Char) : List Char :=
  text.flatMap fun char =>
    if isUnreserved char then [char]
    else ['%', hexDigit (char.toNat / 16 % 16), hexDigit (char.toNat % 16)]

def SafeWord (word : List Char) : Prop := ∀ char ∈ word, isUnreserved char = true ∨ char = '%'

structure Intact (buffer : List Char) (value : Option String) : Prop where
  exact : string '\x00' buffer = some (percentEncode (value.getD "").toList)
  safe : ∀ word ∈ string '\x00' buffer, SafeWord word

/-- `do_binauth` fails, or both words of its command are intact. -/
def BinauthIntact (username password : Option String) : Prop :=
  ∀ buffers ∈ binauthBuffers username password,
    Intact buffers.1 username ∧ Intact buffers.2 password

/-- The client gets an error, or the redirect has the whole URL. -/
def RedirectIntact (originurl : Option String) : Prop :=
  ∀ buffer ∈ redirectBuffer originurl, Intact buffer originurl

/-- One place for each character that is copied, three for any other. -/
def encodedSize (value : Option String) : Nat := encodedLength (value.getD "").toList

/-! ## Encoding -/

theorem percentEncode_cons (char : Char) (rest : List Char) :
    percentEncode (char :: rest) =
      (if isUnreserved char then [char]
        else ['%', hexDigit (char.toNat / 16 % 16), hexDigit (char.toNat % 16)]) ++
          percentEncode rest :=
  List.flatMap_cons

theorem encodedLength_cons (char : Char) (rest : List Char) :
    encodedLength (char :: rest) = (if isUnreserved char then 1 else 3) + encodedLength rest := by
  rw [encodedLength, List.map_cons, List.sum_cons]
  rfl

theorem isUnreserved_hexDigit {value : Nat} (small : value < 16) :
    isUnreserved (hexDigit value) = true := by
  interval_cases value <;> decide

theorem safeWord_percentEncode (text : List Char) : SafeWord (percentEncode text) := by
  intro char member
  rcases List.mem_flatMap.mp member with ⟨source, _, inPiece⟩
  split at inPiece
  · next unreserved =>
      rw [List.mem_singleton.mp inPiece]
      exact .inl unreserved
  · have high := isUnreserved_hexDigit (show source.toNat / 16 % 16 < 16 by omega)
    have low := isUnreserved_hexDigit (show source.toNat % 16 < 16 by omega)
    simp only [List.mem_cons, List.not_mem_nil, or_false] at inPiece
    rcases inPiece with rfl | rfl | rfl
    · exact .inr rfl
    · exact .inl high
    · exact .inl low

theorem SafeWord.noNul {word : List Char} (safe : SafeWord word) : '\x00' ∉ word := by
  intro member
  rcases safe _ member with unreserved | percent
  · exact absurd unreserved (by decide)
  · exact absurd percent (by decide)

theorem urlencodeInto_eq (stored room text : List Char) :
    urlencodeInto (stored ++ room) stored.length text =
      if encodedLength text ≤ room.length then
        some (stored ++ percentEncode text ++ room.drop (encodedLength text))
      else none := by
  induction text generalizing stored room with
  | nil => simp [urlencodeInto, encodedLength, percentEncode]
  | cons char rest induction =>
      -- one iteration stores a piece and leaves the room behind it
      have stores (piece : List Char) (fits : piece.length ≤ room.length) :
          urlencodeInto (overwrite (stored ++ room) stored.length piece)
              (stored.length + piece.length) rest =
            if piece.length + encodedLength rest ≤ room.length then
              some (stored ++ (piece ++ percentEncode rest) ++
                room.drop (piece.length + encodedLength rest))
            else none := by
        have later := induction (stored ++ piece) (room.drop piece.length)
        rw [List.length_append, List.length_drop, List.drop_drop] at later
        rw [overwrite_append, later, List.append_assoc stored piece]
        exact if_congr (by omega) rfl rfl
      rw [urlencodeInto, percentEncode_cons, encodedLength_cons, List.length_append]
      by_cases unreserved : isUnreserved char = true
      · simp only [if_pos unreserved]
        by_cases some : 1 ≤ room.length
        · rw [if_pos (by omega)]
          exact stores [char] some
        · rw [if_neg (by omega), if_neg (by omega)]
      · simp only [if_neg unreserved]
        by_cases three : 3 ≤ room.length
        · rw [if_pos (by omega), if_pos (by omega)]
          exact stores _ three
        · rw [if_neg (show ¬ 3 + encodedLength rest ≤ room.length by omega)]
          split
          · exact if_neg (by omega)
          · rfl

/-! ## The boundary -/

theorem encodeArgument_eq (size : Nat) (value : Option String) :
    encodeArgument size value =
      if encodedSize value ≤ size then
        some (percentEncode (value.getD "").toList ++
          List.replicate (size - encodedSize value) '\x00')
      else none := by
  cases value with
  | none =>
      have none : encodedSize Option.none = 0 := rfl
      rw [none, if_pos (Nat.zero_le _)]
      rfl
  | some value =>
      have written := urlencodeInto_eq [] (List.replicate size '\x00') value.toList
      rw [List.nil_append, List.length_nil, List.length_replicate, List.drop_replicate] at written
      exact written

theorem intact_iff {size : Nat} {value : Option String} {buffer : List Char}
    (encoded : encodeArgument size value = some buffer) :
    Intact buffer value ↔ encodedSize value ≠ size := by
  have safe := safeWord_percentEncode (value.getD "").toList
  rw [encodeArgument_eq] at encoded
  split at encoded
  · next fits =>
      cases encoded
      constructor
      · rintro intact same
        have ended := intact.exact
        rw [same, Nat.sub_self, List.replicate_zero, List.append_nil,
          string_eq_none.mpr safe.noNul] at ended
        cases ended
      · intro different
        have more : size - encodedSize value = (size - encodedSize value - 1) + 1 := by omega
        have read : string '\x00' (percentEncode (value.getD "").toList ++
            List.replicate (size - encodedSize value) '\x00') =
              some (percentEncode (value.getD "").toList) := by
          rw [more, List.replicate_succ]
          exact string_append safe.noNul
        refine ⟨read, ?_⟩
        intro word member
        rw [read] at member
        cases member
        exact safe
  · cases encoded

theorem isSome_encodeArgument (size : Nat) (value : Option String) :
    (encodeArgument size value).isSome = true ↔ encodedSize value ≤ size := by
  rw [encodeArgument_eq]
  split
  · next fits => exact iff_of_true rfl fits
  · next full => exact iff_of_false Bool.false_ne_true full

theorem urlencodeLoop_eq (room : Nat) (text : List Char) :
    urlencodeLoop room text =
      if encodedLength text ≤ room then some (percentEncode text) else none := by
  induction text generalizing room with
  | nil => rw [if_pos (show encodedLength [] ≤ room from Nat.zero_le _)]; rfl
  | cons char rest induction =>
      rw [urlencodeLoop, percentEncode_cons, encodedLength_cons]
      by_cases unreserved : isUnreserved char = true
      · simp only [if_pos unreserved]
        split
        · next none => rw [if_neg (by omega)]
        · next some =>
            rw [induction, apply_ite (Option.map _)]
            exact if_congr (by omega) rfl rfl
      · simp only [if_neg unreserved]
        split
        · next none => rw [if_neg (by omega)]
        · next some =>
            split
            · next three =>
                rw [induction, apply_ite (Option.map _)]
                exact if_congr (by omega) rfl rfl
            · next few => rw [if_neg (by omega)]

/-- What a request is decided with is the encoding, where the source reads the buffer. -/
theorem uhUrlencode_eq (size : Nat) (value : Option String) :
    uhUrlencode size (value.getD "") =
      (encodeArgument size value).map fun _ =>
        String.ofList (percentEncode (value.getD "").toList) := by
  rw [uhUrlencode, urlencodeLoop_eq, encodeArgument_eq, ← encodedSize]
  split <;> rfl

theorem mem_binauthBuffers {username password : Option String} {buffers : List Char × List Char} :
    buffers ∈ binauthBuffers username password ↔
      encodeArgument 64 username = some buffers.1 ∧
        encodeArgument 64 password = some buffers.2 := by
  rw [binauthBuffers]
  cases encodeArgument 64 username with
  | none => simp
  | some first =>
      cases encodeArgument 64 password with
      | none => simp
      | some second => simp [Prod.ext_iff]

/-- Input reaches its readers intact exactly if no encoding that is accepted fills its
buffer to the last place. -/
theorem encoded_input_intact_iff (username password originurl : Option String) :
    (BinauthIntact username password ↔ max (encodedSize username) (encodedSize password) ≠ 64) ∧
      (RedirectIntact originurl ↔ encodedSize originurl ≠ queryMaxLen) := by
  constructor
  · constructor
    · intro intact full
      have first : encodedSize username ≤ 64 := full ▸ Nat.le_max_left _ _
      have second : encodedSize password ≤ 64 := full ▸ Nat.le_max_right _ _
      rcases Option.isSome_iff_exists.mp ((isSome_encodeArgument 64 username).mpr first) with
        ⟨usernameBuffer, usernameEncoded⟩
      rcases Option.isSome_iff_exists.mp ((isSome_encodeArgument 64 password).mpr second) with
        ⟨passwordBuffer, passwordEncoded⟩
      have both := intact (usernameBuffer, passwordBuffer)
        (mem_binauthBuffers.mpr ⟨usernameEncoded, passwordEncoded⟩)
      have usernameShort := (intact_iff usernameEncoded).mp both.1
      have passwordShort := (intact_iff passwordEncoded).mp both.2
      omega
    · intro short buffers member
      rcases mem_binauthBuffers.mp member with ⟨first, second⟩
      have firstFits := (isSome_encodeArgument 64 username).mp (Option.isSome_of_eq_some first)
      have secondFits := (isSome_encodeArgument 64 password).mp (Option.isSome_of_eq_some second)
      constructor
      · apply (intact_iff first).mpr
        omega
      · apply (intact_iff second).mpr
        omega
  · constructor
    · intro intact full
      have fits := (isSome_encodeArgument queryMaxLen originurl).mpr full.le
      rcases Option.isSome_iff_exists.mp fits with ⟨buffer, encoded⟩
      exact (intact_iff encoded).mp (intact buffer encoded) full
    · intro short buffer encoded
      exact (intact_iff encoded).mpr short

def longUsername : String := String.ofList (List.replicate 64 'a')

/-- It is accepted, and the string that is read has no end in the buffer. -/
theorem full_buffer_unterminated :
    (∃ buffers ∈ binauthBuffers (some longUsername) none, string '\x00' buffers.1 = none) ∧
      ¬ BinauthIntact (some longUsername) none := by
  have accepted : binauthBuffers (some longUsername) none =
      some (List.replicate 64 'a', List.replicate 64 '\x00') := by decide +kernel
  have endless : string '\x00' (List.replicate 64 'a') = none := by decide +kernel
  refine ⟨⟨_, accepted, endless⟩, ?_⟩
  intro intact
  have exact := (intact _ accepted).1.exact
  rw [endless] at exact
  cases exact

end Nodogsplash
