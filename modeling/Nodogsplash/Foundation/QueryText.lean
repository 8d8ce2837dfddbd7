import Mathlib.Algebra.GroupWithZero.Nat
import Mathlib.Data.List.Basic
import Mathlib.Data.List.TakeWhile
import Mathlib.Tactic.Common
import Nodogsplash.Foundation.LexicalPath

/-! # Arguments in the text of a URL

The arguments of a query are separated by `&`, a key and its value by `=`. A reader
takes the text apart, reads `+` as a space and decodes `%` with two digits. The
digits are a parameter. -/

namespace Nodogsplash.QueryText

abbrev Argument := List Char × Option (List Char)

/-! ## Decoding -/

section

variable (digit : Char → Option Nat)

/-- A `%` that is not followed by two digits stays. -/
def percentDecode : List Char → List Char
  | '%' :: high :: low :: rest =>
      match digit high, digit low with
      | some high, some low => Char.ofNat (16 * high + low) :: percentDecode rest
      | _, _ => '%' :: percentDecode (high :: low :: rest)
  | char :: rest => char :: percentDecode rest
  | [] => []

def plusToSpace (text : List Char) : List Char :=
  text.map fun char => if char = '+' then ' ' else char

def decodeText (text : List Char) : List Char := percentDecode digit (plusToSpace text)

theorem length_percentDecode_le (text : List Char) :
    (percentDecode digit text).length ≤ text.length := by
  fun_induction percentDecode digit text with
  | case1 high low rest _ _ _ _ induction =>
      simp only [List.length_cons]
      omega
  | case2 high low rest _ induction =>
      simp only [List.length_cons] at induction ⊢
      omega
  | case3 char rest _ induction =>
      simp only [List.length_cons]
      omega
  | case4 => exact Nat.le_refl _

theorem percentDecode_eq_self {text : List Char}
    (same : (percentDecode digit text).length = text.length) : percentDecode digit text = text := by
  fun_induction percentDecode digit text with
  | case1 high low rest _ _ _ _ _ =>
      have shorter := length_percentDecode_le digit rest
      simp only [List.length_cons] at same
      omega
  | case2 high low rest _ induction =>
      rw [induction (by simpa using same)]
  | case3 char rest _ induction =>
      rw [induction (by simpa using same)]
  | case4 => rfl

theorem length_plusToSpace (text : List Char) : (plusToSpace text).length = text.length :=
  List.length_map _

theorem plusToSpace_eq_self_iff (text : List Char) : plusToSpace text = text ↔ '+' ∉ text := by
  induction text with
  | nil => simp [plusToSpace]
  | cons char rest induction =>
      rw [plusToSpace, List.map_cons, ← plusToSpace, List.cons.injEq, induction, List.mem_cons,
        not_or]
      by_cases plus : char = '+'
      · simp [plus]
      · simp [plus, Ne.symm plus]

theorem length_decodeText_le (text : List Char) : (decodeText digit text).length ≤ text.length :=
  (length_percentDecode_le digit _).trans (length_plusToSpace text).le

theorem decodeText_eq_plusToSpace {text : List Char}
    (same : (decodeText digit text).length = text.length) :
    decodeText digit text = plusToSpace text :=
  percentDecode_eq_self digit (same.trans (length_plusToSpace text).symm)

end

/-! ## Arguments -/

def printArgument : Argument → List Char
  | (key, none) => key
  | (key, some value) => key ++ '=' :: value

def joinArguments (arguments : List Argument) : List Char :=
  ['&'].intercalate (arguments.map printArgument)

def splitArgument (piece : List Char) : Argument :=
  (piece.takeWhile fun char => char ≠ '=',
    match piece.dropWhile fun char => char ≠ '=' with
    | [] => none
    | _ :: value => some value)

/-- The pieces between the separators; nothing is read after the last one. -/
def pieces (query : List Char) : List (List Char) :=
  let all := query.splitOn '&'
  if all.getLast? = some [] then all.dropLast else all

def rawArguments (query : List Char) : List Argument := (pieces query).map splitArgument

def mapArgument (change : List Char → List Char) (argument : Argument) : Argument :=
  (change argument.1, argument.2.map change)

def decodeArguments (digit : Char → Option Nat) (query : List Char) : List Argument :=
  (rawArguments query).map (mapArgument (decodeText digit))

theorem printArgument_splitArgument (piece : List Char) :
    printArgument (splitArgument piece) = piece := by
  have parts := List.takeWhile_append_dropWhile (p := fun char => decide (char ≠ '=')) (l := piece)
  rw [splitArgument]
  cases rest : piece.dropWhile fun char => decide (char ≠ '=') with
  | nil =>
      rw [rest, List.append_nil] at parts
      exact parts
  | cons first value =>
      have equals : first = '=' := by
        have stopped := List.head?_dropWhile_not (fun char => decide (char ≠ '=')) piece
        rw [rest] at stopped
        simpa using stopped
      rw [rest, equals] at parts
      exact parts

theorem splitArgument_key (piece : List Char) : '=' ∉ (splitArgument piece).1 := by
  intro member
  have tested := List.mem_takeWhile_imp member
  simp at tested

theorem splitArgument_printArgument {argument : Argument} (plain : '=' ∉ argument.1) :
    splitArgument (printArgument argument) = argument := by
  rcases argument with ⟨key, value⟩
  have all : ∀ char ∈ key, decide (char ≠ '=') = true := by
    intro char member
    have other : char ≠ '=' := fun equal => plain (equal ▸ member)
    simpa using other
  cases value with
  | none =>
      rw [splitArgument, printArgument, List.takeWhile_eq_self_iff.mpr all,
        List.dropWhile_eq_nil_iff.mpr all]
  | some value =>
      rw [splitArgument, printArgument, List.takeWhile_append_of_pos all,
        List.dropWhile_append_of_pos all]
      simp

theorem separator_not_mem {query piece : List Char} (member : piece ∈ query.splitOn '&') :
    '&' ∉ piece :=
  LexicalPath.separator_not_mem_segments member

/-! ## Lengths -/

def total (texts : List (List Char)) : Nat := (texts.map fun text => text.length + 1).sum

theorem length_intercalate {texts : List (List Char)} (nonempty : texts ≠ []) :
    (['&'].intercalate texts).length + 1 = total texts := by
  induction texts with
  | nil => exact absurd rfl nonempty
  | cons text texts induction =>
      cases texts with
      | nil => simp [total, List.intercalate]
      | cons next texts =>
          have rest := induction (List.cons_ne_nil _ _)
          rw [List.intercalate_cons_cons, List.length_append, List.length_append]
          simp only [total, List.map_cons, List.sum_cons, List.length_singleton] at rest ⊢
          omega

theorem total_splitOn (query : List Char) : total (query.splitOn '&') = query.length + 1 := by
  rw [← length_intercalate (List.splitOn_ne_nil '&' query), List.intercalate_splitOn]

theorem total_pieces (query : List Char) :
    pieces query = query.splitOn '&' ∨ total (pieces query) = query.length := by
  rw [pieces]
  split
  · next last =>
      rcases List.getLast?_eq_some_iff.mp last with ⟨others, parts⟩
      have sum := total_splitOn query
      rw [parts] at sum ⊢
      rw [List.dropLast_concat]
      simp only [total, List.map_append, List.sum_append, List.map_cons, List.map_nil,
        List.sum_cons, List.sum_nil, List.length_nil] at sum ⊢
      omega
  · exact .inl rfl

theorem total_pieces_le (query : List Char) : total (pieces query) ≤ query.length + 1 := by
  rcases total_pieces query with all | fewer
  · rw [all, total_splitOn]
  · omega

theorem pieces_eq_splitOn {query : List Char} (all : query.length + 1 ≤ total (pieces query)) :
    pieces query = query.splitOn '&' := by
  rcases total_pieces query with whole | fewer
  · exact whole
  · omega

section

variable {α : Type*} {before after : α → List Char} {values : List α}

theorem total_map_le (shorter : ∀ value ∈ values, (after value).length ≤ (before value).length) :
    total (values.map after) ≤ total (values.map before) := by
  induction values with
  | nil => exact Nat.le_refl _
  | cons value values induction =>
      have first := shorter value List.mem_cons_self
      have rest := induction fun other member => shorter other (List.mem_cons_of_mem _ member)
      simp only [total, List.map_cons, List.sum_cons] at rest ⊢
      omega

/-- Where nothing gets longer and the sum stays, every length stays. -/
theorem length_eq_of_total
    (shorter : ∀ value ∈ values, (after value).length ≤ (before value).length)
    (same : total (values.map before) ≤ total (values.map after)) :
    ∀ value ∈ values, (after value).length = (before value).length := by
  induction values with
  | nil => simp
  | cons value values induction =>
      have first := shorter value List.mem_cons_self
      have later := fun other member => shorter other (List.mem_cons_of_mem _ member)
      have sums := total_map_le later
      simp only [total, List.map_cons, List.sum_cons] at same sums
      intro other member
      rcases List.mem_cons.mp member with rfl | inRest
      · omega
      · exact induction later (by simp only [total]; omega) other inRest

end

theorem length_mapArgument_le {change : List Char → List Char}
    (shorter : ∀ text, (change text).length ≤ text.length) (argument : Argument) :
    (printArgument (mapArgument change argument)).length ≤ (printArgument argument).length := by
  rcases argument with ⟨key, value⟩
  have keyShorter := shorter key
  cases value with
  | none => exact keyShorter
  | some value =>
      have valueShorter := shorter value
      simp only [mapArgument, printArgument, Option.map_some, List.length_append, List.length_cons]
      omega

theorem mapArgument_lengths {change : List Char → List Char}
    (shorter : ∀ text, (change text).length ≤ text.length) {argument : Argument}
    (same : (printArgument (mapArgument change argument)).length =
      (printArgument argument).length) :
    (change argument.1).length = argument.1.length ∧
      ∀ value ∈ argument.2, (change value).length = value.length := by
  rcases argument with ⟨key, value⟩
  have keyShorter := shorter key
  cases value with
  | none => exact ⟨same, fun _ none => by cases none⟩
  | some value =>
      have valueShorter := shorter value
      simp only [mapArgument, printArgument, Option.map_some, List.length_append,
        List.length_cons] at same
      refine ⟨?_, fun other member => ?_⟩
      · show (change key).length = key.length
        omega
      · cases member
        omega

/-! ## What survives printing and reading -/

structure Plain (digit : Char → Option Nat) (cut : List Char → List Char) (text : List Char) :
    Prop where
  noSeparator : '&' ∉ text
  noFragment : '#' ∉ text
  noPlus : '+' ∉ text
  uncut : cut text = text
  undecoded : percentDecode digit text = text

structure PlainArgument (digit : Char → Option Nat) (cut : List Char → List Char)
    (argument : Argument) : Prop where
  key : Plain digit cut argument.1
  noEquals : '=' ∉ argument.1
  value : ∀ value ∈ argument.2, Plain digit cut value

section

variable {digit : Char → Option Nat} {cut : List Char → List Char} {arguments : List Argument}

theorem Plain.decodeText {text : List Char} (plain : Plain digit cut text) :
    decodeText digit text = text := by
  rw [QueryText.decodeText, (plusToSpace_eq_self_iff text).mpr plain.noPlus, plain.undecoded]

theorem mapArgument_eq_self {change : List Char → List Char} {argument : Argument}
    (key : change argument.1 = argument.1) (value : ∀ value ∈ argument.2, change value = value) :
    mapArgument change argument = argument := by
  rcases argument with ⟨name, none | text⟩
  · rw [mapArgument, key]
    rfl
  · rw [mapArgument, key, Option.map_some, value text rfl]

theorem mem_printArgument {argument : Argument} {char : Char} (equals : char ≠ '=') :
    char ∈ printArgument argument ↔
      char ∈ argument.1 ∨ ∃ value ∈ argument.2, char ∈ value := by
  rcases argument with ⟨key, none | value⟩
  · simp [printArgument]
  · simp [printArgument, equals]

theorem mem_joinArguments {char : Char} (separator : char ≠ '&') :
    char ∈ joinArguments arguments ↔ ∃ argument ∈ arguments, char ∈ printArgument argument := by
  rw [joinArguments]
  induction arguments with
  | nil => simp
  | cons argument arguments induction =>
      cases arguments with
      | nil => simp
      | cons next rest =>
          rw [List.map_cons] at induction ⊢
          rw [List.map_cons, List.intercalate_cons_cons]
          simp [separator, induction]

theorem decodeArguments_joinArguments
    (plain : ∀ argument ∈ arguments, PlainArgument digit cut argument)
    (last : ∀ argument ∈ arguments.getLast?, printArgument argument ≠ []) :
    decodeArguments digit (joinArguments arguments) = arguments := by
  cases shape : arguments with
  | nil => rfl
  | cons first rest =>
      rw [← shape]
      have nonempty : arguments.map printArgument ≠ [] := by
        rw [shape]
        exact List.cons_ne_nil _ _
      have splits : (joinArguments arguments).splitOn '&' = arguments.map printArgument := by
        refine List.splitOn_intercalate '&' (fun text member => ?_) nonempty
        rcases List.mem_map.mp member with ⟨argument, inArguments, rfl⟩
        rw [mem_printArgument (by decide), not_or]
        have own := plain argument inArguments
        exact ⟨own.key.noSeparator, fun ⟨value, isValue, inValue⟩ =>
          (own.value value isValue).noSeparator inValue⟩
      have lastPiece : (arguments.map printArgument).getLast? ≠ some [] := by
        rw [List.getLast?_map]
        intro none
        rcases Option.map_eq_some_iff.mp none with ⟨argument, isLast, empty⟩
        exact last argument isLast empty
      rw [decodeArguments, rawArguments, pieces, splits, if_neg lastPiece, List.map_map,
        List.map_map]
      refine List.map_congr_left (fun argument member => ?_) |>.trans (List.map_id _)
      have own := plain argument member
      simp only [Function.comp_apply, splitArgument_printArgument own.noEquals, id_eq]
      exact mapArgument_eq_self own.key.decodeText fun value isValue =>
        (own.value value isValue).decodeText

theorem length_joinArguments (nonempty : arguments ≠ []) :
    (joinArguments arguments).length + 1 = total (arguments.map printArgument) :=
  length_intercalate fun none => nonempty (List.map_eq_nil_iff.mp none)

theorem joinArguments_rawArguments {query : List Char} (all : pieces query = query.splitOn '&') :
    joinArguments (rawArguments query) = query := by
  have printed : printArgument ∘ splitArgument = id := funext printArgument_splitArgument
  rw [joinArguments, rawArguments, all, List.map_map, printed, List.map_id,
    List.intercalate_splitOn]

theorem printArgument_rawArguments (query : List Char) :
    (rawArguments query).map printArgument = pieces query := by
  have printed : printArgument ∘ splitArgument = id := funext printArgument_splitArgument
  rw [rawArguments, List.map_map, printed, List.map_id]

theorem decodeArguments_of_total {query : List Char}
    (all : query.length + 1 ≤ total ((decodeArguments digit query).map printArgument)) :
    pieces query = query.splitOn '&' ∧
      decodeArguments digit query = (rawArguments query).map (mapArgument plusToSpace) := by
  have shorter : ∀ argument ∈ rawArguments query,
      (printArgument (mapArgument (decodeText digit) argument)).length ≤
        (printArgument argument).length :=
    fun argument _ => length_mapArgument_le (length_decodeText_le digit) argument
  have bound := total_map_le shorter
  rw [printArgument_rawArguments] at bound
  rw [decodeArguments, List.map_map] at all
  refine ⟨pieces_eq_splitOn (all.trans bound), List.map_congr_left fun argument member => ?_⟩
  have lengths := length_eq_of_total shorter (by
    rw [printArgument_rawArguments]
    exact (total_pieces_le query).trans all) argument member
  rcases argument with ⟨key, value⟩
  rcases mapArgument_lengths (length_decodeText_le digit) lengths with ⟨keyLength, valueLength⟩
  rw [mapArgument, mapArgument, decodeText_eq_plusToSpace digit keyLength]
  cases value with
  | none => rfl
  | some value =>
      rw [Option.map_some, decodeText_eq_plusToSpace digit (valueLength value rfl)]
      rfl

theorem plus_not_mem_plusToSpace (text : List Char) : '+' ∉ plusToSpace text := by
  intro member
  rcases List.mem_map.mp member with ⟨char, _, equal⟩
  split at equal
  · cases equal
  · next other => exact other equal

theorem last_ne_nil {query : List Char} (all : pieces query = query.splitOn '&') :
    (pieces query).getLast? ≠ some [] := by
  intro last
  have dropped : pieces query = (query.splitOn '&').dropLast := by
    rw [pieces, if_pos (all ▸ last)]
  have lengths := congrArg List.length (dropped.symm.trans all)
  rw [List.length_dropLast] at lengths
  have positive := List.length_pos_of_ne_nil (List.splitOn_ne_nil '&' query)
  omega

theorem plainArgument_of_raw {argument : Argument} (member : argument ∈ arguments)
    (raw : arguments = rawArguments (joinArguments arguments))
    (survives : decodeArguments digit (joinArguments arguments) = arguments)
    (all : pieces (joinArguments arguments) = (joinArguments arguments).splitOn '&')
    (uncut : arguments.map (mapArgument cut) = arguments)
    (noFragment : '#' ∉ joinArguments arguments) (noPlus : '+' ∉ joinArguments arguments) :
    PlainArgument digit cut argument := by
  have written : '#' ∉ printArgument argument ∧ '+' ∉ printArgument argument :=
    ⟨fun inText => noFragment ((mem_joinArguments (by decide)).mpr ⟨argument, member, inText⟩),
      fun inText => noPlus ((mem_joinArguments (by decide)).mpr ⟨argument, member, inText⟩)⟩
  have inRaw : argument ∈ rawArguments (joinArguments arguments) := by
    rwa [← raw]
  have noSeparator : '&' ∉ printArgument argument := by
    rcases List.mem_map.mp inRaw with ⟨piece, isPiece, rfl⟩
    rw [printArgument_splitArgument]
    exact separator_not_mem (all ▸ isPiece)
  have noEquals : '=' ∉ argument.1 := by
    rcases List.mem_map.mp inRaw with ⟨piece, _, rfl⟩
    exact splitArgument_key piece
  have decoded : mapArgument (decodeText digit) argument = argument := by
    have same : (rawArguments (joinArguments arguments)).map (mapArgument (decodeText digit)) =
        (rawArguments (joinArguments arguments)).map id := by
      rw [List.map_id, ← raw]
      conv_rhs => rw [← survives, decodeArguments, ← raw]
    exact List.map_inj_left.mp same argument inRaw
  have cutSame : mapArgument cut argument = argument :=
    List.map_inj_left.mp (uncut.trans (List.map_id _).symm) argument member
  rw [mem_printArgument (by decide), not_or] at noSeparator
  rw [mem_printArgument (by decide), mem_printArgument (by decide), not_or, not_or] at written
  have undecoded {text : List Char} (same : decodeText digit text = text) (plus : '+' ∉ text) :
      percentDecode digit text = text := by
    rw [decodeText, (plusToSpace_eq_self_iff text).mpr plus] at same
    exact same
  refine ⟨⟨noSeparator.1, written.1.1, written.2.1, congrArg Prod.fst cutSame,
    undecoded (congrArg Prod.fst decoded) written.2.1⟩, noEquals, fun value isValue => ?_⟩
  have inValue {char : Char} (absent : ¬ ∃ value ∈ argument.2, char ∈ value) : char ∉ value :=
    fun member => absent ⟨value, isValue, member⟩
  have changed (change : List Char → List Char) (same : mapArgument change argument = argument) :
      change value = value := by
    have seconds := congrArg Prod.snd same
    rw [mapArgument, isValue] at seconds
    exact Option.some.inj seconds
  exact ⟨inValue noSeparator.2, inValue written.1.2, inValue written.2.2, changed cut cutSame,
    undecoded (changed _ decoded) (inValue written.2.2)⟩

/-- Arguments that are read as they were, though `cut` and a fragment may take from what
is printed, are plain, and the last is not empty. -/
theorem plainArgument_of_decoded (shorter : ∀ text, (cut text).length ≤ text.length)
    (kept : ∀ text, (cut text).length = text.length → cut text = text)
    (survives : decodeArguments digit
      ((joinArguments (arguments.map (mapArgument cut))).takeWhile fun char => char ≠ '#') =
        arguments) :
    (∀ argument ∈ arguments, PlainArgument digit cut argument) ∧
      ∀ argument ∈ arguments.getLast?, printArgument argument ≠ [] := by
  by_cases none : arguments = []
  · rw [none]
    simp
  have shownShorter : ∀ argument ∈ arguments,
      (printArgument (mapArgument cut argument)).length ≤ (printArgument argument).length :=
    fun argument _ => length_mapArgument_le shorter argument
  have shown : (joinArguments (arguments.map (mapArgument cut))).length + 1 =
      total (arguments.map (printArgument ∘ mapArgument cut)) := by
    rw [length_joinArguments (fun empty => none (List.map_eq_nil_iff.mp empty)), List.map_map]
  have shownBound : total (arguments.map (printArgument ∘ mapArgument cut)) ≤
      total (arguments.map printArgument) := total_map_le shownShorter
  have readBound := total_pieces_le
    ((joinArguments (arguments.map (mapArgument cut))).takeWhile fun char => char ≠ '#')
  have decodedBound : total (arguments.map printArgument) ≤
      total (pieces ((joinArguments (arguments.map (mapArgument cut))).takeWhile
        fun char => char ≠ '#')) := by
    rw [← printArgument_rawArguments]
    nth_rewrite 1 [← survives]
    rw [decodeArguments, List.map_map]
    exact total_map_le fun argument _ => length_mapArgument_le (length_decodeText_le digit) argument
  have prefixBound := (List.takeWhile_prefix (l := joinArguments (arguments.map (mapArgument cut)))
    fun char => decide (char ≠ '#')).length_le
  -- nothing is cut from the keys and values, and nothing is a fragment
  have uncut : arguments.map (mapArgument cut) = arguments := by
    refine (List.map_congr_left fun argument member => ?_).trans (List.map_id _)
    have lengths := length_eq_of_total shownShorter (by
      have same : (fun argument => printArgument (mapArgument cut argument)) =
        printArgument ∘ mapArgument cut := rfl
      rw [same]
      omega) argument member
    rcases mapArgument_lengths shorter lengths with ⟨key, value⟩
    exact mapArgument_eq_self (kept _ key) fun text isValue => kept _ (value text isValue)
  have whole : (joinArguments arguments).takeWhile (fun char => decide (char ≠ '#')) =
      joinArguments arguments := by
    rw [uncut] at prefixBound shown readBound decodedBound
    refine (List.takeWhile_prefix _).eq_of_length ?_
    omega
  rw [uncut, whole] at survives
  have noFragment : '#' ∉ joinArguments arguments := by
    intro member
    have tested := List.takeWhile_eq_self_iff.mp whole '#' member
    simp at tested
  -- so the arguments are the pieces, but for `+`
  have length := length_joinArguments none
  have kept : (joinArguments arguments).length + 1 ≤
      total ((decodeArguments digit (joinArguments arguments)).map printArgument) := by
    rw [survives]
    exact length.le
  rcases decodeArguments_of_total kept with ⟨all, replaced⟩
  rw [survives] at replaced
  have noPlus : '+' ∉ joinArguments arguments := by
    rw [mem_joinArguments (by decide), replaced]
    rintro ⟨argument, member, inText⟩
    rcases List.mem_map.mp member with ⟨raw, _, rfl⟩
    rcases (mem_printArgument (by decide)).mp inText with inKey | ⟨value, isValue, inValue⟩
    · exact plus_not_mem_plusToSpace _ inKey
    · rcases Option.map_eq_some_iff.mp isValue with ⟨text, _, rfl⟩
      exact plus_not_mem_plusToSpace _ inValue
  have raw : arguments = rawArguments (joinArguments arguments) := by
    refine replaced.trans ((List.map_congr_left fun argument member => ?_).trans (List.map_id _))
    have plain : '+' ∉ printArgument argument := by
      intro inText
      apply noPlus
      rw [← joinArguments_rawArguments all, mem_joinArguments (by decide)]
      exact ⟨argument, member, inText⟩
    rw [mem_printArgument (by decide), not_or] at plain
    exact mapArgument_eq_self ((plusToSpace_eq_self_iff _).mpr plain.1) fun value isValue =>
      (plusToSpace_eq_self_iff _).mpr fun inValue => plain.2 ⟨value, isValue, inValue⟩
  constructor
  · intro argument member
    exact plainArgument_of_raw member raw survives all uncut noFragment noPlus
  · intro argument isLast empty
    apply last_ne_nil all
    rw [← printArgument_rawArguments, ← raw, List.getLast?_map, isLast]
    exact congrArg some empty

end

end Nodogsplash.QueryText
