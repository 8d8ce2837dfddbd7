import Nodogsplash.Foundation.LexicalPath
import Nodogsplash.Http

/-! # The paths of requests

`buffer_path_simplify` leaves no `..` segment, so that `serve_file` stays inside
the web root. -/

namespace Nodogsplash

open LexicalPath (segments resolve)

def NoParent (path : List Char) : Prop := ['.', '.'] ∉ segments '/' path

/-! ## Prefixes of a path -/

theorem noParent_append {first rest : List Char} :
    NoParent (first ++ '/' :: rest) ↔ NoParent first ∧ NoParent rest := by
  rw [NoParent, LexicalPath.segments_append, List.mem_append, not_or]
  rfl

theorem noParent_of_plain {name : List Char} (plain : '/' ∉ name) :
    NoParent name ↔ name ≠ ['.', '.'] := by
  rw [NoParent, LexicalPath.segments_of_plain plain, List.mem_singleton, ne_comm]

theorem noParent_nil : NoParent [] :=
  (noParent_of_plain List.not_mem_nil).mpr (List.cons_ne_nil _ _).symm

theorem noParent_snoc {first name : List Char} (clean : NoParent first) (plain : '/' ∉ name)
    (other : name ≠ ['.', '.']) : NoParent (first ++ '/' :: name) :=
  noParent_append.mpr ⟨clean, (noParent_of_plain plain).mpr other⟩

theorem noParent_singleton (char : Char) : NoParent [char] := by
  by_cases slash : char = '/'
  · rw [slash]
    exact noParent_append.mpr ⟨noParent_nil, noParent_nil⟩
  · exact (noParent_of_plain (by simpa [eq_comm] using slash)).mpr (by simp)

theorem lastSlash_cases (out : List Char) (position : Nat) :
    (out[lastSlash out position]? = some '/' ∧ lastSlash out position ≤ position) ∨
      lastSlash out position = 0 := by
  induction position with
  | zero => exact .inr rfl
  | succ position induction =>
      rw [lastSlash]
      split
      · next slash => exact .inl ⟨slash, le_refl _⟩
      · rcases induction with ⟨slash, below⟩ | start
        · exact .inl ⟨slash, by omega⟩
        · exact .inr start

theorem noParent_take {path : List Char} (clean : NoParent path) {position : Nat}
    (slash : path[position]? = some '/') :
    NoParent (path.take position) ∧ NoParent (path.take (position + 1)) := by
  have split : path = path.take position ++ '/' :: path.drop (position + 1) := by
    rcases List.getElem?_eq_some_iff.mp slash with ⟨below, equal⟩
    rw [← equal, ← List.drop_eq_getElem_cons below, List.take_append_drop]
  rw [split] at clean
  have parts := noParent_append.mp clean
  refine ⟨parts.1, ?_⟩
  rw [List.take_add_one, slash]
  exact noParent_append.mpr ⟨parts.1, noParent_nil⟩

theorem noParent_take_one (path : List Char) : NoParent (path.take 1) := by
  cases path with
  | nil => exact noParent_nil
  | cons char rest => exact noParent_singleton char

/-! ## The end of a token -/

/-- A component that goes takes what precedes it up to a slash, or everything. -/
theorem noParent_removed {kept rest : List Char} (clean : NoParent kept) (final : Bool) :
    NoParent ((kept ++ '/' :: rest).take
      ((if kept.length > 0 then lastSlash (kept ++ '/' :: rest) (kept.length - 1)
        else kept.length) + if final then 1 else 0)) := by
  have start : NoParent ((kept ++ '/' :: rest).take (0 + if final then 1 else 0)) := by
    cases final with
    | false => exact noParent_nil
    | true => exact noParent_take_one _
  split
  · next nonempty =>
      rcases lastSlash_cases (kept ++ '/' :: rest) (kept.length - 1) with ⟨slash, bound⟩ | zero
      · have inKept : lastSlash (kept ++ '/' :: rest) (kept.length - 1) < kept.length := by omega
        rw [List.getElem?_append_left inKept] at slash
        have parts := noParent_take clean slash
        cases final with
        | false =>
            rw [List.take_append_of_le_length (by simpa using inKept.le)]
            exact parts.1
        | true =>
            rw [if_pos rfl, List.take_append_of_le_length (Nat.succ_le_of_lt inKept)]
            exact parts.2
      · rw [zero]
        exact start
  · next empty =>
      have none : kept.length = 0 := by omega
      rw [none]
      exact start

theorem noParent_tokenEnd_slash {kept : List Char} (clean : NoParent kept) (pre2 : Char)
    (final : Bool) :
    NoParent ((kept ++ ['/']).take (tokenEnd (kept ++ ['/']) kept.length pre2 '/' final)) := by
  have position : tokenEnd (kept ++ ['/']) kept.length pre2 '/' final =
      kept.length + if final then 1 else 0 := by
    simp [tokenEnd]
  rw [position]
  cases final with
  | false => simpa using clean
  | true =>
      rw [if_pos rfl, List.take_length_add_append]
      exact noParent_append.mpr ⟨clean, noParent_nil⟩

theorem noParent_tokenEnd {kept name : List Char} (clean : NoParent kept) (plain : '/' ∉ name)
    {pre2 char : Char} (last : ('/' :: name).getLast? = some pre2) (ordinary : char ≠ '/')
    (final : Bool) :
    NoParent ((kept ++ '/' :: (name ++ [char])).take
      (tokenEnd (kept ++ '/' :: (name ++ [char])) kept.length pre2 char final)) := by
  have whole (other : name ++ [char] ≠ ['.', '.']) :
      NoParent (kept ++ '/' :: (name ++ [char])) :=
    noParent_snoc clean (by simpa [plain] using ordinary.symm) other
  rcases List.eq_nil_or_concat' name with rfl | ⟨init, previous, rfl⟩
  · have slash : pre2 = '/' := by simpa using last.symm
    subst slash
    by_cases dot : char = '.'
    · have position : tokenEnd (kept ++ '/' :: ([] ++ [char])) kept.length '/' char final =
          kept.length + if final then 1 else 0 := by
        simp [tokenEnd, dot]
      rw [position]
      cases final with
      | false => simpa using clean
      | true =>
          rw [List.take_length_add_append]
          exact noParent_append.mpr ⟨clean, noParent_nil⟩
    · have position : tokenEnd (kept ++ '/' :: ([] ++ [char])) kept.length '/' char final =
          (kept ++ '/' :: ([] ++ [char])).length := by
        simp [tokenEnd, dot]
      rw [position, List.take_length]
      exact whole (by simp)
  · have same : previous = pre2 := by simpa [List.getLast?_cons] using last
    subst same
    have notSlash : previous ≠ '/' := by
      rintro rfl
      simp at plain
    by_cases parent : init ++ [previous] ++ [char] = ['.', '.']
    · have parts : init = [] ∧ previous = '.' ∧ char = '.' := by
        cases init with
        | nil => simpa using parent
        | cons first init =>
            have lengths := congrArg List.length parent
            simp at lengths
      rcases parts with ⟨rfl, rfl, rfl⟩
      have position :
          tokenEnd (kept ++ '/' :: ([] ++ ['.'] ++ ['.'])) kept.length '.' '.' final =
            (if kept.length > 0
              then lastSlash (kept ++ '/' :: ([] ++ ['.'] ++ ['.'])) (kept.length - 1)
              else kept.length) + if final then 1 else 0 := by
        simp [tokenEnd]
      rw [position]
      exact noParent_removed clean final
    · have position : tokenEnd (kept ++ '/' :: (init ++ [previous] ++ [char])) kept.length previous
          char final = (kept ++ '/' :: (init ++ [previous] ++ [char])).length := by
        cases init with
        | nil =>
            simp only [List.nil_append, List.cons_append, List.cons.injEq, and_true] at parent
            simp only [tokenEnd, notSlash]
            simp
            intro first second
            exact absurd ⟨first, second⟩ parent
        | cons first init =>
            simp only [tokenEnd, notSlash]
            simp
      rw [position, List.take_length]
      exact whole parent

/-- The path is not two dots, and does not begin with them and a slash. -/
def FirstOther (path : List Char) : Prop :=
  path ≠ ['.', '.'] ∧ ∀ rest, path ≠ '.' :: '.' :: '/' :: rest

theorem noParent_tokenEnd_first {name : List Char} (plain : '/' ∉ name)
    (other : name ≠ ['.', '.']) {pre2 char : Char} (notSlash : pre2 ≠ '/') (final : Bool) :
    NoParent (name.take (tokenEnd name 0 pre2 char final)) := by
  have noSlash : name[0]? ≠ some '/' := fun first => plain (List.mem_of_getElem? first)
  by_cases single : name.length = 1
  · have position : tokenEnd name 0 pre2 char final = 0 + if final then 1 else 0 := by
      simp [tokenEnd, single]
    rw [position]
    cases final with
    | false => exact noParent_nil
    | true => exact noParent_take_one name
  · have position : tokenEnd name 0 pre2 char final = name.length := by
      simp [tokenEnd, single, notSlash, noSlash]
    rw [position, List.take_length]
    exact (noParent_of_plain plain).mpr other

/-! ## The loop -/

/-- How far `buffer_path_simplify` is: between tokens, in a token after its slash,
or in a first token that has none. `out` is what has been stored, `rest` what is
still to be read. -/
inductive Scanning (pre1 : Char) (out : List Char) (slash : Nat) (rest : List Char) : Prop
  | between (clean : NoParent out) (start : slash = out.length)
      (ahead : ∀ char ∈ rest.head?, char = '/')
  | token (kept name : List Char) (stored : out = kept ++ '/' :: name) (clean : NoParent kept)
      (start : slash = kept.length) (plain : '/' ∉ name)
      (last : ('/' :: name).getLast? = some pre1)
      (ahead : ∃ char ∈ rest.head?, char ≠ '/')
  | first (plain : '/' ∉ out) (start : slash = 0) (last : pre1 ≠ '/')
      (other : FirstOther (out ++ rest)) (ahead : ∃ char ∈ rest.head?, char ≠ '/')

theorem Scanning.ended {out : List Char} (clean : NoParent out) (pre1 : Char) (rest : List Char) :
    Scanning pre1 out out.length ('/' :: rest) :=
  .between clean rfl (by simp)

theorem noParent_simplifyLoop {pre1 : Char} {out rest : List Char} {slash : Nat}
    (scanning : Scanning pre1 out slash rest) : NoParent (simplifyLoop pre1 out slash rest) := by
  induction rest generalizing pre1 out slash with
  | nil =>
      cases scanning with
      | between clean start ahead => exact clean
      | token kept name stored clean start plain last ahead => simp at ahead
      | first plain start last other ahead => simp at ahead
  | cons char rest induction =>
      -- the token goes on, ends before a slash or ends the input
      have step (ends : (∀ next ∈ rest.head?, next = '/') → ∀ final, NoParent
            ((out ++ [char]).take (tokenEnd (out ++ [char]) slash pre1 char final)))
          (goesOn : (∃ next ∈ rest.head?, next ≠ '/') → Scanning char (out ++ [char]) slash rest) :
          NoParent (simplifyLoop pre1 out slash (char :: rest)) := by
        rw [simplifyLoop]
        cases rest with
        | nil => exact ends (by simp) true
        | cons next rest =>
            by_cases ended : next = '/'
            · subst ended
              exact induction (.ended (ends (by simp) false) char rest)
            · have continues := induction (goesOn ⟨next, rfl, ended⟩)
              simpa [ended] using continues
      cases scanning with
      | between clean start ahead =>
          have slashed : char = '/' := ahead char rfl
          subst start slashed
          exact step (fun _ => noParent_tokenEnd_slash clean pre1) fun more =>
            .token out [] rfl clean rfl List.not_mem_nil rfl more
      | token kept name stored clean start plain last ahead =>
          have ordinary : char ≠ '/' := by simpa using ahead
          subst stored start
          rw [List.append_assoc, List.cons_append] at step
          exact step (fun _ => noParent_tokenEnd clean plain last ordinary) fun more =>
            .token kept (name ++ [char]) rfl clean rfl (by simpa [plain] using ordinary.symm)
              (by simp [List.getLast?_cons]) more
      | first plain start last other ahead =>
          have ordinary : char ≠ '/' := by simpa using ahead
          have plainNow : '/' ∉ out ++ [char] := by simpa [plain] using ordinary.symm
          subst start
          rw [← List.singleton_append, ← List.append_assoc] at other
          have notParent (ends : ∀ next ∈ rest.head?, next = '/') : out ++ [char] ≠ ['.', '.'] := by
            intro parent
            rw [parent] at other
            cases rest with
            | nil => exact other.1 rfl
            | cons next rest =>
                rw [ends next rfl] at other
                exact other.2 rest rfl
          exact step (fun ends => noParent_tokenEnd_first plainNow (notParent ends) last)
            fun more => .first plainNow rfl ordinary other more

/-- After the leading dots there is no parent segment without a slash before it. -/
theorem skipDots_cases (chars : List Char) :
    skipDots chars = [] ∨ (∃ rest, skipDots chars = '/' :: rest) ∨ FirstOther (skipDots chars) := by
  fun_cases skipDots chars with
  | case1 => exact .inl rfl
  | case2 rest => exact .inr (.inl ⟨rest, rfl⟩)
  | case3 => exact .inl rfl
  | case4 rest => exact .inr (.inl ⟨rest, rfl⟩)
  | case5 chars _ _ notParent notParentSlash =>
      exact .inr (.inr ⟨notParent, notParentSlash⟩)

theorem noParent_bufferPathSimplify (src : String) : NoParent (bufferPathSimplify src).toList := by
  rw [bufferPathSimplify, String.toList_ofList]
  generalize src.toList.dropWhile _ = chars
  apply noParent_simplifyLoop
  rcases skipDots_cases chars with none | ⟨rest, slashed⟩ | other
  · rw [none]
    exact .between noParent_nil rfl (by simp)
  · rw [slashed]
    exact .between noParent_nil rfl (by simp)
  · cases shape : skipDots chars with
    | nil => exact .between noParent_nil rfl (by simp)
    | cons char rest =>
        rw [shape] at other
        by_cases slashed : char = '/'
        · exact .between noParent_nil rfl (by simpa using slashed)
        · exact .first List.not_mem_nil rfl (by decide) other ⟨char, rfl, slashed⟩

/-! ## Lengths -/

theorem length_simplifyLoop_le (pre1 : Char) (out : List Char) (slash : Nat) (rest : List Char) :
    (simplifyLoop pre1 out slash rest).length ≤ out.length + rest.length := by
  induction rest generalizing pre1 out slash with
  | nil => exact Nat.le_refl _
  | cons char rest induction =>
      have kept (final : Bool) : ((out ++ [char]).take
          (tokenEnd (out ++ [char]) slash pre1 char final)).length ≤ out.length + 1 := by
        rw [List.length_take, List.length_append]
        exact min_le_right _ _
      rw [simplifyLoop, List.length_cons]
      split
      · exact (kept true).trans (by omega)
      · have longer := induction char ((out ++ [char]).take
          (tokenEnd (out ++ [char]) slash pre1 char false))
          ((out ++ [char]).take (tokenEnd (out ++ [char]) slash pre1 char false)).length
        have bound := kept false
        dsimp only
        omega
      · have longer := induction char (out ++ [char]) slash
        rw [List.length_append, List.length_singleton] at longer
        omega

theorem length_skipDots_le (chars : List Char) : (skipDots chars).length ≤ chars.length := by
  fun_cases skipDots chars <;> simp

theorem length_bufferPathSimplify_le (src : String) :
    (bufferPathSimplify src).length ≤ src.length := by
  rw [bufferPathSimplify, String.length_ofList]
  calc (simplifyLoop '\x00' [] 0 (skipDots (src.toList.dropWhile _))).length
      ≤ (skipDots (src.toList.dropWhile _)).length := by
        simpa using length_simplifyLoop_le '\x00' [] 0 (skipDots (src.toList.dropWhile _))
    _ ≤ (src.toList.dropWhile _).length := length_skipDots_le _
    _ ≤ src.toList.length := (List.dropWhile_sublist _).length_le
    _ = src.length := String.length_toList

/-! ## The buffer -/

def store (buffer : List Char) (index : Nat) (char : Char) : Option (List Char) :=
  if index < buffer.length then some (buffer.set index char) else none

/-- The loop of `buffer_path_simplify` on the buffer `dest`, of which it reads
what lies before `out`, and the NUL that it ends with. -/
def simplifyInto (pre1 : Char) (dest : List Char) (out slash : Nat) :
    List Char → Option (List Char)
  | [] => store dest out '\x00'
  | char :: rest => do
      let dest ← store dest out char
      let out := out + 1
      match rest.head? with
      | none => store dest (tokenEnd (dest.take out) slash pre1 char true) '\x00'
      | some '/' =>
          let out := tokenEnd (dest.take out) slash pre1 char false
          simplifyInto char dest out out rest
      | some _ => simplifyInto char dest out slash rest

/-- `buffer_path_simplify`, with the stores it makes to `dest`. -/
def bufferPathSimplifyInto (dest : List Char) (src : String) : Option (List Char) :=
  simplifyInto '\x00' dest 0 0 (skipDots (src.toList.dropWhile fun char => decide (char = ' ')))

/-- `PATH_MAX`. -/
def pathMax : Nat := 4096

/-- The file name that `serve_file` prints to its buffer. -/
def serveFileName (webroot url : String) : String :=
  String.ofList ((webroot ++ "/" ++ url).toList.take (pathMax - 1))

theorem tokenEnd_le {out : List Char} {slash : Nat} (below : slash < out.length)
    (pre2 pre1 : Char) (final : Bool) : tokenEnd out slash pre2 pre1 final ≤ out.length := by
  have one : (if final then 1 else 0) ≤ 1 := by
    cases final <;> simp
  have back : slash > 0 → lastSlash out (slash - 1) < slash := by
    intro positive
    rcases lastSlash_cases out (slash - 1) with ⟨_, bound⟩ | zero
    · omega
    · omega
  rw [tokenEnd]
  split
  · split
    · next positive =>
        have before := back positive
        omega
    · omega
  · split
    · omega
    · exact Nat.le_refl _

theorem store_end (out room after : List Char) (char : Char) (fits : 1 ≤ room.length) :
    store (out ++ (room ++ after)) out.length char =
      some (out ++ (char :: (room.tail ++ after))) := by
  cases room with
  | nil => simp at fits
  | cons first room =>
      rw [store, if_pos (by simp)]
      simp

theorem give_back (out room after : List Char) {position : Nat} (inside : position ≤ out.length) :
    out ++ (room ++ after) =
        out.take position ++ ((out.drop position ++ room) ++ after) ∧
      (out.take position).length = position := by
  constructor
  · rw [List.append_assoc, ← List.append_assoc (out.take position), List.take_append_drop]
  · rw [List.length_take, Nat.min_eq_left inside]

/-- On a buffer with room for the rest of the path and a NUL, the loop stores the
simplified path, and nothing behind the room. -/
theorem simplifyInto_eq (pre1 : Char) (out room after rest : List Char) {slash : Nat}
    (before : slash ≤ out.length) (fits : rest.length + 1 ≤ room.length) :
    ∃ left, simplifyInto pre1 (out ++ (room ++ after)) out.length slash rest =
          some (simplifyLoop pre1 out slash rest ++ '\x00' :: (left ++ after)) ∧
        (simplifyLoop pre1 out slash rest).length + left.length + 1 = out.length + room.length := by
  induction rest generalizing pre1 out room slash with
  | nil =>
      refine ⟨room.tail, ?_, ?_⟩
      · rw [simplifyInto, simplifyLoop, store_end out room after _ (by omega)]
      · rw [simplifyLoop, List.length_tail]
        omega
  | cons char rest induction =>
      rw [List.length_cons] at fits
      have stored : store (out ++ (room ++ after)) out.length char =
          some (out ++ [char] ++ (room.tail ++ after)) := by
        rw [store_end out room after _ (by omega), List.append_assoc, List.singleton_append]
      have grown : (out ++ [char]).length = out.length + 1 := by simp
      have read :
          (out ++ [char] ++ (room.tail ++ after)).take (out.length + 1) = out ++ [char] := by
        rw [← grown, List.take_left]
      have roomLeft : room.tail.length = room.length - 1 := List.length_tail
      have ends (final : Bool) : tokenEnd (out ++ [char]) slash pre1 char final ≤
          (out ++ [char]).length := tokenEnd_le (by omega) pre1 char final
      rw [simplifyInto, simplifyLoop, stored, Option.bind_eq_bind, Option.bind_some]
      dsimp only
      rw [read]
      cases rest with
      | nil =>
          rw [List.length_nil] at fits
          rcases give_back (out ++ [char]) room.tail after (ends true) with ⟨split, position⟩
          have final := store_end
            ((out ++ [char]).take (tokenEnd (out ++ [char]) slash pre1 char true))
            ((out ++ [char]).drop (tokenEnd (out ++ [char]) slash pre1 char true) ++ room.tail)
            after '\x00' (by rw [List.length_append]; omega)
          rw [position, ← split] at final
          refine ⟨_, final, ?_⟩
          have bound := ends true
          simp only [List.head?_nil, List.length_tail, List.length_append, List.length_drop,
            position, grown] at bound ⊢
          omega
      | cons next rest =>
          rw [List.length_cons] at fits
          by_cases ended : next = '/'
          · subst ended
            rcases give_back (out ++ [char]) room.tail after (ends false) with ⟨split, position⟩
            have bound := ends false
            rcases induction char
              ((out ++ [char]).take (tokenEnd (out ++ [char]) slash pre1 char false))
              ((out ++ [char]).drop (tokenEnd (out ++ [char]) slash pre1 char false) ++ room.tail)
              (Nat.le_refl _) (by simp only [List.length_cons, List.length_append]; omega) with
              ⟨left, stores, total⟩
            rw [position, ← split] at stores
            refine ⟨left, ?_, ?_⟩
            · simp only [List.head?_cons, position]
              exact stores
            · simp only [List.head?_cons, position, List.length_append, List.length_drop] at total ⊢
              rw [total, List.length_singleton]
              rw [grown] at bound
              omega
          · rcases induction char (out ++ [char]) room.tail
              (show slash ≤ (out ++ [char]).length by omega)
              (by rw [List.length_cons]; omega) with ⟨left, stores, total⟩
            rw [grown] at stores total
            refine ⟨left, ?_, ?_⟩
            · simpa [ended] using stores
            · simp only [List.head?_cons]
              omega

theorem bufferPathSimplifyInto_eq (dest : List Char) (src : String)
    (fits : src.length < dest.length) :
    ∃ left, bufferPathSimplifyInto dest src =
          some ((bufferPathSimplify src).toList ++ '\x00' :: (left ++ dest.drop (src.length + 1))) ∧
        (bufferPathSimplify src).length + left.length = src.length := by
  have shorter : (skipDots (src.toList.dropWhile fun char => decide (char = ' '))).length ≤
      src.length :=
    ((length_skipDots_le _).trans (List.dropWhile_sublist _).length_le).trans_eq
      String.length_toList
  have room : (dest.take (src.length + 1)).length = src.length + 1 := by
    rw [List.length_take]
    omega
  rcases simplifyInto_eq '\x00' [] (dest.take (src.length + 1)) (dest.drop (src.length + 1))
    (skipDots (src.toList.dropWhile fun char => decide (char = ' '))) (Nat.le_refl 0) (by omega)
    with ⟨left, stores, total⟩
  rw [List.nil_append, List.take_append_drop] at stores
  refine ⟨left, ?_, ?_⟩
  · rw [bufferPathSimplify, String.toList_ofList]
    exact stores
  · rw [bufferPathSimplify, String.length_ofList]
    rw [List.length_nil, room] at total
    omega

/-! ## Requests -/

/-- What `buffer_path_simplify` makes of a path stays inside the web root. -/
structure StaysInside (src : String) : Prop where
  noParent : NoParent (bufferPathSimplify src).toList
  notLonger : (bufferPathSimplify src).length ≤ src.length
  /-- The stores are to the first `src.length + 1` places of the buffer. -/
  stores : ∀ dest : List Char, src.length < dest.length →
    ∃ left, bufferPathSimplifyInto dest src =
        some ((bufferPathSimplify src).toList ++ '\x00' :: (left ++ dest.drop (src.length + 1))) ∧
      (bufferPathSimplify src).length + left.length = src.length
  /-- The file is below where the web root leads, from wherever it is resolved. -/
  inside : ∀ (webroot : String) (location : List (List Char)),
    (webroot ++ "/" ++ bufferPathSimplify src).length < pathMax →
      resolve '/' '.' location webroot.toList <:+
        resolve '/' '.' location (serveFileName webroot (bufferPathSimplify src)).toList

theorem Gateway.route_file {gateway : Gateway} {request : Request} {client : Client} {url : String}
    (routed : gateway.route request client = .respond (.file url)) :
    url = bufferPathSimplify request.url := by
  have preauthenticatedFile (config : Config)
      (decided : preauthenticated config request (bufferPathSimplify request.url) client =
        .respond (.file url)) : url = bufferPathSimplify request.url := by
    have notRedirect (target : Option String) :
        encodeAndRedirectToSplashpage config target ≠ .file url := by
      rw [encodeAndRedirectToSplashpage]
      split <;> simp
    simp only [preauthenticated] at decided
    split at decided
    · rw [redirectToSplashpage] at decided
      split at decided
      · simp at decided
      · exact absurd (Decision.respond.inj decided) (notRedirect _)
    · split at decided
      · split at decided
        · simp only [authenticateClient] at decided
          split at decided
          · split at decided
            · exact absurd (Decision.respond.inj decided) (notRedirect _)
            · simp at decided
          · simp at decided
        · exact absurd (Decision.respond.inj decided) (notRedirect _)
      · split at decided
        · simp at decided
        · exact (Response.file.inj (Decision.respond.inj decided)).symm
  simp only [route] at routed
  split at routed
  · rw [authenticated] at routed
    split at routed
    · simp at routed
    · split at routed
      · simp at routed
      · split at routed
        · simp at routed
        · exact (Response.file.inj (Decision.respond.inj routed)).symm
  · exact preauthenticatedFile _ routed

theorem Gateway.libmicrohttpdCb_file {gateway : Gateway} {request : Request} {url : String}
    (served : (gateway.libmicrohttpdCb request).1 = .file url) :
    url = bufferPathSimplify request.url := by
  simp only [libmicrohttpdCb] at served
  split at served
  · simp at served
  · next node found _ =>
      split at served
      · next response routed =>
          rw [show response = .file url from served] at routed
          exact route_file routed
      · simp at served
      · split at served
        · simp at served
        · next redirectUrl _ _ _ =>
            simp only [authenticatedResponse] at served
            split at served <;> simp at served

/-- `serve_file` only gets paths that stay inside the web root. -/
theorem Gateway.requests_stay_in_webroot (gateway : Gateway) (request : Request) :
    StaysInside request.url ∧
      ∀ url, (gateway.libmicrohttpdCb request).1 = .file url →
        url = bufferPathSimplify request.url := by
  refine ⟨?_, fun url served => libmicrohttpdCb_file served⟩
  constructor
  · exact noParent_bufferPathSimplify _
  · exact length_bufferPathSimplify_le _
  · exact fun dest fits => bufferPathSimplifyInto_eq dest _ fits
  · intro webroot location fits
    have whole : (serveFileName webroot (bufferPathSimplify request.url)).toList =
        webroot.toList ++ '/' :: (bufferPathSimplify request.url).toList := by
      rw [serveFileName, String.toList_ofList, List.take_of_length_le]
      · simp
      · rw [String.length_toList]
        omega
    rw [whole, LexicalPath.resolve_append]
    exact LexicalPath.suffix_resolve (noParent_bufferPathSimplify _) _

end Nodogsplash
