import Nodogsplash.SimplifiedPaths

/-! # The buffer of the URL

`buffer_path_simplify` has no limit: it stores each component of the path behind
those that it has kept, before it knows whether the component stays. -/

namespace Nodogsplash

open LexicalPath

/-! ## Components -/

/-- The components of a path, each with its slash. Only the first can lack one. -/
def pathTokens (path : List Char) : List (List Char) :=
  match segments '/' path with
  | [] => []
  | first :: names => (if first = [] then [] else [first]) ++ names.map ('/' :: ·)

def dotsToken (token : List Char) : Prop := token = ['/', '.'] ∨ token = ['/', '.', '.']

instance (token : List Char) : Decidable (dotsToken token) := inferInstanceAs (Decidable (_ ∨ _))

/-- The components that are kept, from the last to the first, once another has been read:
two dots take one back, a dot and a single character leave them as they are. -/
def settle (kept : List (List Char)) (token : List Char) : List (List Char) :=
  if token = ['/', '.', '.'] then kept.tail
  else if token.length = 1 ∨ token = ['/', '.'] then kept
  else token :: kept

def keptText (kept : List (List Char)) : List Char := kept.reverse.flatten

/-- The places that a component takes. The last one is followed by a NUL, unless it is a
dot or two. -/
def tokenRoom (token : List Char) (after : List (List Char)) : Nat :=
  token.length + if after = [] ∧ ¬ dotsToken token then 1 else 0

/-- Each component has room behind those that are kept before it. -/
def TokensFit (limit : Nat) (kept tokens : List (List Char)) : Prop :=
  ∀ before token after, tokens = before ++ token :: after →
    (keptText (before.foldl settle kept)).length + tokenRoom token after ≤ limit

/-- The path that the loop of `buffer_path_simplify` reads. -/
def trimmedPath (src : String) : List Char :=
  skipDots (src.toList.dropWhile fun char => decide (char = ' '))

theorem tokensFit_nil (limit : Nat) (kept : List (List Char)) : TokensFit limit kept [] := by
  intro before token after split
  simp at split

theorem tokensFit_cons {limit : Nat} {kept rest : List (List Char)} {token : List Char} :
    TokensFit limit kept (token :: rest) ↔
      (keptText kept).length + tokenRoom token rest ≤ limit ∧
        TokensFit limit (settle kept token) rest := by
  constructor
  · intro fits
    refine ⟨fits [] token rest rfl, ?_⟩
    intro before other after split
    exact fits (token :: before) other after (by rw [split, List.cons_append])
  · rintro ⟨first, fits⟩ before other after split
    cases before with
    | nil =>
        rcases List.cons.inj split with ⟨rfl, rfl⟩
        exact first
    | cons head before =>
        rcases List.cons.inj split with ⟨rfl, others⟩
        exact fits before other after others

theorem tokenRoom_cons (token next : List Char) (rest : List (List Char)) :
    tokenRoom token (next :: rest) = token.length := by
  rw [tokenRoom, if_neg (by simp), Nat.add_zero]

/-! ## What is kept -/

/-- Every component that is kept begins with its slash and has no other, but the first
may have none. -/
inductive Stacked : List (List Char) → Prop
  | nil : Stacked []
  | first (char : Char) (name : List Char) (plain : '/' ∉ char :: name) : Stacked [char :: name]
  | push (name : List Char) (kept : List (List Char)) (plain : '/' ∉ name)
      (stacked : Stacked kept) : Stacked (('/' :: name) :: kept)

theorem Stacked.tail {kept : List (List Char)} (stacked : Stacked kept) : Stacked kept.tail := by
  cases stacked with
  | nil => exact .nil
  | first => exact .nil
  | push name kept plain stacked => exact stacked

theorem keptText_cons (token : List Char) (kept : List (List Char)) :
    keptText (token :: kept) = keptText kept ++ token := by
  simp [keptText]

theorem lastSlash_append (first : List Char) {name : List Char} (plain : '/' ∉ name)
    (after : List Char) {position : Nat} (low : first.length ≤ position)
    (high : position ≤ first.length + name.length) :
    lastSlash (first ++ '/' :: (name ++ after)) position = first.length := by
  induction position with
  | zero => exact (Nat.le_zero.mp low).symm
  | succ position induction =>
      rw [lastSlash]
      by_cases atSlash : first.length = position + 1
      · rw [if_pos (by rw [← atSlash]; simp), atSlash]
      · have other : (first ++ '/' :: (name ++ after))[position + 1]? ≠ some '/' := by
          rw [List.getElem?_append_right low]
          have inName : position + 1 - first.length = (position - first.length) + 1 := by omega
          rw [inName, List.getElem?_cons_succ, List.getElem?_append_left (by omega)]
          exact fun slash => plain (List.mem_of_getElem? slash)
        rw [if_neg other]
        exact induction (by omega) (by omega)

theorem lastSlash_plain {first : List Char} (plain : '/' ∉ first) (after : List Char)
    {position : Nat} (inside : position < first.length) :
    lastSlash (first ++ after) position = 0 := by
  induction position with
  | zero => rfl
  | succ position induction =>
      have other : (first ++ after)[position + 1]? ≠ some '/' := by
        rw [List.getElem?_append_left inside]
        exact fun slash => plain (List.mem_of_getElem? slash)
      rw [lastSlash, if_neg other]
      exact induction (by omega)

theorem Stacked.back {kept : List (List Char)} (stacked : Stacked kept) (after : List Char) :
    (if (keptText kept).length > 0 then
      lastSlash (keptText kept ++ after) ((keptText kept).length - 1)
        else (keptText kept).length) = (keptText kept.tail).length := by
  cases stacked with
  | nil => rfl
  | first char name plain =>
      have text : keptText [char :: name] = char :: name := by simp [keptText]
      have some : (char :: name).length > 0 := Nat.succ_pos _
      rw [text, if_pos some, lastSlash_plain plain after (by simp)]
      rfl
  | push name kept plain stacked =>
      have size : (keptText kept ++ '/' :: name).length - 1 =
          (keptText kept).length + name.length := by
        rw [List.length_append, List.length_cons]
        omega
      have some : (keptText kept ++ '/' :: name).length > 0 := by
        rw [List.length_append, List.length_cons]
        omega
      rw [keptText_cons, if_pos some, size, List.append_assoc, List.cons_append,
        List.tail_cons, lastSlash_append _ plain after (by omega) (by omega)]

/-! ## The end of a component -/

theorem settle_name {kept : List (List Char)} {name : List Char} (nonempty : name ≠ [])
    (noDots : name ≠ ['.'] ∧ name ≠ ['.', '.']) :
    settle kept ('/' :: name) = ('/' :: name) :: kept := by
  have long : ('/' :: name).length ≠ 1 := by simpa using nonempty
  rw [settle, if_neg (by simpa using noDots.2), if_neg (by simpa [nonempty] using noDots.1)]

theorem Stacked.settle {kept : List (List Char)} (stacked : Stacked kept) {name : List Char}
    (plain : '/' ∉ name) : Stacked (settle kept ('/' :: name)) := by
  rw [Nodogsplash.settle]
  split
  · exact stacked.tail
  · split
    · exact stacked
    · exact .push name kept plain stacked

/-- Where the component ends that has been read: behind it if it is kept, else behind
what stays, and behind a slash at the end of the path. -/
theorem tokenEnd_settle (before : Char) {kept : List (List Char)} (stacked : Stacked kept)
    {name : List Char} (plain : '/' ∉ name) (final : Bool) :
    tokenEnd (keptText kept ++ '/' :: name) (keptText kept).length (lastTwo before '/' name).1
        (lastTwo before '/' name).2 final =
      (keptText (settle kept ('/' :: name))).length +
        if name = [] ∨ name = ['.'] ∨ name = ['.', '.'] then (if final then 1 else 0) else 0 := by
  by_cases empty : name = []
  · subst empty
    simp [tokenEnd, lastTwo, settle]
  · by_cases dot : name = ['.']
    · subst dot
      simp [tokenEnd, lastTwo, settle]
    · by_cases dots : name = ['.', '.']
      · subst dots
        have back := stacked.back ['/', '.', '.']
        simp only [tokenEnd, lastTwo, settle] at back ⊢
        simp at back ⊢
        exact back
      · have whole := tokenEnd_name before (keptText kept) plain empty ⟨dot, dots⟩ final
        rw [whole, settle_name empty ⟨dot, dots⟩, keptText_cons]
        simp [empty, dot, dots]

/-- Before a slash the components that are kept are what remains. -/
theorem endedToken_settle (before : Char) {kept : List (List Char)} (stacked : Stacked kept)
    {name : List Char} (plain : '/' ∉ name) :
    endedToken before (keptText kept) (keptText kept).length '/' name false =
      keptText (settle kept ('/' :: name)) := by
  have kind : settle kept ('/' :: name) = kept.tail ∨ settle kept ('/' :: name) = kept ∨
      settle kept ('/' :: name) = ('/' :: name) :: kept := by
    rw [settle]
    split
    · exact .inl rfl
    · split
      · exact .inr (.inl rfl)
      · exact .inr (.inr rfl)
  have isPrefix : keptText (settle kept ('/' :: name)) <+: keptText kept ++ '/' :: name := by
    rcases kind with equal | equal | equal
    · rw [equal]
      cases kept with
      | nil => exact List.nil_prefix
      | cons token kept =>
          rw [keptText_cons, List.append_assoc]
          exact List.prefix_append _ _
    · rw [equal]
      exact List.prefix_append _ _
    · have whole : keptText (settle kept ('/' :: name)) = keptText kept ++ '/' :: name := by
        rw [equal, keptText_cons]
      exact whole ▸ List.prefix_rfl
  rw [endedToken, tokenEnd_settle before stacked plain]
  simp only [Bool.false_eq_true, if_false, ite_self, Nat.add_zero]
  exact (List.prefix_iff_eq_take.mp isPrefix).symm

/-! ## The stores of a component -/

theorem store_full (out : List Char) (char : Char) : store out out.length char = none :=
  if_neg (Nat.lt_irrefl _)

theorem store_next (out room : List Char) (first char : Char) :
    store (out ++ first :: room) out.length char = some (out ++ [char] ++ room) := by
  have inside : out.length < (out ++ first :: room).length := by simp
  rw [store, if_pos inside]
  simp

theorem isSome_store (buffer : List Char) (index : Nat) (char : Char) :
    (store buffer index char).isSome = true ↔ index < buffer.length := by
  rw [store]
  split
  · next inside => simp [inside]
  · next outside => simp [outside]

/-- What has been stored is what the end of a component is looked for in. -/
theorem take_stored (out room : List Char) (char : Char) :
    (out ++ [char] ++ room).take (out.length + 1) = out ++ [char] :=
  List.take_left' (by simp)

variable (before : Char) (out room : List Char) (slash : Nat) (char : Char) {name : List Char}

/-- Inside a component the loop stores one character after the other. -/
theorem simplifyInto_inside (first next : Char) (rest : List Char) (other : next ≠ '/') :
    simplifyInto before (out ++ first :: room) out.length slash (char :: next :: rest) =
      simplifyInto char (out ++ [char] ++ room) (out ++ [char]).length slash (next :: rest) := by
  rw [simplifyInto, store_next, List.length_append, List.length_singleton]
  simp only [Option.bind_eq_bind, Option.bind_some, List.head?_cons]

theorem simplifyInto_full (rest : List Char) :
    simplifyInto before (out ++ []) out.length slash (char :: rest) = none := by
  rw [List.append_nil, simplifyInto, store_full]
  rfl

theorem simplifyInto_last (plain : '/' ∉ name) :
    simplifyInto before (out ++ room) out.length slash (char :: name) =
      if name.length < room.length then
        store (out ++ char :: name ++ room.drop (name.length + 1))
          (tokenEnd (out ++ char :: name) slash (lastTwo before char name).1
            (lastTwo before char name).2 true) '\x00'
      else none := by
  induction name generalizing before char out room with
  | nil =>
      cases room with
      | nil => exact simplifyInto_full before out slash char []
      | cons first room =>
          have fits : ([] : List Char).length < (first :: room).length := Nat.succ_pos _
          rw [simplifyInto, store_next, if_pos fits]
          simp only [Option.bind_eq_bind, Option.bind_some, List.head?_nil, take_stored]
          rfl
  | cons next name induction =>
      rw [List.mem_cons, not_or] at plain
      cases room with
      | nil => exact simplifyInto_full before out slash char (next :: name)
      | cons first room =>
          rw [simplifyInto_inside before out room slash char first next name (Ne.symm plain.1),
            induction char (out ++ [char]) room next plain.2]
          simp only [List.append_assoc, List.singleton_append, List.length_cons, lastTwo,
            List.drop_succ_cons, Nat.add_lt_add_iff_right]

theorem simplifyInto_next (plain : '/' ∉ name) (rest : List Char) :
    simplifyInto before (out ++ room) out.length slash (char :: (name ++ '/' :: rest)) =
      if name.length < room.length then
        simplifyInto (lastTwo before char name).2
          (out ++ char :: name ++ room.drop (name.length + 1))
          (tokenEnd (out ++ char :: name) slash (lastTwo before char name).1
            (lastTwo before char name).2 false)
          (tokenEnd (out ++ char :: name) slash (lastTwo before char name).1
            (lastTwo before char name).2 false) ('/' :: rest)
      else none := by
  induction name generalizing before char out room with
  | nil =>
      cases room with
      | nil => exact simplifyInto_full before out slash char ('/' :: rest)
      | cons first room =>
          have fits : ([] : List Char).length < (first :: room).length := Nat.succ_pos _
          rw [simplifyInto, store_next, if_pos fits]
          simp only [Option.bind_eq_bind, Option.bind_some, List.nil_append, List.head?_cons,
            take_stored]
          rfl
  | cons next name induction =>
      rw [List.mem_cons, not_or] at plain
      cases room with
      | nil => exact simplifyInto_full before out slash char (next :: name ++ '/' :: rest)
      | cons first room =>
          rw [List.cons_append,
            simplifyInto_inside before out room slash char first next _ (Ne.symm plain.1),
            induction char (out ++ [char]) room next plain.2]
          simp only [List.append_assoc, List.nil_append, List.length_cons, lastTwo,
            List.drop_succ_cons, Nat.add_lt_add_iff_right, List.cons_append]

/-! ## The whole path -/

theorem isSome_simplifyInto_last {kept : List (List Char)} (stacked : Stacked kept)
    (plain : '/' ∉ name) :
    (simplifyInto before (keptText kept ++ room) (keptText kept).length (keptText kept).length
      ('/' :: name)).isSome = true ↔
        (keptText kept).length + tokenRoom ('/' :: name) [] ≤
          (keptText kept).length + room.length := by
  have shorter : (keptText kept.tail).length ≤ (keptText kept).length := by
    cases kept with
    | nil => exact Nat.le_refl _
    | cons token kept =>
        rw [List.tail_cons, keptText_cons, List.length_append]
        omega
  rw [simplifyInto_last before (keptText kept) room _ '/' plain, tokenRoom,
    tokenEnd_settle before stacked plain]
  simp only [dotsToken]
  split
  · next fits =>
      rw [isSome_store]
      simp only [List.length_append, List.length_cons, List.length_drop, List.cons.injEq, true_and]
      by_cases dot : name = ['.']
      · subst dot
        simp [settle] at fits ⊢
        omega
      · by_cases dots : name = ['.', '.']
        · subst dots
          simp [settle] at fits ⊢
          omega
        · by_cases empty : name = []
          · subst empty
            simp [settle] at fits ⊢
            omega
          · simp only [settle_name empty ⟨dot, dots⟩, keptText_cons, List.length_append,
              List.length_cons, empty, dot, dots, or_self, if_false, Nat.add_zero,
              not_false_eq_true, if_true]
            omega
  · next full =>
      simp only [Option.isSome_none, Bool.false_eq_true, List.length_cons, false_iff]
      omega

/-- A component before another fits, and the others behind what is kept of it. -/
theorem isSome_simplifyInto_step {kept : List (List Char)} (plain : '/' ∉ name)
    (position : tokenEnd (keptText kept ++ char :: name) (keptText kept).length
      (lastTwo before char name).1 (lastTwo before char name).2 false =
        (keptText (settle kept (char :: name))).length)
    (ended : (keptText kept ++ char :: name).take (keptText (settle kept (char :: name))).length =
      keptText (settle kept (char :: name)))
    {rest : List Char} {tokens : List (List Char)}
    (others : ∀ left : List Char,
      (keptText (settle kept (char :: name))).length + left.length =
          (keptText kept).length + room.length →
        ((simplifyInto (lastTwo before char name).2 (keptText (settle kept (char :: name)) ++ left)
          (keptText (settle kept (char :: name))).length
          (keptText (settle kept (char :: name))).length ('/' :: rest)).isSome = true ↔
            TokensFit ((keptText kept).length + room.length) (settle kept (char :: name)) tokens))
    (more : tokens ≠ []) :
    (simplifyInto before (keptText kept ++ room) (keptText kept).length (keptText kept).length
      (char :: (name ++ '/' :: rest))).isSome = true ↔
        TokensFit ((keptText kept).length + room.length) kept ((char :: name) :: tokens) := by
  have size : (keptText (settle kept (char :: name))).length ≤
      (keptText kept ++ char :: name).length := by
    rw [← ended, List.length_take]
    exact Nat.min_le_right _ _
  have place : tokenRoom (char :: name) tokens = name.length + 1 := by
    cases tokens with
    | nil => exact absurd rfl more
    | cons next tokens => rw [tokenRoom_cons, List.length_cons]
  rw [simplifyInto_next before (keptText kept) room _ char plain, position, tokensFit_cons, place]
  split
  · next fits =>
      have split : keptText kept ++ char :: name ++ room.drop (name.length + 1) =
          keptText (settle kept (char :: name)) ++
            ((keptText kept ++ char :: name).drop (keptText (settle kept (char :: name))).length ++
              room.drop (name.length + 1)) := by
        conv_lhs => rw [← List.take_append_drop (keptText (settle kept (char :: name))).length
          (keptText kept ++ char :: name), ended]
        rw [List.append_assoc]
      rw [split, others]
      · exact (and_iff_right (by omega)).symm
      · simp only [List.length_append, List.length_drop, List.length_cons] at size ⊢
        omega
  · next full =>
      simp only [Option.isSome_none, Bool.false_eq_true, false_iff]
      exact fun both => full (by omega)

/-- From the end of a component on, the loop stays inside the buffer exactly if the
others fit. -/
theorem isSome_simplifyInto {names : List (List Char)} (nonempty : names ≠ [])
    (plain : ∀ name ∈ names, '/' ∉ name) {kept : List (List Char)} (stacked : Stacked kept) :
    (simplifyInto before (keptText kept ++ room) (keptText kept).length (keptText kept).length
      ('/' :: ['/'].intercalate names)).isSome = true ↔
        TokensFit ((keptText kept).length + room.length) kept (names.map ('/' :: ·)) := by
  induction names generalizing before kept room with
  | nil => exact absurd rfl nonempty
  | cons name names induction =>
      have plainName := plain name List.mem_cons_self
      cases names with
      | nil =>
          rw [List.intercalate_singleton, isSome_simplifyInto_last before room stacked plainName,
            List.map_cons, List.map_nil, tokensFit_cons]
          exact (and_iff_left (tokensFit_nil _ _)).symm
      | cons next rest =>
          have ended := endedToken_settle before stacked plainName
          have position := tokenEnd_settle before stacked plainName false
          simp only [Bool.false_eq_true, if_false, ite_self, Nat.add_zero] at position
          rw [endedToken, position] at ended
          rw [List.intercalate_cons_cons, List.append_assoc, List.singleton_append, List.map_cons]
          apply isSome_simplifyInto_step before room '/' plainName position ended
          · intro left total
            rw [← total]
            exact induction (lastTwo before '/' name).2 left (List.cons_ne_nil next rest)
              (fun other member => plain other (List.mem_cons_of_mem _ member))
              (stacked.settle plainName)
          · exact List.cons_ne_nil _ _

/-! ## The first component -/

theorem settle_first (plain : '/' ∉ char :: name) :
    settle [] (char :: name) = if name = [] then [] else [char :: name] := by
  have other : char ≠ '/' := fun slash => plain (slash ▸ List.mem_cons_self)
  simp [settle, other]

theorem tokenEnd_first (plain : '/' ∉ char :: name) (final : Bool) :
    tokenEnd (char :: name) 0 (lastTwo '\x00' char name).1 (lastTwo '\x00' char name).2 final =
      (keptText (settle [] (char :: name))).length +
        if name = [] then (if final then 1 else 0) else 0 := by
  rw [settle_first char plain]
  rw [List.mem_cons, not_or] at plain
  cases name with
  | nil => simp [tokenEnd, lastTwo, keptText]
  | cons next name =>
      have others := plain.2
      rw [List.mem_cons, not_or] at others
      have slash : (lastTwo char next name).1 ≠ '/' :=
        lastTwo_fst_ne (Ne.symm plain.1) (Ne.symm others.1) others.2
      simp [tokenEnd, lastTwo, keptText, slash, Ne.symm plain.1]

theorem Stacked.settle_first (plain : '/' ∉ char :: name) :
    Stacked (Nodogsplash.settle [] (char :: name)) := by
  rw [Nodogsplash.settle_first char plain]
  split
  · exact .nil
  · exact .first char name plain

theorem take_settle_first (plain : '/' ∉ char :: name) :
    (char :: name).take (keptText (settle [] (char :: name))).length =
      keptText (settle [] (char :: name)) := by
  rw [settle_first char plain]
  split
  · rfl
  · simp [keptText]

/-- The loop stays inside a buffer exactly if each component of the path fits. -/
theorem isSome_simplifyInto_start {limit : Nat} (some : 0 < limit) (dest path : List Char)
    (size : dest.length = limit) :
    (simplifyInto '\x00' dest 0 0 path).isSome = true ↔ TokensFit limit [] (pathTokens path) := by
  have whole : ['/'].intercalate (segments '/' path) = path := List.intercalate_splitOn '/'
  have plain : ∀ name ∈ segments '/' path, '/' ∉ name :=
    fun _ member => separator_not_mem_segments member
  subst size
  rw [pathTokens]
  cases parts : segments '/' path with
  | nil => exact absurd parts (List.splitOn_ne_nil '/' path)
  | cons first names =>
      rw [parts] at whole plain
      dsimp only
      cases first with
      | nil =>
          rw [if_pos rfl, List.nil_append]
          cases names with
          | nil =>
              rw [← whole, List.intercalate_singleton, simplifyInto, isSome_store]
              exact iff_of_true some (tokensFit_nil _ _)
          | cons next names =>
              have loop := isSome_simplifyInto '\x00' dest (List.cons_ne_nil next names)
                (fun name member => plain name (List.mem_cons_of_mem _ member)) Stacked.nil
              rw [← whole, List.intercalate_cons_cons]
              simpa [keptText] using loop
      | cons char name =>
          have plainFirst := plain (char :: name) List.mem_cons_self
          have plainName : '/' ∉ name := fun member => plainFirst (List.mem_cons_of_mem _ member)
          rw [if_neg (List.cons_ne_nil char name), List.singleton_append]
          cases names with
          | nil =>
              have other : char ≠ '/' := fun slash => plainFirst (slash ▸ List.mem_cons_self)
              have stores := simplifyInto_last '\x00' [] dest 0 char plainName
              rw [List.nil_append, List.length_nil, List.nil_append,
                tokenEnd_first char plainFirst true, settle_first char plainFirst] at stores
              have place : tokenRoom (char :: name) [] = name.length + 2 := by
                simp [tokenRoom, dotsToken, other]
              have position : (keptText (if name = [] then [] else [char :: name])).length +
                  (if name = [] then (if true then 1 else 0) else 0) = name.length + 1 := by
                by_cases empty : name = []
                · simp [empty, keptText]
                · simp [empty, keptText]
              rw [← whole, List.intercalate_singleton, stores, List.map_nil, tokensFit_cons, place,
                position, and_iff_left (tokensFit_nil _ _), keptText, List.reverse_nil,
                List.flatten_nil, List.length_nil]
              split
              · next fits =>
                  rw [isSome_store]
                  simp only [List.length_append, List.length_cons, List.length_drop]
                  omega
              · next full =>
                  simp only [Option.isSome_none, Bool.false_eq_true, false_iff]
                  omega
          | cons next names =>
              have first := tokenEnd_first char plainFirst false
              simp only [Bool.false_eq_true, if_false, ite_self, Nat.add_zero] at first
              have position : tokenEnd (keptText [] ++ char :: name) (keptText []).length
                  (lastTwo '\x00' char name).1 (lastTwo '\x00' char name).2 false =
                    (keptText (settle [] (char :: name))).length := first
              have ended : (keptText [] ++ char :: name).take
                  (keptText (settle [] (char :: name))).length =
                    keptText (settle [] (char :: name)) := take_settle_first char plainFirst
              have step : (simplifyInto '\x00' (keptText [] ++ dest) (keptText []).length
                  (keptText []).length
                    (char :: (name ++ '/' :: ['/'].intercalate (next :: names)))).isSome = true ↔
                  TokensFit ((keptText []).length + dest.length) []
                    ((char :: name) :: (next :: names).map ('/' :: ·)) := by
                apply isSome_simplifyInto_step '\x00' dest char plainName position ended
                · intro left total
                  rw [← total]
                  exact isSome_simplifyInto _ left (List.cons_ne_nil next names)
                    (fun other member => plain other (List.mem_cons_of_mem _ member))
                    (.settle_first char plainFirst)
                · exact List.cons_ne_nil _ _
              rw [← whole, List.intercalate_cons_cons]
              simpa [keptText] using step

/-- The URL fits its buffer exactly if each component has room behind those that are
kept before it. -/
theorem url_fits_iff (url : String) :
    (bufferPathSimplifyInto (List.replicate pathMax '\x00') url).isSome = true ↔
      TokensFit pathMax [] (pathTokens (trimmedPath url)) :=
  isSome_simplifyInto_start (by decide) _ _ List.length_replicate

def plainUrl (length : Nat) : String := String.ofList ('/' :: List.replicate length 'a')

theorem pathTokens_plainUrl (length : Nat) :
    pathTokens (trimmedPath (plainUrl length)) = ['/' :: List.replicate length 'a'] := by
  have plain : '/' ∉ List.replicate length 'a' := by simp
  have trimmed : trimmedPath (plainUrl length) = '/' :: List.replicate length 'a' := by
    rw [trimmedPath, plainUrl, String.toList_ofList]
    rfl
  have parts : segments '/' ('/' :: List.replicate length 'a') =
      [[], List.replicate length 'a'] := by
    rw [← List.nil_append ('/' :: _), segments_cons_of_plain List.not_mem_nil,
      segments_of_plain plain]
  rw [trimmed, pathTokens, parts]
  rfl

/-- The last characters of a long one are stored behind the buffer. -/
theorem long_url_overflows :
    (bufferPathSimplifyInto (List.replicate pathMax '\x00') (plainUrl 4096)).isSome = false := by
  have long : ¬ TokensFit pathMax [] (pathTokens (trimmedPath (plainUrl 4096))) := by
    intro fits
    have room := fits [] _ [] (pathTokens_plainUrl 4096)
    rw [tokenRoom, List.length_cons, List.length_replicate, pathMax] at room
    omega
  rw [← Bool.not_eq_true, bufferPathSimplifyInto, ← trimmedPath,
    isSome_simplifyInto_start (by decide) _ _ List.length_replicate]
  exact long

end Nodogsplash
