import Mathlib.Data.Finmap
import Mathlib.Data.List.Nodup

/-! # Singly linked lists in memory

Cells that are allocated, linked and given back one by one. A program that
follows a link to a cell that is not allocated, or gives such a cell back, has no
result; neither has a loop that makes more rounds than there are cells. -/

namespace Nodogsplash.LinkedLists

universe u

structure Cell (ι α : Type u) where
  content : α
  next : Option ι

abbrev Heap (ι α : Type u) := Finmap fun _ : ι => Cell ι α

variable {ι α : Type u} [DecidableEq ι]

/-! ## Programs -/

def store (heap : Heap ι α) (address : ι) (change : Cell ι α → Cell ι α) : Option (Heap ι α) :=
  (heap.lookup address).map fun cell => heap.insert address (change cell)

def free (heap : Heap ι α) (address : ι) : Option (Heap ι α) :=
  (heap.lookup address).map fun _ => heap.erase address

/-- Follow the links to the end: the last cell, or `previous` if there is none. -/
def lastCell (heap : Heap ι α) : Nat → Option ι → Option ι → Option (Option ι)
  | _, previous, none => some previous
  | 0, _, some _ => none
  | fuel + 1, _, some address =>
      (heap.lookup address).bind fun cell => lastCell heap fuel (some address) cell.next

def findCell (heap : Heap ι α) (test : α → Bool) : Nat → Option ι → Option (Option ι)
  | _, none => some none
  | 0, some _ => none
  | fuel + 1, some address =>
      (heap.lookup address).bind fun cell =>
        if test cell.content then some (some address) else findCell heap test fuel cell.next

/-- Follow the links to the cell whose link leads to `target`, or to the last
cell. -/
def cellBefore (heap : Heap ι α) (target : ι) : Nat → ι → Option ι
  | 0, _ => none
  | fuel + 1, address =>
      (heap.lookup address).bind fun cell =>
        match cell.next with
        | none => some address
        | some next => if next = target then some address else cellBefore heap target fuel next

/-- Give back the cells one after the other; the link is read before its cell is
given back. -/
def freeCells : Nat → Heap ι α → Option ι → Option (Heap ι α)
  | _, heap, none => some heap
  | 0, _, some _ => none
  | fuel + 1, heap, some address =>
      (heap.lookup address).bind fun cell =>
        (free heap address).bind fun heap => freeCells fuel heap cell.next

def appendCell (heap : Heap ι α) (first : Option ι) (fresh : ι) (content : α) :
    Option (Heap ι α × Option ι) :=
  (lastCell heap heap.keys.card none first).bind fun last =>
    let heap := heap.insert fresh ⟨content, none⟩
    match last with
    | none => some (heap, some fresh)
    | some previous =>
        (store heap previous fun cell => { cell with next := some fresh }).map (·, first)

/-- Unlink a cell and give it back, and whether it has been found. -/
def deleteCell (heap : Heap ι α) (first : Option ι) (target : ι) :
    Option (Heap ι α × Option ι × Bool) :=
  match first with
  | none => some (heap, none, false)
  | some address =>
      if address = target then do
        let cell : Cell ι α ← heap.lookup address
        let heap ← free heap target
        return (heap, cell.next, true)
      else do
        let previous : ι ← cellBefore heap target heap.keys.card address
        let cell : Cell ι α ← heap.lookup previous
        if cell.next = none then
          return (heap, first, false)
        else
          let removed : Cell ι α ← heap.lookup target
          let heap ← store heap previous fun cell => { cell with next := removed.next }
          let heap ← free heap target
          return (heap, first, true)

/-! ## Lists -/

/-- The links from `link` to `stop` lead through these cells. -/
def Segment (heap : Heap ι α) (link : Option ι) (cells : List (ι × α)) (stop : Option ι) : Prop :=
  match cells with
  | [] => link = stop
  | (address, content) :: rest =>
      link = some address ∧
        ∃ next, heap.lookup address = some ⟨content, next⟩ ∧ Segment heap next rest stop

/-- A heap that holds a list and nothing else. -/
structure Holds (heap : Heap ι α) (first : Option ι) (cells : List (ι × α)) : Prop where
  linked : Segment heap first cells none
  distinct : (cells.map Prod.fst).Nodup
  owned : ∀ address, address ∈ heap ↔ address ∈ cells.map Prod.fst

theorem segment_append {heap : Heap ι α} {link stop : Option ι} {left right : List (ι × α)} :
    Segment heap link (left ++ right) stop ↔
      ∃ middle, Segment heap link left middle ∧ Segment heap middle right stop := by
  induction left generalizing link with
  | nil => simp [Segment]
  | cons head tail induction =>
      simp only [List.cons_append, Segment, induction]
      constructor
      · rintro ⟨start, next, read, middle, before, after⟩
        exact ⟨middle, ⟨start, next, read, before⟩, after⟩
      · rintro ⟨middle, ⟨start, next, read, before⟩, after⟩
        exact ⟨start, next, read, middle, before, after⟩

/-- Cells that another heap has as well are linked there in the same way. -/
theorem Segment.of_lookup_eq {heap other : Heap ι α} {link stop : Option ι}
    {cells : List (ι × α)} (segment : Segment heap link cells stop)
    (same : ∀ address ∈ cells.map Prod.fst, other.lookup address = heap.lookup address) :
    Segment other link cells stop := by
  induction cells generalizing link with
  | nil => exact segment
  | cons head tail induction =>
      rcases segment with ⟨start, next, read, rest⟩
      refine ⟨start, next, ?_, ?_⟩
      · rw [same head.1 (by simp), read]
      · apply induction rest
        intro address member
        exact same address (by simp [member])

theorem Segment.link_eq {heap : Heap ι α} {link : Option ι} {cells : List (ι × α)}
    (segment : Segment heap link cells none) : link = cells.head?.map Prod.fst := by
  cases cells with
  | nil => exact segment
  | cons head tail => exact segment.1

theorem Segment.lookup_split {heap : Heap ι α} {link : Option ι} {before after : List (ι × α)}
    {address : ι} {content : α}
    (segment : Segment heap link (before ++ (address, content) :: after) none) :
    heap.lookup address = some ⟨content, after.head?.map Prod.fst⟩ := by
  rcases segment_append.mp segment with ⟨_, _, _, next, read, rest⟩
  rw [read, rest.link_eq]

theorem Segment.lastCell_eq {heap : Heap ι α} {cells : List (ι × α)} {link : Option ι}
    (segment : Segment heap link cells none) {fuel : Nat} (enough : cells.length ≤ fuel)
    (previous : Option ι) :
    lastCell heap fuel previous link = some ((cells.getLast?.map Prod.fst).or previous) := by
  induction cells generalizing link fuel previous with
  | nil =>
      cases segment
      cases fuel <;> rfl
  | cons head tail induction =>
      rcases segment with ⟨rfl, next, read, rest⟩
      rcases Nat.exists_eq_add_of_lt enough with ⟨more, rfl⟩
      rw [lastCell, read, Option.bind_some, induction rest (by omega)]
      cases tail with
      | nil => rfl
      | cons second others =>
          rw [List.getLast?_cons_cons, List.getLast?_eq_some_getLast (List.cons_ne_nil _ _)]
          rfl

theorem Segment.findCell_eq {heap : Heap ι α} {cells : List (ι × α)} {link : Option ι}
    (segment : Segment heap link cells none) (test : α → Bool) {fuel : Nat}
    (enough : cells.length ≤ fuel) :
    findCell heap test fuel link = some ((cells.find? fun cell => test cell.2).map Prod.fst) := by
  induction cells generalizing link fuel with
  | nil =>
      cases segment
      cases fuel <;> rfl
  | cons head tail induction =>
      rcases segment with ⟨rfl, next, read, rest⟩
      rcases Nat.exists_eq_add_of_lt enough with ⟨more, rfl⟩
      rw [findCell, read, Option.bind_some]
      by_cases passes : test head.2 = true
      · simp [passes]
      · rw [if_neg passes, induction rest (by omega)]
        simp [passes]

theorem cellBefore_link {heap : Heap ι α} {address next : ι} {content : α}
    (read : heap.lookup address = some ⟨content, some next⟩) (target : ι) (fuel : Nat) :
    cellBefore heap target (fuel + 1) address =
      if next = target then some address else cellBefore heap target fuel next := by
  rw [cellBefore, read]
  rfl

theorem Segment.cellBefore_eq {heap : Heap ι α} {before after : List (ι × α)}
    {previous target : ι} {left right : α} {link : ι}
    (segment : Segment heap (some link)
      (before ++ (previous, left) :: (target, right) :: after) none)
    (absent : target ∉ before.map Prod.fst) (different : previous ≠ target) {fuel : Nat}
    (enough : before.length < fuel) : cellBefore heap target fuel link = some previous := by
  induction before generalizing link fuel with
  | nil =>
      rcases segment with ⟨start, next, read, second, _⟩
      cases start
      cases second
      rcases Nat.exists_eq_add_of_lt enough with ⟨more, rfl⟩
      rw [cellBefore_link read, if_pos rfl]
  | cons head tail induction =>
      rcases segment with ⟨start, next, read, rest⟩
      cases start
      have notTail : target ∉ tail.map Prod.fst :=
        fun member => absent (List.mem_cons_of_mem _ member)
      rcases fuel with _ | fuel
      · cases enough
      -- the cell that follows is not the target: it is in `tail`, or `previous`
      have following : ∃ second, next = some second ∧ second ≠ target := by
        cases tail with
        | nil => exact ⟨previous, rest.link_eq, different⟩
        | cons second others =>
            exact ⟨second.1, rest.link_eq, fun equal => notTail (by simp [equal])⟩
      rcases following with ⟨second, rfl, other⟩
      rw [cellBefore_link read, if_neg other]
      exact induction rest notTail (Nat.lt_of_succ_lt_succ enough)

/-! ## What the programs do to a list -/

namespace Holds

variable {heap : Heap ι α} {first : Option ι} {cells : List (ι × α)}

theorem card_keys (holds : Holds heap first cells) : heap.keys.card = cells.length := by
  have keys : heap.keys = (cells.map Prod.fst).toFinset := by
    ext address
    rw [Finmap.mem_keys, List.mem_toFinset, holds.owned]
  rw [keys, List.toFinset_card_of_nodup holds.distinct, List.length_map]

theorem empty : Holds (∅ : Heap ι α) none [] where
  linked := rfl
  distinct := List.nodup_nil
  owned := fun address => by simp [Finmap.notMem_empty]

theorem findCell_eq (holds : Holds heap first cells) (test : α → Bool) :
    findCell heap test heap.keys.card first =
      some ((cells.find? fun cell => test cell.2).map Prod.fst) :=
  holds.linked.findCell_eq test holds.card_keys.ge

theorem lookup_last {before : List (ι × α)} {last : ι × α}
    (holds : Holds heap first (before ++ [last])) : heap.lookup last.1 = some ⟨last.2, none⟩ :=
  holds.linked.lookup_split

theorem ne_of_split {before after : List (ι × α)} {cell : ι × α}
    (holds : Holds heap first (before ++ cell :: after)) :
    cell.1 ∉ before.map Prod.fst ∧ cell.1 ∉ after.map Prod.fst := by
  have distinct := holds.distinct
  rw [List.map_append, List.map_cons, List.nodup_append] at distinct
  refine ⟨?_, (List.nodup_cons.mp distinct.2.1).1⟩
  intro member
  exact distinct.2.2 cell.1 member cell.1 List.mem_cons_self rfl

theorem append (holds : Holds heap first cells) {fresh : ι} (unused : fresh ∉ heap)
    (content : α) :
    ∃ heap' first', appendCell heap first fresh content = some (heap', first') ∧
      Holds heap' first' (cells ++ [(fresh, content)]) := by
  have notListed : fresh ∉ cells.map Prod.fst := fun member =>
    unused ((holds.owned fresh).mpr member)
  have distinct : ((cells ++ [(fresh, content)]).map Prod.fst).Nodup := by
    rw [List.map_append, List.nodup_append]
    refine ⟨holds.distinct, List.nodup_singleton _, ?_⟩
    intro address member other inLast equal
    cases List.mem_singleton.mp inLast
    exact notListed (Eq.subst equal member)
  have last := holds.linked.lastCell_eq holds.card_keys.ge none
  rcases List.eq_nil_or_concat' cells with rfl | ⟨before, ⟨previous, old⟩, rfl⟩
  · refine ⟨heap.insert fresh ⟨content, none⟩, some fresh, ?_, ⟨?_, distinct, ?_⟩⟩
    · rw [appendCell, last]
      rfl
    · exact ⟨rfl, none, Finmap.lookup_insert _, rfl⟩
    · intro address
      rw [Finmap.mem_insert, holds.owned]
      simp
  · have different : previous ≠ fresh := fun equal => notListed (by simp [equal])
    have read := holds.lookup_last
    let extended := heap.insert fresh ⟨content, none⟩
    have inserted : extended.lookup previous = some ⟨old, none⟩ := by
      rw [Finmap.lookup_insert_of_ne _ different, read]
    refine ⟨extended.insert previous ⟨old, some fresh⟩, first, ?_, ⟨?_, distinct, ?_⟩⟩
    · rw [appendCell, last]
      simp [store, extended, inserted]
    · rcases segment_append.mp holds.linked with ⟨middle, front, start, _⟩
      rw [List.append_assoc, segment_append]
      refine ⟨middle, front.of_lookup_eq ?_, start, some fresh, Finmap.lookup_insert _, rfl, none,
        ?_, rfl⟩
      · intro address member
        have notPrevious : address ≠ previous := by
          intro equal
          exact holds.ne_of_split.1 (Eq.subst equal member)
        have notFresh : address ≠ fresh := by
          intro equal
          exact notListed (by simpa [equal] using Or.inl member)
        rw [Finmap.lookup_insert_of_ne _ notPrevious, Finmap.lookup_insert_of_ne _ notFresh]
      · rw [Finmap.lookup_insert_of_ne _ different.symm, Finmap.lookup_insert]
    · intro address
      rw [Finmap.mem_insert, Finmap.mem_insert, holds.owned]
      simp only [List.map_append, List.map_cons, List.map_nil, List.mem_append,
        List.mem_singleton]
      tauto

theorem assign {before after : List (ι × α)} {address : ι} {content : α}
    (holds : Holds heap first (before ++ (address, content) :: after)) (change : α → α) :
    ∃ heap', store heap address (fun cell => { cell with content := change cell.content }) =
        some heap' ∧
      Holds heap' first (before ++ (address, change content) :: after) := by
  have read := holds.linked.lookup_split
  let changed : Cell ι α := ⟨change content, after.head?.map Prod.fst⟩
  have elsewhere (other : ι) (different : other ≠ address) :
      (heap.insert address changed).lookup other = heap.lookup other :=
    Finmap.lookup_insert_of_ne heap different
  refine ⟨heap.insert address changed, ?_, ?_, ?_, ?_⟩
  · simp [store, read, changed]
  · rcases segment_append.mp holds.linked with ⟨middle, front, start, next, _, rest⟩
    rw [rest.link_eq] at rest
    refine segment_append.mpr ⟨middle, front.of_lookup_eq ?_, start, _, Finmap.lookup_insert _,
      rest.of_lookup_eq ?_⟩
    · intro other member
      exact elsewhere other fun equal => holds.ne_of_split.1 (Eq.subst equal member)
    · intro other member
      exact elsewhere other fun equal => holds.ne_of_split.2 (Eq.subst equal member)
  · simpa using holds.distinct
  · intro other
    rw [Finmap.mem_insert, holds.owned]
    simp only [List.map_append, List.map_cons, List.mem_append, List.mem_cons]
    tauto

theorem unlink {before after : List (ι × α)} {previous target : ι} {left right : α}
    (holds : Holds heap first (before ++ (previous, left) :: (target, right) :: after)) :
    Holds ((heap.insert previous ⟨left, after.head?.map Prod.fst⟩).erase target) first
      (before ++ (previous, left) :: after) := by
  let linked : Cell ι α := ⟨left, after.head?.map Prod.fst⟩
  have second : Holds heap first ((before ++ [(previous, left)]) ++ (target, right) :: after) := by
    rw [List.append_assoc]
    exact holds
  have different : previous ≠ target := by
    intro equal
    exact second.ne_of_split.1 (by simp [equal])
  have elsewhere (other : ι) (notPrevious : other ≠ previous) (notTarget : other ≠ target) :
      ((heap.insert previous linked).erase target).lookup other = heap.lookup other := by
    rw [Finmap.lookup_erase_ne notTarget, Finmap.lookup_insert_of_ne _ notPrevious]
  refine ⟨?_, ?_, ?_⟩
  · rcases segment_append.mp holds.linked with
      ⟨middle, front, start, next, _, last, beyond, _, rest⟩
    rw [rest.link_eq] at rest
    refine segment_append.mpr ⟨middle, front.of_lookup_eq ?_, start, _, ?_, rest.of_lookup_eq ?_⟩
    · intro other member
      apply elsewhere other
      · exact fun equal => holds.ne_of_split.1 (Eq.subst equal member)
      · intro equal
        exact second.ne_of_split.1 (by simpa [equal] using Or.inl (Eq.subst equal member))
    · rw [Finmap.lookup_erase_ne different, Finmap.lookup_insert]
    · intro other member
      apply elsewhere other
      · intro equal
        exact holds.ne_of_split.2 (List.mem_cons_of_mem _ (Eq.subst equal member))
      · exact fun equal => second.ne_of_split.2 (Eq.subst equal member)
  · refine List.Nodup.sublist (List.Sublist.map _ ?_) holds.distinct
    exact ((List.sublist_cons_self _ _).cons_cons _).append_left _
  · intro other
    have notBefore := second.ne_of_split.1
    have notAfter := second.ne_of_split.2
    rw [Finmap.mem_erase, Finmap.mem_insert, holds.owned]
    simp only [List.map_append, List.map_cons, List.map_nil, List.mem_append, List.mem_cons,
      List.not_mem_nil, or_false, not_or] at notBefore notAfter ⊢
    constructor
    · tauto
    · rintro (inBefore | rfl | inAfter)
      · exact ⟨fun equal => notBefore.1 (equal ▸ inBefore), .inr (.inl inBefore)⟩
      · exact ⟨different, .inl rfl⟩
      · exact ⟨fun equal => notAfter (equal ▸ inAfter), .inr (.inr (.inr (.inr inAfter)))⟩

theorem behead {address : ι} {content : α} {after : List (ι × α)}
    (holds : Holds heap first ((address, content) :: after)) :
    Holds (heap.erase address) (after.head?.map Prod.fst) after := by
  have apart : address ∉ after.map Prod.fst := (List.nodup_cons.mp holds.distinct).1
  refine ⟨?_, (List.nodup_cons.mp holds.distinct).2, ?_⟩
  · rcases holds.linked with ⟨_, next, _, rest⟩
    rw [rest.link_eq] at rest
    apply rest.of_lookup_eq
    intro other member
    exact Finmap.lookup_erase_ne fun equal => apart (equal ▸ member)
  · intro other
    rw [Finmap.mem_erase, holds.owned, List.map_cons, List.mem_cons]
    constructor
    · tauto
    · intro member
      exact ⟨fun equal => apart (equal ▸ member), .inr member⟩

theorem delete {before after : List (ι × α)} {target : ι} {content : α}
    (holds : Holds heap first (before ++ (target, content) :: after)) :
    ∃ heap' first', deleteCell heap first target = some (heap', first', true) ∧
      Holds heap' first' (before ++ after) := by
  have read := holds.linked.lookup_split
  have notBefore := holds.ne_of_split.1
  have card := holds.card_keys
  rcases List.eq_nil_or_concat' before with rfl | ⟨front, ⟨previous, left⟩, rfl⟩
  · cases holds.linked.link_eq
    refine ⟨_, _, ?_, holds.behead⟩
    simp [deleteCell, free, read]
  · have different : previous ≠ target := fun equal => notBefore (by simp [equal])
    have notFront : target ∉ front.map Prod.fst := fun member => notBefore (by
      rw [List.map_append]
      exact List.mem_append_left _ member)
    rw [List.append_assoc, List.singleton_append] at holds
    have readPrevious := holds.linked.lookup_split
    obtain ⟨link, start, other⟩ : ∃ link, first = some link ∧ link ≠ target := by
      rw [holds.linked.link_eq]
      cases front with
      | nil => exact ⟨previous, rfl, different⟩
      | cons head tail => exact ⟨head.1, rfl, fun equal => notFront (by simp [equal])⟩
    cases start
    have found : cellBefore heap target heap.keys.card link = some previous := by
      apply holds.linked.cellBefore_eq notFront different
      simp only [card, List.length_append, List.length_cons, List.length_nil]
      omega
    have stillRead (cell : Cell ι α) :
        (heap.insert previous cell).lookup target =
          some ⟨content, after.head?.map Prod.fst⟩ := by
      rw [Finmap.lookup_insert_of_ne _ different.symm, read]
    have rest : Holds ((heap.insert previous ⟨left, after.head?.map Prod.fst⟩).erase target)
        (some link) (front ++ [(previous, left)] ++ after) := by
      rw [List.append_assoc]
      exact holds.unlink
    refine ⟨_, _, ?_, rest⟩
    simp [deleteCell, other, found, readPrevious, read, store, free, stillRead]

theorem free_all (holds : Holds heap first cells) {fuel : Nat} (enough : cells.length ≤ fuel) :
    freeCells fuel heap first = some ∅ := by
  induction cells generalizing heap first fuel with
  | nil =>
      cases holds.linked
      have none : heap = ∅ := by
        apply Finmap.ext_lookup
        intro address
        rw [Finmap.lookup_empty, Finmap.lookup_eq_none, holds.owned]
        exact List.not_mem_nil
      cases fuel <;> rw [freeCells, none]
  | cons head tail induction =>
      cases holds.linked.link_eq
      have split : Segment heap (some head.1) ([] ++ (head.1, head.2) :: tail) none :=
        holds.linked
      have read := split.lookup_split
      rcases fuel with _ | fuel
      · cases enough
      rw [List.head?_cons, Option.map_some, freeCells, read, Option.bind_some, free, read]
      exact induction holds.behead (Nat.le_of_succ_le_succ enough)

end Holds

end Nodogsplash.LinkedLists
