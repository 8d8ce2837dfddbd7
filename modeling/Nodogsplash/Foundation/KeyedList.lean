import Mathlib.Data.List.Basic
import Mathlib.Data.List.Perm.Basic
import Mathlib.Data.List.Nodup
import Mathlib.Algebra.Order.Group.Multiset
import Mathlib.Tactic.Abel
import Mathlib.Tactic.Common

/-! # Lists whose elements carry a key

Updating and removing the element with a given key, for lists in which every
key occurs once: what the operations do to the list, to the keys, and to a
list of values contributed by each element. -/

namespace Nodogsplash.KeyedList

variable {α β κ : Type*} [DecidableEq κ]

/-- Replace each element with key `target` by its image under `change`. -/
def update (key : α → κ) (target : κ) (change : α → α) (values : List α) : List α :=
  values.map fun value => if key value = target then change value else value

def remove (key : α → κ) (target : κ) (values : List α) : List α :=
  values.eraseP fun value => decide (key value = target)

section

variable (key : α → κ)

omit [DecidableEq κ] in
/-- A key that occurs once does not occur on either side of its element. -/
theorem key_ne_of_split {before after : List α} {value : α}
    (distinct : ((before ++ value :: after).map key).Nodup) :
    (∀ other ∈ before, key other ≠ key value) ∧ ∀ other ∈ after, key other ≠ key value := by
  rw [List.map_append, List.map_cons, List.nodup_append] at distinct
  rcases distinct with ⟨_, tail, apart⟩
  constructor
  · intro other member
    exact apart _ (List.mem_map_of_mem member) _ List.mem_cons_self
  · intro other member equal
    apply (List.nodup_cons.mp tail).1
    rw [← equal]
    exact List.mem_map_of_mem member

omit [DecidableEq κ] in
/-- An element of a list without repeated keys splits the list in two parts
in which its key does not occur. -/
theorem exists_split {values : List α} (distinct : (values.map key).Nodup) {value : α}
    (member : value ∈ values) :
    ∃ before after, values = before ++ value :: after ∧
      (∀ other ∈ before, key other ≠ key value) ∧
      ∀ other ∈ after, key other ≠ key value := by
  rcases List.append_of_mem member with ⟨before, after, rfl⟩
  exact ⟨before, after, rfl, key_ne_of_split key distinct⟩

theorem update_of_absent {target : κ} (change : α → α) {values : List α}
    (absent : ∀ value ∈ values, key value ≠ target) :
    update key target change values = values := by
  induction values with
  | nil => rfl
  | cons head tail induction =>
      have headDifferent : key head ≠ target := absent head List.mem_cons_self
      have tailSame := induction fun value member => absent value (List.mem_cons_of_mem _ member)
      simp only [update, List.map_cons, headDifferent, if_false] at tailSame ⊢
      rw [tailSame]

theorem update_append (target : κ) (change : α → α) (left right : List α) :
    update key target change (left ++ right) =
      update key target change left ++ update key target change right :=
  List.map_append

theorem update_split (change : α → α) {before after : List α} (value : α)
    (notBefore : ∀ other ∈ before, key other ≠ key value)
    (notAfter : ∀ other ∈ after, key other ≠ key value) :
    update key (key value) change (before ++ value :: after) =
      before ++ change value :: after := by
  have cons : update key (key value) change (value :: after) =
      change value :: update key (key value) change after := by
    simp [update]
  rw [update_append, cons, update_of_absent key change notBefore,
    update_of_absent key change notAfter]

theorem remove_split {before after : List α} {value : α}
    (notBefore : ∀ other ∈ before, key other ≠ key value) :
    remove key (key value) (before ++ value :: after) = before ++ after := by
  induction before with
  | nil => simp [remove]
  | cons head tail induction =>
      have headDifferent : key head ≠ key value := notBefore head List.mem_cons_self
      have tailSame := induction fun other member =>
        notBefore other (List.mem_cons_of_mem _ member)
      simp only [remove, List.cons_append] at tailSame ⊢
      rw [List.eraseP_cons_of_neg (by simpa using headDifferent), tailSame]

theorem map_key_update (target : κ) {change : α → α}
    (keeps : ∀ value, key (change value) = key value) (values : List α) :
    (update key target change values).map key = values.map key := by
  rw [update, List.map_map]
  apply List.map_congr_left
  intro value _
  by_cases equal : key value = target <;> simp [equal, keeps]

theorem update_update (target : κ) (first : α → α)
    (keeps : ∀ value, key (first value) = key value) (second : α → α) {values : List α} :
    update key target second (update key target first values) =
      update key target (second ∘ first) values := by
  rw [update, update, update, List.map_map]
  apply List.map_congr_left
  intro value _
  by_cases equal : key value = target <;> simp [equal, keeps]

theorem mem_update {target : κ} {change : α → α} {values : List α} {value : α} :
    value ∈ update key target change values ↔
      (∃ source ∈ values, key source = target ∧ value = change source) ∨
        (value ∈ values ∧ key value ≠ target) := by
  rw [update, List.mem_map]
  constructor
  · rintro ⟨source, member, rfl⟩
    by_cases equal : key source = target
    · left
      exact ⟨source, member, equal, by simp [equal]⟩
    · right
      simp only [equal, if_false]
      exact ⟨member, equal⟩
  · rintro (⟨source, member, equal, rfl⟩ | ⟨member, different⟩)
    · exact ⟨source, member, by simp [equal]⟩
    · exact ⟨value, member, by simp [different]⟩

theorem remove_sublist (target : κ) (values : List α) :
    (remove key target values).Sublist values :=
  List.eraseP_sublist

theorem length_remove {values : List α} {value : α} (member : value ∈ values) :
    (remove key (key value) values).length = values.length - 1 := by
  rw [remove, List.length_eraseP_of_mem member (by simp)]

theorem map_key_remove (target : κ) (values : List α) :
    (remove key target values).map key = (values.map key).erase target := by
  induction values with
  | nil => rfl
  | cons head tail induction =>
      by_cases equal : key head = target
      · simp [remove, equal]
      · rw [List.map_cons, List.erase_cons_tail (by simpa using equal), ← induction]
        simp [remove, equal]

theorem mem_of_mem_remove {target : κ} {values : List α} {value : α}
    (member : value ∈ remove key target values) : value ∈ values :=
  (remove_sublist key target values).subset member

theorem mem_remove_of_ne {target : κ} {values : List α} {value : α}
    (member : value ∈ values) (different : key value ≠ target) :
    value ∈ remove key target values :=
  (List.mem_eraseP_of_neg (by simpa using different)).mpr member

theorem key_ne_of_mem_remove {target : κ} {values : List α}
    (distinct : (values.map key).Nodup) {value : α}
    (member : value ∈ remove key target values) : key value ≠ target := by
  intro equal
  subst equal
  have inValues := mem_of_mem_remove key member
  rcases exists_split key distinct inValues with ⟨before, after, rfl, notBefore, notAfter⟩
  rw [remove_split key notBefore, List.mem_append] at member
  rcases member with member | member
  · exact notBefore value member rfl
  · exact notAfter value member rfl

/-- In a list without repeated keys, removing a key keeps all other members in
their order. -/
theorem remove_eq_filter {values : List α} (distinct : (values.map key).Nodup) (target : κ) :
    remove key target values = values.filter fun value => decide (key value ≠ target) := by
  induction values with
  | nil => rfl
  | cons value values induction =>
      rcases List.nodup_cons.mp distinct with ⟨fresh, distinctRest⟩
      by_cases same : key value = target
      · have others : ∀ other ∈ values, decide (key other ≠ target) = true := by
          intro other member
          refine decide_eq_true fun equal => fresh ?_
          exact List.mem_map.mpr ⟨other, member, equal.trans same.symm⟩
        rw [remove, List.eraseP_cons_of_pos (by simpa using same),
          List.filter_cons_of_neg (by simpa using same), List.filter_eq_self.mpr others]
      · rw [remove, List.eraseP_cons_of_neg (by simpa using same),
          List.filter_cons_of_pos (by simpa using same), ← induction distinctRest, remove]

theorem filter_remove {keep : α → Bool} {target : κ}
    (dropped : ∀ value, key value = target → keep value = false) (values : List α) :
    (remove key target values).filter keep = values.filter keep := by
  induction values with
  | nil => rfl
  | cons value values induction =>
      by_cases same : key value = target
      · rw [remove, List.eraseP_cons_of_pos (by simpa using same),
          List.filter_cons_of_neg (by simp [dropped value same])]
      · rw [remove, List.eraseP_cons_of_neg (by simpa using same), List.filter_cons,
          List.filter_cons, ← induction, remove]

/-- Lookup by key finds a member of a list without repeated keys. -/
theorem find?_key {values : List α} (distinct : (values.map key).Nodup) {value : α}
    (member : value ∈ values) :
    values.find? (fun other => decide (key other = key value)) = some value := by
  rcases exists_split key distinct member with ⟨before, after, rfl, notBefore, _⟩
  rw [List.find?_append]
  have notFound : before.find? (fun other => decide (key other = key value)) = none :=
    List.find?_eq_none.mpr fun other otherMember => by simpa using notBefore other otherMember
  simp [notFound]

/-- Lookup of the updated key finds the image of what was found before. -/
theorem find?_update_self (target : κ) {change : α → α}
    (keeps : ∀ value, key (change value) = key value) (values : List α) :
    (update key target change values).find? (fun value => decide (key value = target)) =
      (values.find? fun value => decide (key value = target)).map change := by
  induction values with
  | nil => rfl
  | cons head tail induction =>
      simp only [update] at induction
      by_cases equal : key head = target
      · simp [update, equal, keeps]
      · simp [update, equal, induction]

theorem find?_update_of_ne {target other : κ} {change : α → α}
    (keeps : ∀ value, key (change value) = key value) (different : other ≠ target)
    (values : List α) :
    (update key target change values).find? (fun value => decide (key value = other)) =
      values.find? fun value => decide (key value = other) := by
  induction values with
  | nil => rfl
  | cons head tail induction =>
      simp only [update] at induction
      by_cases equal : key head = target
      · simp [update, equal, keeps, Ne.symm different, induction]
      · by_cases found : key head = other
        · subst found
          simp [update, different]
        · simp [update, equal, found, induction]

theorem find?_remove {values : List α} (distinct : (values.map key).Nodup) (target other : κ) :
    (remove key target values).find? (fun value => decide (key value = other)) =
      if other = target then none else values.find? fun value => decide (key value = other) := by
  rw [remove_eq_filter key distinct, List.find?_filter]
  split
  · next same =>
      subst same
      rw [List.find?_eq_none]
      intro value _
      simp
  · next different =>
      congr 1
      funext value
      by_cases found : key value = other
      · simp [found, different]
      · simp [found]

/-! ## What each element contributes -/

theorem flatMap_update_perm (contribution : α → List β) {values : List α}
    (distinct : (values.map key).Nodup) (change : α → α) {value : α}
    (member : value ∈ values) :
    (contribution value ++ (update key (key value) change values).flatMap contribution).Perm
      (contribution (change value) ++ values.flatMap contribution) := by
  rcases exists_split key distinct member with ⟨before, after, rfl, notBefore, notAfter⟩
  rw [update_split key change value notBefore notAfter]
  simp only [List.flatMap_append, List.flatMap_cons]
  have swap (first second left right : List β) :
      (first ++ (left ++ (second ++ right))).Perm (second ++ (left ++ (first ++ right))) := by
    rw [← Multiset.coe_eq_coe]
    simp only [← Multiset.coe_add]
    abel
  exact swap _ _ _ _

theorem flatMap_remove_perm (contribution : α → List β) {values : List α}
    (distinct : (values.map key).Nodup) {value : α} (member : value ∈ values) :
    (contribution value ++ (remove key (key value) values).flatMap contribution).Perm
      (values.flatMap contribution) := by
  rcases exists_split key distinct member with ⟨before, after, rfl, notBefore, _⟩
  rw [remove_split key notBefore]
  simp only [List.flatMap_append, List.flatMap_cons]
  rw [← List.append_assoc, ← List.append_assoc]
  exact List.perm_append_comm.append_right _

theorem flatMap_update_eq (contribution : α → List β) (target : κ) {change : α → α}
    (values : List α)
    (keeps : ∀ value ∈ values, contribution (change value) = contribution value) :
    (update key target change values).flatMap contribution = values.flatMap contribution := by
  rw [update, List.flatMap_map]
  apply List.flatMap_congr
  intro value member
  by_cases equal : key value = target
  · simp [equal, keeps value member]
  · simp [equal]

end

/-! ## Ledgers

A ledger is a second list that holds, in some order, what the elements
contribute. -/

section

variable {key : α → κ} {contribution : α → List β} {values : List α} {value : α}
  {ledger : List β}

omit [DecidableEq κ] in
theorem contribution_subperm (agree : ledger.Perm (values.flatMap contribution))
    (member : value ∈ values) : (contribution value).Subperm ledger := by
  rcases List.append_of_mem member with ⟨before, after, rfl⟩
  refine List.Subperm.trans ?_ agree.symm.subperm
  simp only [List.flatMap_append, List.flatMap_cons]
  exact ((List.sublist_append_left _ _).trans (List.sublist_append_right _ _)).subperm

theorem ledger_gain (distinct : (values.map key).Nodup) (member : value ∈ values)
    (change : α → α) (agree : ledger.Perm (values.flatMap contribution))
    (before : contribution value = []) :
    (ledger ++ contribution (change value)).Perm
      ((update key (key value) change values).flatMap contribution) := by
  have exchanged := flatMap_update_perm key contribution distinct change member
  rw [before, List.nil_append] at exchanged
  exact (List.perm_append_comm.trans (agree.append_left _)).trans exchanged.symm

variable [DecidableEq β]

omit [DecidableEq κ] in
theorem ledger_diff {removed rest : List β} (agree : ledger.Perm (removed ++ rest)) :
    (ledger.diff removed).Perm rest := by
  have contained : removed.Subperm ledger :=
    (List.sublist_append_left removed rest).subperm.trans agree.symm.subperm
  have restored : (removed ++ ledger.diff removed).Perm ledger :=
    List.subperm_append_diff_self_of_count_le (List.subperm_ext_iff.mp contained)
  exact (List.perm_append_left_iff removed).mp (restored.trans agree)

theorem ledger_lose (distinct : (values.map key).Nodup) (member : value ∈ values)
    (change : α → α) (agree : ledger.Perm (values.flatMap contribution))
    (after : contribution (change value) = []) :
    (ledger.diff (contribution value)).Perm
      ((update key (key value) change values).flatMap contribution) := by
  have exchanged := flatMap_update_perm key contribution distinct change member
  rw [after, List.nil_append] at exchanged
  exact ledger_diff (agree.trans exchanged.symm)

theorem ledger_remove (distinct : (values.map key).Nodup) (member : value ∈ values)
    (agree : ledger.Perm (values.flatMap contribution)) :
    (ledger.diff (contribution value)).Perm
      ((remove key (key value) values).flatMap contribution) :=
  ledger_diff (agree.trans (flatMap_remove_perm key contribution distinct member).symm)

end

end Nodogsplash.KeyedList
