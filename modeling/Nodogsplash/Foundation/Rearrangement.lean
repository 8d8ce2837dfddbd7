import Mathlib.Data.List.Perm.Basic
import Mathlib.Tactic.Common

/-! # Rearrangements that keep the order of equal keys

Values with one key keep their order, values without a key may go anywhere. -/

namespace Nodogsplash

variable {α κ σ : Type*} [DecidableEq κ]

def keyed (key : α → Option κ) (wanted : κ) (values : List α) : List α :=
  values.filter fun value => key value = some wanted

structure Rearranged (key : α → Option κ) (values other : List α) : Prop where
  perm : values.Perm other
  order : ∀ wanted, keyed key wanted values = keyed key wanted other

namespace Rearranged

variable {key : α → Option κ} {values other : List α}

theorem refl (values : List α) : Rearranged key values values :=
  ⟨.refl _, fun _ => rfl⟩

theorem trans {third : List α} (left : Rearranged key values other)
    (right : Rearranged key other third) : Rearranged key values third :=
  ⟨left.perm.trans right.perm, fun wanted => (left.order wanted).trans (right.order wanted)⟩

theorem mem_iff (rearranged : Rearranged key values other) (value : α) :
    value ∈ values ↔ value ∈ other := rearranged.perm.mem_iff

theorem filterMap_eq {β : Type*} {read : α → Option β} {wanted : κ}
    (owner : ∀ value result, read value = some result → key value = some wanted)
    (rearranged : Rearranged key values other) : values.filterMap read = other.filterMap read := by
  have onlyKeyed (values : List α) :
      values.filterMap read = (keyed key wanted values).filterMap read := by
    rw [keyed, List.filterMap_filter]
    refine List.filterMap_congr fun value _ => ?_
    cases result : read value with
    | none => simp
    | some result => simp [owner value _ ‹_›]
  rw [onlyKeyed values, onlyKeyed other, rearranged.order]

theorem pull (first last : List α) {value : α} {wanted : κ} (own : key value = some wanted) :
    Rearranged key (first ++ value :: last)
      (keyed key wanted first ++ value ::
        (first.filter (fun other => !decide (key other = some wanted)) ++ last)) := by
  constructor
  · have parted := (List.filter_append_perm (fun other => decide (key other = some wanted))
      first).symm.append_right (value :: last)
    rw [List.append_assoc] at parted
    exact parted.trans (List.perm_middle.append_left _)
  · intro other
    simp only [keyed, List.filter_append, List.filter_cons, List.filter_filter]
    by_cases same : wanted = other
    · subst same
      simp [own]
    · have apart : key value ≠ some other := by
        rw [own]
        simpa using same
      have gone : first.filter (fun value => decide (key value = some other) &&
          decide (key value = some wanted)) = [] := by
        rw [List.filter_eq_nil_iff]
        intro value _
        simp only [Bool.and_eq_true, decide_eq_true_eq, not_and]
        intro holds
        rw [holds]
        simpa using fun equal => same equal.symm
      have kept : first.filter (fun value => decide (key value = some other) &&
          !decide (key value = some wanted)) = first.filter fun value =>
            decide (key value = some other) := by
        refine List.filter_congr fun value _ => ?_
        by_cases holds : key value = some other
        · have notWanted : other ≠ wanted := fun equal => same equal.symm
          simp [holds, notWanted]
        · simp [holds]
      rw [gone, kept, List.nil_append, if_neg (by simpa using apart), if_neg (by simpa using apart)]

/-- A value of one key can come to the front, with the values before it, and one of
another key before it. -/
theorem pullBoth {values : List α} {first second : α} {firstKey secondKey : κ}
    (apart : firstKey ≠ secondKey) (ownFirst : key first = some firstKey)
    (ownSecond : key second = some secondKey) (hasFirst : first ∈ values)
    (hasSecond : second ∈ values) :
    ∃ firsts seconds rest,
      Rearranged key values (firsts ++ first :: (seconds ++ second :: rest)) ∧
      (∀ value ∈ firsts, value ∈ values ∧ key value = some firstKey) ∧
      ∀ value ∈ seconds, value ∈ values ∧ key value = some secondKey := by
  rcases List.append_of_mem hasSecond with ⟨before, after, rfl⟩
  have pulled := pull before after ownSecond
  generalize others : before.filter (fun other => !decide (key other = some secondKey)) ++ after =
    behind at pulled
  have hasFirst := (pulled.mem_iff first).mp hasFirst
  have notSecond : ∀ value, key value = some secondKey → key value ≠ some firstKey := by
    intro value own
    rw [own]
    simpa using apart.symm
  have inBehind : first ∈ behind := by
    rcases List.mem_append.mp hasFirst with inSeconds | inRest
    · have own : key first = some secondKey := by
        simpa [keyed] using (List.mem_filter.mp inSeconds).2
      exact absurd ownFirst (notSecond first own)
    · rcases List.mem_cons.mp inRest with rfl | inBehind
      · exact absurd ownFirst (notSecond first ownSecond)
      · exact inBehind
  rcases List.append_of_mem inBehind with ⟨between, rest, rfl⟩
  have again := pull (keyed key secondKey before ++ second :: between) rest ownFirst
  rw [List.append_assoc, List.cons_append] at again
  have both := pulled.trans again
  have seconds : (keyed key secondKey before).filter
      (fun other => !decide (key other = some firstKey)) = keyed key secondKey before := by
    refine List.filter_eq_self.mpr fun value member => ?_
    have own : key value = some secondKey := by
      simpa [keyed] using (List.mem_filter.mp member).2
    simpa using notSecond value own
  have second : (second :: between).filter (fun other => !decide (key other = some firstKey)) =
      second :: between.filter fun other => !decide (key other = some firstKey) :=
    List.filter_cons_of_pos (by simpa using notSecond second ownSecond)
  rw [List.filter_append, seconds, second, List.append_assoc, List.cons_append] at both
  refine ⟨_, _, _, both, fun value member => ⟨?_, ?_⟩, fun value member => ⟨?_, ?_⟩⟩
  · exact (both.mem_iff value).mpr (List.mem_append_left _ member)
  · simpa using (List.mem_filter.mp member).2
  · exact List.mem_append_left _ (List.mem_of_mem_filter member)
  · simpa using (List.mem_filter.mp member).2

/-- The first value can be taken out of both lists, where only values of other keys
precede it. -/
theorem uncons {value : α} {rest : List α} (rearranged : Rearranged key (value :: rest) other) :
    ∃ before after, other = before ++ value :: after ∧
      (∀ earlier ∈ before, key value = none ∨ key earlier ≠ key value) ∧
      Rearranged key rest (before ++ after) := by
  cases own : key value with
  | none =>
      have inOther := (rearranged.mem_iff value).mp List.mem_cons_self
      rcases List.append_of_mem inOther with ⟨before, after, rfl⟩
      refine ⟨before, after, rfl, fun _ _ => .inl rfl, ?_, fun wanted => ?_⟩
      · exact (rearranged.perm.trans List.perm_middle).cons_inv
      · simpa [keyed, own] using rearranged.order wanted
  | some wanted =>
      have order := rearranged.order wanted
      rw [keyed, List.filter_cons_of_pos (by simpa using own)] at order
      rcases List.filter_eq_cons_iff.mp order.symm with ⟨before, after, rfl, others, _, kept⟩
      refine ⟨before, after, rfl, fun earlier member => .inr (by simpa using others earlier member),
        ?_, fun other => ?_⟩
      · exact (rearranged.perm.trans List.perm_middle).cons_inv
      · have whole := rearranged.order other
        by_cases same : other = wanted
        · subst same
          have none : keyed key other before = [] :=
            List.filter_eq_nil_iff.mpr others
          rw [keyed, keyed, List.filter_append, ← keyed, ← keyed, ← keyed, none, List.nil_append]
          exact kept.symm
        · have apart : key value ≠ some other := by
            rw [own]
            simpa using fun equal : wanted = other => same equal.symm
          simpa [keyed, apart] using whole

theorem foldl_eq {step : σ → α → σ}
    (commutes : ∀ state first second, key first = none ∨ key second ≠ key first →
      step (step state first) second = step (step state second) first)
    (rearranged : Rearranged key values other) (state : σ) :
    values.foldl step state = other.foldl step state := by
  induction values generalizing other state with
  | nil => rw [List.nil_perm.mp rearranged.perm]
  | cons value rest induction =>
      rcases rearranged.uncons with ⟨before, after, rfl, others, remaining⟩
      have past (state : σ) : before.foldl step (step state value) =
          step (before.foldl step state) value := by
        clear remaining rearranged
        induction before generalizing state with
        | nil => rfl
        | cons earlier before induction =>
            rw [List.foldl_cons, List.foldl_cons,
              commutes state value earlier (others earlier List.mem_cons_self)]
            exact induction (fun earlier member => others earlier (List.mem_cons_of_mem _ member)) _
      rw [List.foldl_cons, induction remaining, List.foldl_append, List.foldl_append,
        List.foldl_cons, past]

end Rearranged

end Nodogsplash
