import Mathlib.Tactic.Common

/-! # Runs of labelled steps

Finite runs of a step relation and the induction rules for them. Nothing here
knows what the states or the events are. -/

namespace Nodogsplash.Execution

variable {State Event : Type*}

/-- `Run Step initial events final`: taking `events` in order leads from
`initial` to `final`. -/
inductive Run (Step : State → Event → State → Prop) : State → List Event → State → Prop
  | nil (state) : Run Step state [] state
  | cons {current middle final event events} :
      Step current event middle → Run Step middle events final →
      Run Step current (event :: events) final

/-- The step relation of a total step function. -/
def ofFunction (step : State → Event → State) (current : State) (event : Event)
    (next : State) : Prop :=
  next = step current event

/-- A step that is taken only where `Condition` holds of the state before it. -/
def Guarded (Step : State → Event → State → Prop) (Condition : State → Event → Prop)
    (current : State) (event : Event) (next : State) : Prop :=
  Condition current event ∧ Step current event next

namespace Run

variable {Step : State → Event → State → Prop}

theorem single {current next : State} {event : Event} (step : Step current event next) :
    Run Step current [event] next :=
  .cons step (.nil next)

theorem append {initial middle final : State} {first second : List Event}
    (left : Run Step initial first middle) (right : Run Step middle second final) :
    Run Step initial (first ++ second) final := by
  induction left with
  | nil => exact right
  | cons step _ induction => exact .cons step (induction right)

theorem snoc {initial current next : State} {events : List Event} {event : Event}
    (run : Run Step initial events current) (step : Step current event next) :
    Run Step initial (events ++ [event]) next :=
  run.append (single step)

theorem invariant (Invariant : State → Prop) {initial final : State} {events : List Event}
    (preserved : ∀ current event next, Invariant current → Step current event next →
      Invariant next)
    (run : Run Step initial events final) (holds : Invariant initial) : Invariant final := by
  induction run with
  | nil => exact holds
  | cons step _ induction => exact induction (preserved _ _ _ holds step)

/-- A relation that is reflexive, transitive and contains every step from a
state satisfying the invariant contains every run. -/
theorem relation (Invariant : State → Prop) {Related : State → State → Prop}
    {initial final : State} {events : List Event}
    (preserved : ∀ current event next, Invariant current → Step current event next →
      Invariant next)
    (reflexive : ∀ state, Related state state)
    (transitive : ∀ first second third, Related first second → Related second third →
      Related first third)
    (related : ∀ current event next, Invariant current → Step current event next →
      Related current next)
    (run : Run Step initial events final) (holds : Invariant initial) :
    Related initial final := by
  induction run with
  | nil => exact reflexive _
  | cons step _ induction =>
      exact transitive _ _ _ (related _ _ _ holds step)
        (induction (preserved _ _ _ holds step))

/-- What adds up along a run, by something exactly at the steps that violate a
condition, is nothing exactly if all steps satisfy it. -/
theorem tally (Invariant : State → Prop) {Amount : State → Nat → Prop}
    {Condition : State → Event → Prop} {initial final : State} {events : List Event}
    (deterministic : ∀ current event next other, Step current event next →
      Step current event other → next = other)
    (preserved : ∀ current event next, Invariant current → Step current event next →
      Invariant next)
    (counts : ∀ current event next amount, Invariant current → Step current event next →
      Amount current amount →
      ∃ more, Amount next (amount + more) ∧ (more = 0 ↔ Condition current event))
    (run : Run Step initial events final) (holds : Invariant initial) {amount : Nat}
    (counted : Amount initial amount) :
    ∃ more, Amount final (amount + more) ∧
      (more = 0 ↔ Run (Guarded Step Condition) initial events final) := by
  induction run generalizing amount with
  | nil state => exact ⟨0, counted, fun _ => .nil state, fun _ => rfl⟩
  | @cons current middle final event events step _ induction =>
      rcases counts _ _ _ _ holds step counted with ⟨first, countedFirst, clean⟩
      rcases induction (preserved _ _ _ holds step) countedFirst with
        ⟨rest, countedRest, cleanRest⟩
      refine ⟨first + rest, by rwa [← Nat.add_assoc], ?_⟩
      rw [Nat.add_eq_zero_iff, clean, cleanRest]
      constructor
      · rintro ⟨condition, guarded⟩
        exact .cons ⟨condition, step⟩ guarded
      · rintro (_ | ⟨⟨condition, other⟩, guarded⟩)
        rw [deterministic _ _ _ _ step other]
        exact ⟨condition, guarded⟩

end Run

/-- A run in whose states, the first and the last one included, a property holds. -/
def Throughout (Step : State → Event → State → Prop) (Holds : State → Prop) (initial : State)
    (events : List Event) (final : State) : Prop :=
  Run (Guarded Step fun state _ => Holds state) initial events final ∧ Holds final

theorem Throughout.start {Step : State → Event → State → Prop} {Holds : State → Prop}
    {initial final : State} {events : List Event}
    (throughout : Throughout Step Holds initial events final) : Holds initial := by
  rcases throughout with ⟨run, last⟩
  cases run with
  | nil => exact last
  | cons step => exact step.1

theorem Throughout.run {Step : State → Event → State → Prop} {Holds : State → Prop}
    {initial final : State} {events : List Event}
    (throughout : Throughout Step Holds initial events final) : Run Step initial events final := by
  have guarded := throughout.1
  clear throughout
  induction guarded with
  | nil state => exact .nil state
  | cons step _ induction => exact .cons step.2 induction

/-- A property that holds at the end of a run holds throughout, or there is a last step
before which it does not hold. -/
theorem Run.last_change {Step : State → Event → State → Prop} {initial final : State}
    {events : List Event} (run : Run Step initial events final) (Holds : State → Prop)
    (holds : Holds final) :
    Throughout Step Holds initial events final ∨
      ∃ before event after middle next, events = before ++ event :: after ∧
        Run Step initial before middle ∧ ¬ Holds middle ∧ Step middle event next ∧
        Throughout Step Holds next after final := by
  induction run with
  | nil state => exact .inl ⟨.nil state, holds⟩
  | @cons current middle final event events step rest induction =>
      rcases induction holds with throughout | ⟨before, change, after, state, next, changed⟩
      · by_cases first : Holds current
        · exact .inl ⟨.cons ⟨first, step⟩ throughout.1, holds⟩
        · exact .inr ⟨[], event, events, current, middle, rfl, .nil current, first, step,
            throughout⟩
      · rcases changed with ⟨rfl, reached, not, taken, throughout⟩
        exact .inr ⟨event :: before, change, after, state, next, rfl, .cons step reached, not,
          taken, throughout⟩

theorem run_ofFunction_iff (step : State → Event → State) (initial final : State)
    (events : List Event) :
    Run (ofFunction step) initial events final ↔ final = events.foldl step initial := by
  constructor
  · intro run
    induction run with
    | nil => rfl
    | cons taken _ induction => rw [induction, taken, List.foldl_cons]
  · intro equal
    subst equal
    induction events generalizing initial with
    | nil => exact .nil initial
    | cons event events induction => exact .cons rfl (induction (step initial event))

end Nodogsplash.Execution
