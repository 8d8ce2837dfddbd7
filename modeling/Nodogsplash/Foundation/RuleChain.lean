import Mathlib.Tactic.Common

/-! # Programs of rule chains

A packet-filter program is a family of chains, each an ordered list of rules.
A rule whose guard holds updates the packet state and continues, decides a
verdict, leaves its chain, or calls another chain. Rules, states, verdicts and
chain names are arbitrary types. -/

namespace Nodogsplash.RuleChain

variable {Rule State Verdict Chain : Type*}

inductive Action (State Verdict Chain : Type*)
  | update (change : State → State)
  | decide (verdict : Verdict)
  | leave
  | call (chain : Chain)

inductive Outcome (State Verdict : Type*)
  | decided (verdict : Verdict) (state : State)
  | left (state : State)
  | finished (state : State)
  | exhausted
  deriving DecidableEq

structure Semantics (Rule State Verdict Chain : Type*) where
  guard : Rule → State → Bool
  action : Rule → Action State Verdict Chain

variable (semantics : Semantics Rule State Verdict Chain)

/-- Evaluate the rules of one chain in order; `call` evaluates a called
chain. Leaving or finishing a called chain resumes after the call. -/
def evalRules (call : Chain → State → Outcome State Verdict) :
    List Rule → State → Outcome State Verdict
  | [], state => .finished state
  | rule :: rest, state =>
      if semantics.guard rule state then
        match semantics.action rule with
        | .update change => evalRules call rest (change state)
        | .decide verdict => .decided verdict state
        | .leave => .left state
        | .call chain =>
            match call chain state with
            | .decided verdict after => .decided verdict after
            | .left after => evalRules call rest after
            | .finished after => evalRules call rest after
            | .exhausted => .exhausted
      else evalRules call rest state

/-- Evaluate a chain of the program with at most `depth` nested calls. -/
def evalChain (program : Chain → List Rule) : Nat → Chain → State → Outcome State Verdict
  | 0, _, _ => .exhausted
  | depth + 1, chain, state =>
      evalRules semantics (evalChain program depth) (program chain) state

section

variable {semantics} {call : Chain → State → Outcome State Verdict}

@[simp] theorem evalRules_nil (state : State) :
    evalRules semantics call [] state = .finished state := rfl

theorem evalRules_cons (rule : Rule) (rest : List Rule) (state : State) :
    evalRules semantics call (rule :: rest) state =
      if semantics.guard rule state then
        match semantics.action rule with
        | .update change => evalRules semantics call rest (change state)
        | .decide verdict => .decided verdict state
        | .leave => .left state
        | .call chain =>
            match call chain state with
            | .decided verdict after => .decided verdict after
            | .left after => evalRules semantics call rest after
            | .finished after => evalRules semantics call rest after
            | .exhausted => .exhausted
      else evalRules semantics call rest state := rfl

theorem evalRules_cons_of_not_guard {rule : Rule} {rest : List Rule} {state : State}
    (blocked : semantics.guard rule state = false) :
    evalRules semantics call (rule :: rest) state = evalRules semantics call rest state := by
  simp [evalRules_cons, blocked]

theorem evalRules_cons_of_decide {rule : Rule} {rest : List Rule} {state : State}
    {verdict : Verdict} (guard : semantics.guard rule state = true)
    (action : semantics.action rule = .decide verdict) :
    evalRules semantics call (rule :: rest) state = .decided verdict state := by
  simp [evalRules_cons, guard, action]

theorem evalRules_cons_of_leave {rule : Rule} {rest : List Rule} {state : State}
    (guard : semantics.guard rule state = true) (action : semantics.action rule = .leave) :
    evalRules semantics call (rule :: rest) state = .left state := by
  simp [evalRules_cons, guard, action]

theorem evalRules_cons_of_update {rule : Rule} {rest : List Rule} {state : State}
    {change : State → State} (guard : semantics.guard rule state = true)
    (action : semantics.action rule = .update change) :
    evalRules semantics call (rule :: rest) state =
      evalRules semantics call rest (change state) := by
  simp [evalRules_cons, guard, action]

theorem evalRules_cons_of_call_decided {rule : Rule} {rest : List Rule} {state after : State}
    {chain : Chain} {verdict : Verdict} (guard : semantics.guard rule state = true)
    (action : semantics.action rule = .call chain)
    (called : call chain state = .decided verdict after) :
    evalRules semantics call (rule :: rest) state = .decided verdict after := by
  simp [evalRules_cons, guard, action, called]

theorem evalRules_cons_of_call_finished {rule : Rule} {rest : List Rule} {state after : State}
    {chain : Chain} (guard : semantics.guard rule state = true)
    (action : semantics.action rule = .call chain) (called : call chain state = .finished after) :
    evalRules semantics call (rule :: rest) state = evalRules semantics call rest after := by
  simp [evalRules_cons, guard, action, called]

theorem evalRules_cons_of_call_left {rule : Rule} {rest : List Rule} {state after : State}
    {chain : Chain} (guard : semantics.guard rule state = true)
    (action : semantics.action rule = .call chain) (called : call chain state = .left after) :
    evalRules semantics call (rule :: rest) state = evalRules semantics call rest after := by
  simp [evalRules_cons, guard, action, called]

theorem evalRules_append_of_leave {rules rest : List Rule} {state : State}
    (actions : ∀ rule ∈ rules, semantics.action rule = .leave) :
    evalRules semantics call (rules ++ rest) state =
      if rules.any (fun rule => semantics.guard rule state) then .left state
      else evalRules semantics call rest state := by
  induction rules with
  | nil => simp
  | cons rule rules induction =>
      have tail := induction fun other member => actions other (List.mem_cons_of_mem _ member)
      rw [List.cons_append]
      cases guard : semantics.guard rule state with
      | true =>
          rw [evalRules_cons_of_leave guard (actions rule List.mem_cons_self)]
          simp [guard]
      | false =>
          rw [evalRules_cons_of_not_guard guard, tail]
          simp [guard]

theorem evalRules_append_of_finished {first second : List Rule} {state after : State}
    (finished : evalRules semantics call first state = .finished after) :
    evalRules semantics call (first ++ second) state =
      evalRules semantics call second after := by
  induction first generalizing state with
  | nil =>
      cases finished
      rfl
  | cons rule rest induction =>
      rw [List.cons_append]
      simp only [evalRules_cons] at finished ⊢
      by_cases guard : semantics.guard rule state = true
      · simp only [guard, if_true] at finished ⊢
        cases action : semantics.action rule with
        | update change =>
            simp only [action] at finished ⊢
            exact induction finished
        | decide verdict => simp [action] at finished
        | leave => simp [action] at finished
        | call chain =>
            simp only [action] at finished ⊢
            cases called : call chain state with
            | decided verdict after => simp [called] at finished
            | left after =>
                simp only [called] at finished ⊢
                exact induction finished
            | finished after =>
                simp only [called] at finished ⊢
                exact induction finished
            | exhausted => simp [called] at finished
      · simp only [guard] at finished ⊢
        exact induction finished

theorem evalRules_append_of_decided {first second : List Rule} {state after : State}
    {verdict : Verdict}
    (decided : evalRules semantics call first state = .decided verdict after) :
    evalRules semantics call (first ++ second) state = .decided verdict after := by
  induction first generalizing state with
  | nil => simp at decided
  | cons rule rest induction =>
      rw [List.cons_append]
      simp only [evalRules_cons] at decided ⊢
      by_cases guard : semantics.guard rule state = true
      · simp only [guard, if_true] at decided ⊢
        cases action : semantics.action rule with
        | update change =>
            simp only [action] at decided ⊢
            exact induction decided
        | decide verdict =>
            simp only [action] at decided ⊢
            exact decided
        | leave => simp [action] at decided
        | call chain =>
            simp only [action] at decided ⊢
            cases called : call chain state with
            | decided verdict after =>
                simp only [called] at decided ⊢
                exact decided
            | left after =>
                simp only [called] at decided ⊢
                exact induction decided
            | finished after =>
                simp only [called] at decided ⊢
                exact induction decided
            | exhausted => simp [called] at decided
      · simp only [guard] at decided ⊢
        exact induction decided

/-- Rules that all make the same idempotent change, under guards that do not
see it, make it once if any guard holds. -/
theorem evalRules_of_same_update {rules : List Rule} {state : State} {change : State → State}
    (actions : ∀ rule ∈ rules, semantics.action rule = .update change)
    (idempotent : change (change state) = change state)
    (unseen : ∀ rule ∈ rules, semantics.guard rule (change state) = semantics.guard rule state) :
    evalRules semantics call rules state =
      .finished (if rules.any (fun rule => semantics.guard rule state) then change state
        else state) := by
  induction rules generalizing state with
  | nil => simp
  | cons rule rest induction =>
      have restActions : ∀ other ∈ rest, semantics.action other = .update change :=
        fun other member => actions other (List.mem_cons_of_mem _ member)
      have restUnseen : ∀ other ∈ rest,
          semantics.guard other (change state) = semantics.guard other state :=
        fun other member => unseen other (List.mem_cons_of_mem _ member)
      by_cases guard : semantics.guard rule state = true
      · rw [evalRules_cons_of_update guard (actions rule List.mem_cons_self)]
        rw [induction restActions (by rw [idempotent, idempotent])
          (fun other member => by rw [idempotent])]
        simp [guard, idempotent]
      · rw [evalRules_cons_of_not_guard (by simpa using guard)]
        rw [induction restActions idempotent restUnseen]
        simp [guard]

/-- The verdict of the first rule that matches `state` and decides one. -/
def firstVerdict (semantics : Semantics Rule State Verdict Chain) (rules : List Rule)
    (state : State) : Option Verdict :=
  rules.findSome? fun rule =>
    if semantics.guard rule state then
      match semantics.action rule with
      | .decide verdict => some verdict
      | _ => none
    else none

/-- Rules that decide or merely pass the state on (logging, say) give the
first verdict among those that match. -/
theorem evalRules_eq_firstVerdict {rules : List Rule} {state : State}
    (actions : ∀ rule ∈ rules, (∃ verdict, semantics.action rule = .decide verdict) ∨
      ∃ change, semantics.action rule = .update change ∧ change state = state) :
    evalRules semantics call rules state =
      match firstVerdict semantics rules state with
      | some verdict => .decided verdict state
      | none => .finished state := by
  induction rules with
  | nil => rfl
  | cons rule rest induction =>
      have tail := induction fun other member => actions other (List.mem_cons_of_mem _ member)
      rw [firstVerdict, List.findSome?_cons]
      by_cases guard : semantics.guard rule state = true
      · rcases actions rule List.mem_cons_self with ⟨verdict, action⟩ | ⟨change, action, same⟩
        · rw [evalRules_cons_of_decide guard action]
          simp [guard, action]
        · rw [evalRules_cons_of_update guard action, same, tail]
          simp [guard, action, firstVerdict]
      · rw [evalRules_cons_of_not_guard (by simpa using guard), tail]
        simp [guard, firstVerdict]

end

end Nodogsplash.RuleChain
