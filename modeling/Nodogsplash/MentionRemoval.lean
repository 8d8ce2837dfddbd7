import Nodogsplash.Teardown

/-! # Removing the rules that mention a word

`iptables_fw_destroy_mention` calls itself again when it has tried a deletion,
whether or not the deletion worked. -/

namespace Nodogsplash

/-- How many of the next commands iptables executes. -/
def Kernel.successes (kernel : Kernel) (issued calls : Nat) : Nat :=
  (List.range' issued calls).countP fun number => decide (kernel.exitCode number = 0)

/-- How many rules of a chain mention a word. -/
def Firewall.mentions (firewall : Firewall) (table : Table) (chain : Chain) (mention : String) :
    Nat :=
  (firewall.tables.rules table chain).countP (Rule.mentions · mention)

/-- The function returns, and then the rules that do not mention the word are left, in
their order. -/
structure RemovesMentions (firewall : Firewall) (table : Table) (chain : Chain)
    (mention : String) : Prop where
  returns : ∃ fuel after, iptablesFwDestroyMention fuel firewall table chain mention = some after
  others : ∀ fuel after, iptablesFwDestroyMention fuel firewall table chain mention = some after →
    after.tables.rules table chain =
      (firewall.tables.rules table chain).filter fun rule => !rule.mentions mention

/-! ## One call -/

theorem Kernel.successes_succ (kernel : Kernel) (issued calls : Nat) :
    kernel.successes issued (calls + 1) =
      (if kernel.exitCode issued = 0 then 1 else 0) + kernel.successes (issued + 1) calls := by
  rw [successes, List.range'_succ, List.countP_cons, Nat.add_comm]
  simp only [decide_eq_true_eq]
  rfl

theorem countP_eraseIdx {Element : Type*} {test : Element → Bool} {list : List Element}
    {index : Nat} (inRange : index < list.length) (counted : test list[index] = true) :
    (list.eraseIdx index).countP test + 1 = list.countP test := by
  have split : list = list.take index ++ list[index] :: list.drop (index + 1) := by
    rw [List.getElem_cons_drop, List.take_append_drop]
  conv_rhs => rw [split]
  rw [List.eraseIdx_eq_take_drop_succ, List.countP_append, List.countP_append, List.countP_cons,
    if_pos counted, Nat.add_assoc]

variable {firewall : Firewall} {table : Table} {chain : Chain} {mention : String} {index : Nat}

theorem rules_deleteNumber_failed (fails : firewall.kernel.exitCode firewall.issued ≠ 0) :
    (iptablesDoCommand firewall (.deleteNumber table chain (index + 1))).2.tables.rules
      table chain = firewall.tables.rules table chain := by
  rw [iptablesDoCommand]
  dsimp only
  rw [if_pos fails]

theorem kernel_iptablesDoCommand (firewall : Firewall) (command : Command) :
    (iptablesDoCommand firewall command).2.kernel = firewall.kernel ∧
      (iptablesDoCommand firewall command).2.issued = firewall.issued + 1 :=
  ⟨iptablesDoCommand_kernel firewall command, iptablesDoCommand_issued firewall command⟩

theorem filter_deleteNumber (inRange : index < (firewall.tables.rules table chain).length)
    (found : (firewall.tables.rules table chain)[index].mentions mention = true) :
    ((iptablesDoCommand firewall (.deleteNumber table chain (index + 1))).2.tables.rules
      table chain).filter (fun rule => !rule.mentions mention) =
        (firewall.tables.rules table chain).filter fun rule => !rule.mentions mention := by
  by_cases exits : firewall.kernel.exitCode firewall.issued = 0
  · rw [rules_deleteNumber exits inRange]
    apply filter_eraseIdx
    intro rule atIndex
    rw [List.getElem?_eq_getElem inRange] at atIndex
    cases atIndex
    rw [found]
    rfl
  · rw [rules_deleteNumber_failed exits]

theorem mentions_deleteNumber (inRange : index < (firewall.tables.rules table chain).length)
    (found : (firewall.tables.rules table chain)[index].mentions mention = true) :
    (iptablesDoCommand firewall (.deleteNumber table chain (index + 1))).2.mentions
      table chain mention + (if firewall.kernel.exitCode firewall.issued = 0 then 1 else 0) =
        firewall.mentions table chain mention := by
  by_cases exits : firewall.kernel.exitCode firewall.issued = 0
  · rw [Firewall.mentions, rules_deleteNumber exits inRange, if_pos exits]
    exact countP_eraseIdx inRange found
  · rw [Firewall.mentions, rules_deleteNumber_failed exits, if_neg exits]
    rfl

theorem mentions_eq_zero
    (nowhere : (firewall.tables.rules table chain).findIdx? (·.mentions mention) = none) :
    firewall.mentions table chain mention = 0 := by
  apply List.countP_eq_zero.mpr
  simpa using List.findIdx?_eq_none_iff.mp nowhere

/-! ## All calls -/

/-- The calls that are enough: one for each deletion that is tried, and the last. -/
theorem destroyMention_isSome_iff (fuel : Nat) (firewall : Firewall) :
    (iptablesFwDestroyMention (fuel + 1) firewall table chain mention).isSome = true ↔
      firewall.mentions table chain mention ≤ firewall.kernel.successes firewall.issued fuel := by
  induction fuel generalizing firewall with
  | zero =>
      rw [iptablesFwDestroyMention]
      split
      · next nowhere =>
          simp [mentions_eq_zero nowhere]
      · next index found =>
          rcases List.findIdx?_eq_some_iff_getElem.mp found with ⟨inRange, here, _⟩
          have some : 0 < firewall.mentions table chain mention :=
            List.countP_pos_iff.mpr ⟨_, List.getElem_mem inRange, here⟩
          simp only [iptablesFwDestroyMention, Option.isSome_none, Bool.false_eq_true, false_iff,
            Nat.not_le]
          exact some
  | succ fuel induction =>
      rw [iptablesFwDestroyMention]
      split
      · next nowhere =>
          simp [mentions_eq_zero nowhere]
      · next index found =>
          rcases List.findIdx?_eq_some_iff_getElem.mp found with ⟨inRange, here, _⟩
          have fewer := mentions_deleteNumber inRange here
          rcases kernel_iptablesDoCommand firewall (.deleteNumber table chain (index + 1)) with
            ⟨kernel, issued⟩
          rw [induction, kernel, issued, Kernel.successes_succ]
          omega

theorem rules_destroyMention {fuel : Nat} {after : Firewall}
    (returned : iptablesFwDestroyMention fuel firewall table chain mention = some after) :
    after.tables.rules table chain =
      (firewall.tables.rules table chain).filter fun rule => !rule.mentions mention := by
  induction fuel generalizing firewall with
  | zero => cases returned
  | succ fuel induction =>
      rw [iptablesFwDestroyMention] at returned
      split at returned
      · next nowhere =>
          cases returned
          symm
          apply List.filter_eq_self.mpr
          simpa using List.findIdx?_eq_none_iff.mp nowhere
      · next index found =>
          rcases List.findIdx?_eq_some_iff_getElem.mp found with ⟨inRange, here, _⟩
          rw [induction returned, filter_deleteNumber inRange here]

/-- The function returns exactly if enough of the commands it can issue succeed. -/
theorem mention_removal_returns_iff (firewall : Firewall) (table : Table) (chain : Chain)
    (mention : String) :
    RemovesMentions firewall table chain mention ↔
      ∃ calls, firewall.mentions table chain mention ≤
        firewall.kernel.successes firewall.issued calls := by
  constructor
  · intro removes
    rcases removes.returns with ⟨fuel, after, returned⟩
    cases fuel with
    | zero => cases returned
    | succ fuel =>
        refine ⟨fuel, (destroyMention_isSome_iff fuel firewall).mp ?_⟩
        rw [returned]
        rfl
  · rintro ⟨calls, enough⟩
    constructor
    · have returns := (destroyMention_isSome_iff calls firewall).mpr enough
      exact ⟨calls + 1, Option.isSome_iff_exists.mp returns⟩
    · intro fuel after returned
      exact rules_destroyMention returned

/-- A chain that mentions a chain of the daemon, while another program holds the lock of
iptables. -/
def lockedFirewall : Firewall where
  kernel := { willingKernel with exitCode := fun _ => 4 }
  tables := {
    mangle := [⟨.prerouting, [⟨⟨[], .jump .blocked⟩, 0⟩]⟩, ⟨.blocked, []⟩]
    nat := []
    filter := [] }
  issued := 0
  markop := .setMark
  markmask := none

/-- The deletion fails each time, and no number of calls is enough. -/
theorem failing_removal_endless :
    (∀ fuel, iptablesFwDestroyMention fuel lockedFirewall .mangle .prerouting "ndsBLK" = none) ∧
      ¬ RemovesMentions lockedFirewall .mangle .prerouting "ndsBLK" := by
  have some : lockedFirewall.mentions .mangle .prerouting "ndsBLK" = 1 := by decide +kernel
  have endless (fuel : Nat) :
      iptablesFwDestroyMention fuel lockedFirewall .mangle .prerouting "ndsBLK" = none := by
    cases fuel with
    | zero => rfl
    | succ fuel =>
        have none : lockedFirewall.kernel.successes lockedFirewall.issued fuel = 0 :=
          List.countP_eq_zero.mpr fun number _ => Bool.false_ne_true
        rw [← Option.not_isSome_iff_eq_none, destroyMention_isSome_iff, some, none]
        decide
  refine ⟨endless, ?_⟩
  intro removes
  rcases removes.returns with ⟨fuel, after, returned⟩
  rw [endless fuel] at returned
  cases returned

end Nodogsplash
