import Nodogsplash.ByteCounters
import Nodogsplash.LifeCycle

/-! # Counters over whole sessions

While the lines that `iptables_fw_counters_update` reads are read for the
authenticated clients that own the rules, the outgoing counter of a client is the
largest count reported for its rule since it got authenticated. -/

namespace Nodogsplash

open Relation (ReflTransGen)

namespace Gateway

/-! ## Sessions -/

/-- How often the state of the client at an address has changed. -/
def sessions (gateway : Gateway) (address : Nat) : Nat :=
  gateway.changes.countP fun change => decide (change.address = address)

theorem sessions_append {gateway next : Gateway} {change : Change}
    (logged : next.changes = gateway.changes ++ [change]) (address : Nat) :
    next.sessions address =
      gateway.sessions address + if change.address = address then 1 else 0 := by
  rw [sessions, logged, List.countP_append, List.countP_singleton]
  simp only [decide_eq_true_eq]
  rfl

/-- Where the outgoing counter of a client comes from: it was there before the
step, in the same session or, before the client got authenticated, in another; or
it is 0. -/
def OutgoingFrom (gateway next : Gateway) (node : Node) : Prop :=
  (∃ old ∈ gateway.clients.nodes, old.address = node.address ∧
    old.client.counters.outgoing = node.client.counters.outgoing ∧
    (node.client.fwConnectionState = gateway.marks.authenticated ↔
      old.client.fwConnectionState = gateway.marks.authenticated) ∧
    next.sessions node.address = gateway.sessions node.address) ∨
  (∃ old ∈ gateway.clients.nodes, old.address = node.address ∧
    old.client.counters.outgoing = node.client.counters.outgoing ∧
    old.client.fwConnectionState ≠ gateway.marks.authenticated ∧
    gateway.sessions node.address < next.sessions node.address) ∨
  (node.client.counters.outgoing = 0 ∧
    node.client.fwConnectionState ≠ gateway.marks.authenticated)

theorem OutgoingFrom.kept {gateway next : Gateway} {node : Node}
    (member : node ∈ gateway.clients.nodes)
    (same : next.sessions node.address = gateway.sessions node.address) :
    gateway.OutgoingFrom next node :=
  .inl ⟨node, member, rfl, rfl, Iff.rfl, same⟩

theorem editMacs_changes (gateway : Gateway) (mac : String) (command : MacCommand) :
    (gateway.editMacs mac command).changes = gateway.changes := by
  cases command <;> rfl

theorem Action.sessions_le {permits : Permissions} {gateway next : Gateway}
    (action : Action permits gateway next) (address : Nat) :
    gateway.sessions address ≤ next.sessions address := by
  have logs {next : Gateway} {change : Change}
      (logged : next.changes = gateway.changes ++ [change]) :
      gateway.sessions address ≤ next.sessions address :=
    sessions_append logged address ▸ Nat.le_add_right _ _
  cases action with
  | clock | authentications | bytes | delete | limits => exact le_refl _
  | add _ _ _ added =>
      rcases clientListAppend_eq added with ⟨_, _, rfl⟩
      exact le_refl _
  | authenticate => exact logs (enterAuthenticated_changes _ _ _)
  | deauthenticate => exact logs (leaveAuthenticated_changes _ _ _)
  | block => exact logs (leaveBlocked_changes _ _ _)
  | editMacs mac command =>
      rw [sessions, sessions, editMacs_changes]

theorem Action.outgoingFrom {permits : Permissions} {gateway next : Gateway}
    (action : Action permits gateway next) :
    ∀ node ∈ next.clients.nodes, gateway.OutgoingFrom next node := by
  cases action with
  | clock | authentications | bytes => exact fun node member => .kept member rfl
  | add _ _ _ added =>
      intro node member
      rcases clientListAppend_eq added with ⟨_, _, rfl⟩
      rcases ClientList.mem_push.mp member with old | rfl
      · exact .kept old rfl
      · exact .inr (.inr ⟨rfl, classify_ne_authenticated _ _ _⟩)
  | delete =>
      intro node member
      exact .kept (ClientList.mem_of_mem_delete member) rfl
  | limits address now limits =>
      intro node member
      rcases ClientList.mem_modify.mp member with ⟨old, inList, _, rfl⟩ | ⟨inList, _⟩
      · exact .inl ⟨old, inList, rfl, rfl, Iff.rfl, rfl⟩
      · exact .kept inList rfl
  | @authenticate target reason _ state =>
      have logged := sessions_append (gateway.enterAuthenticated_changes target reason)
      intro node member
      rw [enterAuthenticated_clients] at member
      rcases ClientList.mem_modify.mp member with ⟨old, inList, same, rfl⟩ | ⟨inList, different⟩
      · refine .inr (.inl ⟨old, inList, rfl, rfl, ?_, ?_⟩)
        · rw [ClientList.eq_of_address inList ‹_› same, state]
          exact preauthenticated_ne_authenticated _
        · rw [logged, if_pos same.symm]
          exact Nat.lt_succ_self _
      · refine .kept inList ?_
        rw [logged, if_neg (Ne.symm different), Nat.add_zero]
  | @deauthenticate target reason _ _ =>
      have logged := sessions_append (gateway.leaveAuthenticated_changes target reason)
      intro node member
      rw [leaveAuthenticated_clients] at member
      rcases ClientList.mem_modify.mp member with
        ⟨middle, inMiddle, same, rfl⟩ | ⟨inMiddle, different⟩
      · rcases ClientList.mem_modify.mp inMiddle with ⟨old, _, _, rfl⟩ | ⟨_, different⟩
        · exact .inr (.inr ⟨rfl, preauthenticated_ne_authenticated _⟩)
        · exact absurd same different
      · rcases ClientList.mem_modify.mp inMiddle with ⟨old, _, same, rfl⟩ | ⟨inList, _⟩
        · exact absurd same different
        · refine .kept inList ?_
          rw [logged, if_neg (Ne.symm different), Nat.add_zero]
  | @block target reason inList _ =>
      have logged := sessions_append (gateway.leaveBlocked_changes target reason)
      intro node member
      rw [leaveBlocked_clients] at member
      rcases ClientList.mem_delete_iff.mp member with ⟨old, different⟩
      refine .kept old ?_
      rw [logged, if_neg (Ne.symm different), Nat.add_zero]
  | editMacs mac command =>
      intro node member
      rw [editMacs_clients] at member
      exact .kept member (by rw [sessions, sessions, editMacs_changes])

/-! ## Counters of sessions -/

/-- The outgoing counters are the counts reported for the authenticated clients,
and 0 for the others. -/
def Settled (gateway : Gateway) (reported : Nat → Nat) : Prop :=
  ∀ node ∈ gateway.clients.nodes, node.client.counters.outgoing =
    if node.client.fwConnectionState = gateway.marks.authenticated then reported node.address
    else 0

def carried (gateway next : Gateway) (reported : Nat → Nat) (address : Nat) : Nat :=
  if next.sessions address = gateway.sessions address then reported address else 0

theorem Settled.action {permits : Permissions} {gateway next : Gateway} {reported : Nat → Nat}
    (settled : gateway.Settled reported) (action : Action permits gateway next) :
    next.Settled (gateway.carried next reported) := by
  intro node member
  rw [action.transition.follows.marks, carried]
  rcases action.outgoingFrom node member with
    ⟨old, inList, address, outgoing, states, same⟩ |
      ⟨old, inList, address, outgoing, other, later⟩ |
      ⟨zero, other⟩
  · rw [← outgoing, settled old inList, if_pos same, address]
    simp only [states]
  · rw [← outgoing, settled old inList, if_neg other, if_neg (Nat.ne_of_gt later), ite_self]
  · rw [zero, if_neg other]

theorem Settled.actions {permits : Permissions} {gateway next : Gateway} {reported : Nat → Nat}
    (settled : gateway.Settled reported) (actions : Actions permits gateway next) :
    next.Settled (gateway.carried next reported) := by
  have both : next.Settled (gateway.carried next reported) ∧
      ∀ address, gateway.sessions address ≤ next.sessions address := by
    induction actions with
    | refl =>
        refine ⟨?_, fun _ => le_refl _⟩
        intro node member
        rw [settled node member, carried, if_pos rfl]
    | @tail middle next _ action induction =>
        rcases induction with ⟨settledMiddle, grown⟩
        refine ⟨?_, fun address => (grown address).trans (action.sessions_le address)⟩
        have last := settledMiddle.action action
        intro node member
        rw [last node member]
        congr 1
        have first := grown node.address
        have second := action.sessions_le node.address
        simp only [carried]
        split
        · next same => rw [same]
        · next later => rw [if_neg (by omega)]
  exact both.1

theorem raiseOutgoing_outgoing (now : Int) (bytes : Nat) (counters : Counters) :
    (raiseOutgoing now bytes counters).outgoing = max counters.outgoing bytes := by
  rcases Nat.lt_or_ge counters.outgoing bytes with grown | kept
  · rw [raiseOutgoing_of_lt now grown, Nat.max_eq_right (Nat.le_of_lt grown)]
  · rw [raiseOutgoing_of_le now kept, Nat.max_eq_left kept]

theorem raiseOutgoing_lastUpdated (now : Int) (bytes : Nat) (counters : Counters) :
    (raiseOutgoing now bytes counters).lastUpdated =
      if counters.outgoing < max counters.outgoing bytes then now else counters.lastUpdated := by
  rcases Nat.lt_or_ge counters.outgoing bytes with grown | kept
  · rw [raiseOutgoing_of_lt now grown, if_pos (by omega)]
  · rw [raiseOutgoing_of_le now kept, if_neg (by omega)]

theorem raiseOutgoing_incoming (now : Int) (bytes : Nat) (counters : Counters) :
    (raiseOutgoing now bytes counters).incoming = counters.incoming := by
  rw [raiseOutgoing]
  split
  · rfl
  · rfl

theorem raiseIncoming_incoming (bytes : Nat) (counters : Counters) :
    (raiseIncoming bytes counters).incoming = max counters.incoming bytes := by
  rcases Nat.lt_or_ge counters.incoming bytes with grown | kept
  · rw [raiseIncoming_of_lt grown, Nat.max_eq_right (Nat.le_of_lt grown)]
  · rw [raiseIncoming_of_le kept, Nat.max_eq_left kept]

theorem raiseIncoming_outgoing (bytes : Nat) (counters : Counters) :
    (raiseIncoming bytes counters).outgoing = counters.outgoing ∧
      (raiseIncoming bytes counters).lastUpdated = counters.lastUpdated := by
  rcases Nat.lt_or_ge counters.incoming bytes with grown | kept
  · rw [raiseIncoming_of_lt grown]
    exact ⟨rfl, rfl⟩
  · rw [raiseIncoming_of_le kept]
    exact ⟨rfl, rfl⟩

end Gateway

/-! ## Metered runs -/

/-- The threads, and the largest byte count reported so far for the own rule of
the client at each address in its current session. -/
structure Metered where
  threads : Threads
  reported : Nat → Nat

/-- A section of a thread, or the kernel counting bytes on a rule. -/
inductive Metering
  | take (taken : Section)
  | traffic (table : Table) (chain : Chain) (number bytes : Nat)

def Threads.meter (threads : Threads) : Metering → Threads
  | .take taken => threads.take taken
  | .traffic table chain number bytes =>
      { threads with gateway := threads.gateway.countBytes table chain number bytes }

namespace Metered

def start (gateway : Gateway) : Metered := ⟨.start gateway, fun _ => 0⟩

def ownBytes (gateway : Gateway) (address : Nat) : Nat :=
  match gateway.clients.nodes.find? fun node => decide (node.address = address) with
  | some node => gateway.outgoingBytes node.client
  | none => 0

/-- What is reported for a client starts anew with each change of its state. -/
def step (metered : Metered) (metering : Metering) : Metered :=
  let next := metered.threads.meter metering
  let carried := metered.threads.gateway.carried next.gateway metered.reported
  match metering with
  | .take (.counters true _) =>
      ⟨next, fun address => max (carried address) (ownBytes metered.threads.gateway address)⟩
  | _ => ⟨next, carried⟩

/-- When `ndsOUT` is listed, its lines are read for the owners of the rules. -/
def Attributed (metered : Metered) (metering : Metering) : Prop :=
  ∀ incomingRead, metering = .take (.counters true incomingRead) →
    metered.threads.gateway.ReadForOwners incomingRead

theorem ownBytes_of_mem {gateway : Gateway} {node : Node} (member : node ∈ gateway.clients.nodes) :
    ownBytes gateway node.address = gateway.outgoingBytes node.client := by
  rw [ownBytes, KeyedList.find?_key Node.address gateway.clients.distinct member]

end Metered

namespace Gateway

theorem counted_of_mem {gateway : Gateway} {incomingRead : Bool}
    (owners : gateway.ReadForOwners incomingRead) {node : Node}
    (member : node ∈ gateway.clients.nodes) :
    let counted := raiseOutgoing gateway.clock (largest (gateway.outgoingLines node))
      node.client.counters
    let after := if incomingRead then raiseIncoming (largest (gateway.incomingLines node)) counted
      else counted
    (node.client.fwConnectionState = gateway.marks.authenticated →
      after.outgoing = max node.client.counters.outgoing (gateway.outgoingBytes node.client) ∧
        after.lastUpdated =
          if node.client.counters.outgoing < after.outgoing then gateway.clock
          else node.client.counters.lastUpdated) ∧
      (node.client.fwConnectionState ≠ gateway.marks.authenticated →
        after = node.client.counters) := by
  intro counted after
  have incoming : after.outgoing = counted.outgoing ∧ after.lastUpdated = counted.lastUpdated := by
    simp only [after]
    split
    · exact raiseIncoming_outgoing _ _
    · exact ⟨rfl, rfl⟩
  constructor
  · intro state
    rw [incoming.1, incoming.2, raiseOutgoing_outgoing, raiseOutgoing_lastUpdated,
      owners.largest_outgoingLines member state]
    exact ⟨rfl, rfl⟩
  · intro state
    have nothing := owners.others member state
    have same : counted = node.client.counters :=
      raiseOutgoing_of_le _ (nothing.1 ▸ Nat.zero_le _)
    simp only [after]
    split
    · next read => rw [same, raiseIncoming_of_le (nothing.2 read ▸ Nat.zero_le _)]
    · exact same

theorem Settled.counted {gateway : Gateway} {reported : Nat → Nat} {incomingRead : Bool}
    (settled : gateway.Settled reported) (owners : gateway.ReadForOwners incomingRead) :
    (iptablesFwCountersUpdate true incomingRead gateway).2.Settled
      fun address => max (reported address) (Metered.ownBytes gateway address) := by
  have marks : (iptablesFwCountersUpdate true incomingRead gateway).2.marks = gateway.marks :=
    iptablesFwCountersUpdate_keeps Gateway.marks (fun _ _ => rfl) _ _ _
  intro node member
  rw [nodes_iptablesFwCountersUpdate] at member
  rcases List.mem_map.mp member with ⟨old, inList, rfl⟩
  rw [marks]
  have counters := counted_of_mem owners inList
  by_cases state : old.client.fwConnectionState = gateway.marks.authenticated
  · have before := settled old inList
    rw [if_pos state] at before
    simp only [countNode, if_pos state, Metered.ownBytes_of_mem inList]
    rw [← before]
    exact (counters.1 state).1
  · have before := settled old inList
    rw [if_neg state] at before
    simp only [countNode]
    exact (congrArg Counters.outgoing (counters.2 state)).trans (before.trans (if_neg state).symm)

end Gateway

namespace Metered

theorem carried_of_counted (gateway : Gateway) (outgoingRead incomingRead : Bool)
    (reported : Nat → Nat) :
    gateway.carried (Gateway.iptablesFwCountersUpdate outgoingRead incomingRead gateway).2
      reported = reported := by
  have same : (Gateway.iptablesFwCountersUpdate outgoingRead incomingRead gateway).2.changes =
      gateway.changes :=
    Gateway.iptablesFwCountersUpdate_keeps Gateway.changes (fun _ _ => rfl) _ _ _
  funext address
  rw [Gateway.carried, Gateway.sessions, Gateway.sessions, same, if_pos rfl]

theorem step_of_unread (metered : Metered) {metering : Metering}
    (unread : ∀ incomingRead, metering ≠ .take (.counters true incomingRead)) :
    metered.step metering = ⟨metered.threads.meter metering,
      metered.threads.gateway.carried (metered.threads.meter metering).gateway
        metered.reported⟩ := by
  cases metering with
  | traffic => rfl
  | take taken =>
      cases taken with
      | counters outgoingRead incomingRead =>
          cases outgoingRead with
          | false => rfl
          | true => exact absurd rfl (unread incomingRead)
      | _ => rfl

theorem step_of_read (metered : Metered) (incomingRead : Bool) :
    metered.step (.take (.counters true incomingRead)) =
      ⟨metered.threads.take (.counters true incomingRead), fun address =>
        max (metered.reported address) (ownBytes metered.threads.gateway address)⟩ := by
  have same := carried_of_counted metered.threads.gateway true incomingRead metered.reported
  exact congrArg (fun carried : Nat → Nat => Metered.mk
    (metered.threads.take (.counters true incomingRead)) fun address =>
      max (carried address) (ownBytes metered.threads.gateway address)) same

theorem settled_step {metered : Metered} {metering : Metering}
    (settled : metered.threads.gateway.Settled metered.reported)
    (attributed : metered.Attributed metering) :
    (metered.step metering).threads.gateway.Settled (metered.step metering).reported := by
  have carries {metered : Metered} {metering : Metering}
      (settled : metered.threads.gateway.Settled metered.reported)
      (actions : Gateway.Actions (.all .sessions) metered.threads.gateway
        (metered.threads.meter metering).gateway)
      (unread : ∀ incomingRead, metering ≠ .take (.counters true incomingRead)) :
      (metered.step metering).threads.gateway.Settled (metered.step metering).reported := by
    rw [step_of_unread metered unread]
    exact settled.actions actions
  cases metering with
  | traffic table chain number bytes => exact carries settled (.single (.bytes _ _ _ _ _)) nofun
  | take taken =>
      by_cases read : ∃ outgoingRead incomingRead, taken = .counters outgoingRead incomingRead
      · rcases read with ⟨outgoingRead, incomingRead, rfl⟩
        cases outgoingRead with
        | false => exact carries settled .refl nofun
        | true =>
            have counted := settled.counted (attributed incomingRead rfl)
            rw [step_of_read]
            exact counted
      · have uncounted (outgoingRead incomingRead : Bool) :
            taken ≠ .counters outgoingRead incomingRead :=
          fun equal => read ⟨_, _, equal⟩
        have permitted : Threads.Permitted (.all .sessions) taken :=
          ⟨fun _ => nofun, fun _ _ _ => trivial, fun _ _ _ => trivial⟩
        refine carries settled (metered.threads.take_actions uncounted permitted) ?_
        intro incomingRead equal
        cases equal
        exact uncounted _ _ rfl

/-- What a successful call of `iptables_fw_counters_update` has to do with a
client, if it takes what has been reported for its rule from one count to another. -/
structure CountsFor (marks : AcceptedMarks) (now : Int) (before after : Nat) (old new : Node) :
    Prop where
  address : new.address = old.address
  authenticated : old.client.fwConnectionState = marks.authenticated →
    new.client.counters.outgoing = after ∧
      new.client.counters.lastUpdated =
        if before < after then now else old.client.counters.lastUpdated
  others : old.client.fwConnectionState ≠ marks.authenticated → new = old

/-- In every run without a state file in which the lines are read for the owners
of the rules, a successful call gives every authenticated client the largest count
reported for its own rule in this session, and leaves the others alone. -/
theorem counts_go_to_owners {environment : Environment} {initial : Gateway}
    {meterings : List Metering} {metered : Metered}
    (clean : environment.stateFile = .missing) (started : mainLoop environment = some initial)
    (run : Execution.Run (Execution.Guarded (Execution.ofFunction step) Attributed)
      (.start initial) meterings metered)
    (attributed : metered.threads.gateway.ReadForOwners true) :
    let gateway := metered.threads.gateway
    let next := metered.step (.take (.counters true true))
    (Gateway.iptablesFwCountersUpdate true true gateway).1 = true ∧
      List.Forall₂ (fun old new => CountsFor gateway.marks gateway.clock
          (metered.reported old.address) (next.reported old.address) old new)
        gateway.clients.nodes next.threads.gateway.clients.nodes := by
  intro gateway next
  have initially : (start initial).threads.gateway.Settled (start initial).reported := by
    rcases mainLoop_cases started with ⟨_, _, fresh, ⟨_, rfl⟩ | ⟨_, recovered, _⟩⟩
    · intro node member
      rw [clean] at member
      rw [start, Threads.start, Gateway.stateFileImport, fresh.nodes] at member
      cases member
    · intro node member
      rw [start, Threads.start, recovered.nodes] at member
      cases member
  have settled : gateway.Settled metered.reported := by
    refine run.invariant (fun metered => metered.threads.gateway.Settled metered.reported) ?_
      initially
    rintro current metering _ settled ⟨attributed, rfl⟩
    exact settled_step settled attributed
  refine ⟨rfl, ?_⟩
  have nodes : next.threads.gateway.clients.nodes = _ :=
    Gateway.nodes_iptablesFwCountersUpdate true gateway
  rw [nodes, List.forall₂_map_right_iff, List.forall₂_same]
  intro node member
  have counters := Gateway.counted_of_mem attributed member
  have before := settled node member
  have after : next.reported node.address =
      max (metered.reported node.address) (gateway.outgoingBytes node.client) := by
    rw [← ownBytes_of_mem member]
    exact congrFun (congrArg reported (step_of_read metered true)) node.address
  refine ⟨rfl, ?_, ?_⟩
  · intro state
    rw [if_pos state] at before
    rw [after, ← before]
    have counted := counters.1 state
    exact ⟨counted.1, counted.2.trans (by rw [counted.1])⟩
  · intro state
    exact congrArg (fun counters =>
      ({ node with client := { node.client with counters := counters } } : Node))
        (counters.2 state)

/-- A client gets authenticated, sends 500 bytes that are read, and 200 more. -/
def ownersMeterings : List Metering :=
  [.take (.webRequest (defaultRequest "/" fun _ => none)),
    .take (.ndsctlAuth "192.168.42.10"),
    .traffic .mangle .outgoing 0 500,
    .take (.counters true true),
    .traffic .mangle .outgoing 0 200]

def ownersFinal : Metered := ownersMeterings.foldl step (start defaultGateway)

theorem counts_go_to_owners_default :
    let gateway := ownersFinal.threads.gateway
    let next := ownersFinal.step (.take (.counters true true))
    (Gateway.iptablesFwCountersUpdate true true gateway).1 = true ∧
      List.Forall₂ (fun old new => CountsFor gateway.marks gateway.clock
          (ownersFinal.reported old.address) (next.reported old.address) old new)
        gateway.clients.nodes next.threads.gateway.clients.nodes := by
  have first : ((ownersMeterings.take 3).foldl step
      (start defaultGateway)).threads.gateway.ReadForOwners true :=
    ⟨by decide +kernel, by decide +kernel, by decide +kernel⟩
  have last : ownersFinal.threads.gateway.ReadForOwners true :=
    ⟨by decide +kernel, by decide +kernel, by decide +kernel⟩
  have run : Execution.Run (Execution.Guarded (Execution.ofFunction step) Attributed)
      (.start defaultGateway) ownersMeterings ownersFinal := by
    refine .cons ⟨nofun, rfl⟩ (.cons ⟨nofun, rfl⟩ (.cons ⟨nofun, rfl⟩
      (.cons ⟨fun incomingRead equal => ?_, rfl⟩ (.cons ⟨nofun, rfl⟩ (.nil _)))))
    cases equal
    exact first
  exact counts_go_to_owners rfl mainLoop_defaultGateway run last

/-- Two clients with one IP address; the second gets authenticated and sends. -/
def sharedMeterings : List Metering :=
  [.take (.webRequest (defaultRequest "/" fun _ => none)),
    .take (.webDecide (.respond .splashpage)),
    .take (.webRequest
      { defaultRequest "/" fun _ => none with neighbour := some "00:16:3e:00:00:02" }),
    .take (.ndsctlAuth "00:16:3e:00:00:02"),
    .traffic .mangle .outgoing 0 500]

def sharedFinal : Metered := sharedMeterings.foldl step (start defaultGateway)

/-- The bytes of the authenticated client are counted for the other one. -/
theorem counted_for_another_client :
    let gateway := sharedFinal.threads.gateway
    let next := sharedFinal.step (.take (.counters true true))
    defaultEnvironment.stateFile = .missing ∧
      mainLoop defaultEnvironment = some defaultGateway ∧
      Execution.Run (Execution.ofFunction step) (start defaultGateway) sharedMeterings
        sharedFinal ∧
      (Gateway.iptablesFwCountersUpdate true true gateway).1 = true ∧
      (gateway.clients.nodes.map fun node =>
          (node.client.fwConnectionState, node.client.counters.outgoing)) =
        [(preauthenticatedState, 0), (gateway.marks.authenticated, 0)] ∧
      (next.threads.gateway.clients.nodes.map fun node =>
          (next.reported node.address, node.client.counters.outgoing)) = [(0, 500), (500, 0)] :=
  ⟨rfl, mainLoop_defaultGateway, (Execution.run_ofFunction_iff _ _ _ _).mpr rfl, rfl,
    by decide +kernel, by decide +kernel⟩

end Metered

end Nodogsplash
