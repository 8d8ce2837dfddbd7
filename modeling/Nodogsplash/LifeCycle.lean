import Nodogsplash.ClientListRuns

/-! # The life of a client

The calls that a run makes about one client come in the order of a life cycle:
blocked or trusted from the first to the last day, or preauthenticated and
authenticated in turn, with the firewall rules added on every entry and removed
on every exit. -/

namespace Nodogsplash

open Relation (ReflTransGen)

/-! ## The state at an address -/

namespace ClientList

def stateAt (list : ClientList) (address : Nat) : Option (BitVec 32) :=
  (list.nodes.find? fun node => decide (node.address = address)).map fun node =>
    node.client.fwConnectionState

theorem stateAt_of_mem {list : ClientList} {node : Node} (member : node ∈ list.nodes) :
    list.stateAt node.address = some node.client.fwConnectionState := by
  rw [stateAt, KeyedList.find?_key Node.address list.distinct member]
  rfl

theorem stateAt_of_created_le {list : ClientList} {address : Nat}
    (unborn : list.created ≤ address) : list.stateAt address = none := by
  rw [stateAt, Option.map_eq_none_iff, List.find?_eq_none]
  intro node member equal
  have allocated := list.allocated node member
  have same : node.address = address := by simpa using equal
  omega

theorem stateAt_modify (list : ClientList) (target address : Nat) (change : Client → Client) :
    (list.modify target change).stateAt address =
      if address = target then
        (list.nodes.find? fun node => decide (node.address = address)).map fun node =>
          (change node.client).fwConnectionState
      else list.stateAt address := by
  have keeps (node : Node) : { node with client := change node.client }.address = node.address :=
    rfl
  simp only [stateAt, modify]
  split
  · next same =>
      subst same
      rw [KeyedList.find?_update_self Node.address address keeps, Option.map_map]
      rfl
  · next different =>
      rw [KeyedList.find?_update_of_ne Node.address keeps different]

theorem stateAt_modify_of_keeps (list : ClientList) (target address : Nat)
    {change : Client → Client}
    (keeps : ∀ client, (change client).fwConnectionState = client.fwConnectionState) :
    (list.modify target change).stateAt address = list.stateAt address := by
  rw [stateAt_modify]
  simp only [keeps]
  exact ite_self _

theorem stateAt_modify_of_assigns {list : ClientList} {target : Nat}
    (present : (list.stateAt target).isSome = true) (address : Nat) {change : Client → Client}
    {state : BitVec 32} (assigns : ∀ client, (change client).fwConnectionState = state) :
    (list.modify target change).stateAt address =
      if address = target then some state else list.stateAt address := by
  rw [stateAt_modify]
  split
  · next same =>
      subst same
      rw [stateAt, Option.isSome_map] at present
      rcases Option.isSome_iff_exists.mp present with ⟨node, found⟩
      rw [found, Option.map_some, assigns]
  · rfl

theorem stateAt_push (list : ClientList) (client : Client) (address : Nat) :
    (list.push client).stateAt address =
      if address = list.created then some client.fwConnectionState else list.stateAt address := by
  rw [stateAt, push, List.find?_append]
  split
  · next same =>
      subst same
      have unborn := stateAt_of_created_le (le_refl list.created)
      rw [stateAt, Option.map_eq_none_iff] at unborn
      simp [unborn]
  · next different =>
      simp [Ne.symm different, stateAt]

theorem stateAt_delete (list : ClientList) (target address : Nat) :
    (list.delete target).stateAt address =
      if address = target then none else list.stateAt address := by
  rw [stateAt, nodes_delete, KeyedList.find?_remove Node.address list.distinct]
  split <;> rfl

end ClientList

/-! ## Calls -/

inductive Call
  | clientListAppend (address : Nat) (state : BitVec 32)
  | iptablesFwAuthenticate (address : Nat)
  | iptablesFwDeauthenticate (address : Nat)
  | binauthAction (address : Nat)
  | authClientBlock (address : Nat)
  | clientReset (address : Nat)
  | setState (address : Nat) (state : BitVec 32)
  | clientListDelete (address : Nat)

def Call.address : Call → Nat
  | .clientListAppend address _ => address
  | .iptablesFwAuthenticate address => address
  | .iptablesFwDeauthenticate address => address
  | .binauthAction address => address
  | .authClientBlock address => address
  | .clientReset address => address
  | .setState address _ => address
  | .clientListDelete address => address

namespace Gateway

/-- The calls that `auth_change_state` makes. -/
def authChangeStateCalls (marks : AcceptedMarks) (node : Node) (newState : BitVec 32) :
    List Call :=
  let address := node.address
  let state := node.client.fwConnectionState
  if state = newState then []
  else if state = preauthenticatedState then
    if newState = marks.authenticated then
      [.iptablesFwAuthenticate address, .binauthAction address, .setState address newState]
    else []
  else if state = marks.authenticated then
    if newState = preauthenticatedState then
      [.iptablesFwDeauthenticate address, .binauthAction address, .clientReset address,
        .setState address newState]
    else if newState = marks.blocked then
      [.iptablesFwDeauthenticate address, .binauthAction address, .authClientBlock address,
        .clientListDelete address]
    else []
  else []

def perform (node : Node) (reason : Option String) (gateway : Gateway) : Call → Gateway
  | .clientListAppend _ _ => gateway
  | .iptablesFwAuthenticate _ => (gateway.iptablesFwAuthenticate node.client).2
  | .iptablesFwDeauthenticate _ => (gateway.iptablesFwDeauthenticate node.client).2
  | .binauthAction _ => gateway.binauthAction node.client reason
  | .authClientBlock _ => (gateway.authClientBlock node.client.mac).2
  | .clientReset address => gateway.clientReset address
  | .setState _ state => gateway.setState node state
  | .clientListDelete address => gateway.clientListDelete address

theorem authChangeState_performs (gateway : Gateway) (node : Node) (newState : BitVec 32)
    (reason : Option String) :
    { (gateway.authChangeState node newState reason).2 with changes := gateway.changes } =
      (authChangeStateCalls gateway.marks node newState).foldl (perform node reason) gateway := by
  simp only [authChangeState, authChangeStateCalls]
  split
  · rfl
  · split
    · split
      · next target =>
          rw [target]
          simp only [enterAuthenticated, record, perform, List.foldl_cons, List.foldl_nil, setState,
            modifyClient, binauthAction, iptablesFwAuthenticate]
      · rfl
    · split
      · split
        · next target =>
            rw [target]
            simp only [leaveAuthenticated, record, perform, List.foldl_cons, List.foldl_nil,
              setState, modifyClient, clientReset, drawToken, binauthAction,
              iptablesFwDeauthenticate]
        · split
          · simp only [leaveBlocked, record, perform, List.foldl_cons, List.foldl_nil,
              clientListDelete, authClientBlock, editMacList, binauthAction,
              iptablesFwDeauthenticate]
            rfl
          · rfl
      · rfl

theorem authChangeStateCalls_of_refused {gateway : Gateway} {node : Node}
    {newState : BitVec 32} {reason : Option String}
    (refused : gateway.authChangeState node newState reason = (-1, gateway)) :
    authChangeStateCalls gateway.marks node newState = [] := by
  have code : (gateway.authChangeState node newState reason).1 ≠ 0 := by
    rw [refused]
    simp
  simp only [authChangeState] at code
  simp only [authChangeStateCalls]
  split
  · rfl
  · next changed =>
      rw [if_neg changed] at code
      split
      · next fresh =>
          rw [if_pos fresh] at code
          exact if_neg fun target => code (by rw [if_pos target])
      · next notFresh =>
          rw [if_neg notFresh] at code
          split
          · next authenticated =>
              rw [if_pos authenticated] at code
              split
              · next target => exact absurd (by rw [if_pos target]) code
              · next other =>
                  rw [if_neg other] at code
                  exact if_neg fun target => code (by rw [if_pos target])
          · rfl

inductive Quiet : Gateway → Gateway → Prop
  | clock (gateway : Gateway) (now : Int) : Quiet gateway { gateway with clock := now }
  | authentications (gateway : Gateway) (count : Nat) :
      Quiet gateway { gateway with authenticatedSinceStart := count }
  | bytes (gateway : Gateway) (table : Table) (chain : Chain) (number bytes : Nat) :
      Quiet gateway (gateway.countBytes table chain number bytes)
  | assign {gateway : Gateway} (address : Nat) {change : Client → Client}
      (keeps : KeepsState change) : Quiet gateway (gateway.modifyClient address change)
  | editMacs (gateway : Gateway) (mac : String) (command : MacCommand) :
      Quiet gateway (gateway.editMacs mac command)

inductive Makes : Gateway → List Call → Gateway → Prop
  | quiet {gateway next : Gateway} (quiet : Quiet gateway next) : Makes gateway [] next
  | append {gateway next : Gateway} {mac ip : String} {node : Node}
      (added : gateway.clientListAppend mac ip = (some node, next)) :
      Makes gateway [.clientListAppend node.address node.client.fwConnectionState] next
  | delete {gateway : Gateway} {node : Node} (member : node ∈ gateway.clients.nodes)
      (state : node.client.fwConnectionState = preauthenticatedState) :
      Makes gateway [.clientListDelete node.address] (gateway.clientListDelete node.address)
  | change {gateway : Gateway} {node : Node} (newState : BitVec 32) (reason : Option String)
      (member : node ∈ gateway.clients.nodes) :
      Makes gateway (authChangeStateCalls gateway.marks node newState)
        (gateway.authChangeState node newState reason).2

inductive Calls : Gateway → List Call → Gateway → Prop
  | nil (gateway : Gateway) : Calls gateway [] gateway
  | snoc {initial current next : Gateway} {calls more : List Call}
      (before : Calls initial calls current) (makes : Makes current more next) :
      Calls initial (calls ++ more) next

theorem Transition.makes {permits : Permissions} {gateway next : Gateway}
    (transition : Transition permits gateway next) : ∃ calls, Makes gateway calls next := by
  cases transition with
  | clock now => exact ⟨_, .quiet (.clock _ now)⟩
  | authentications count => exact ⟨_, .quiet (.authentications _ count)⟩
  | bytes table chain number bytes => exact ⟨_, .quiet (.bytes _ table chain number bytes)⟩
  | add _ _ _ added => exact ⟨_, .append added⟩
  | delete member state => exact ⟨_, .delete member state⟩
  | count raise =>
      have keeps : KeepsState fun client => { client with counters := raise client.counters } :=
        ⟨fun _ => rfl, fun _ => rfl, fun _ => rfl⟩
      exact ⟨_, .quiet (.assign _ keeps)⟩
  | assign keeps => exact ⟨_, .quiet (.assign _ keeps)⟩
  | @authenticate node reason member state =>
      have change := Makes.change gateway.marks.authenticated reason member
      rw [authChangeState_of_preauthenticated gateway reason state] at change
      exact ⟨_, change⟩
  | @deauthenticate node reason member state =>
      have change := Makes.change preauthenticatedState reason member
      rw [authChangeState_of_authenticated gateway reason state] at change
      exact ⟨_, change⟩
  | @block node reason member state =>
      have change := Makes.change gateway.marks.blocked reason member
      rw [authChangeState_of_blocking gateway reason state] at change
      exact ⟨_, change⟩
  | editMacs mac command => exact ⟨_, .quiet (.editMacs _ mac command)⟩

theorem Transitions.calls {permits : Permissions} {gateway next : Gateway}
    (transitions : Transitions permits gateway next) : ∃ calls, Calls gateway calls next := by
  induction transitions with
  | refl => exact ⟨_, .nil _⟩
  | tail _ transition induction =>
      rcases induction with ⟨calls, before⟩
      rcases transition.makes with ⟨more, makes⟩
      exact ⟨_, before.snoc makes⟩

end Gateway

/-! ## Phases of a life -/

inductive Phase
  | unborn
  | blocked
  | trusted
  | preauthenticated
  | entering
  | entered
  | authenticated
  | leaving
  | left
  | reset
  | blocking
  | gone
  deriving DecidableEq

def Phase.next (marks : AcceptedMarks) : Phase → Call → Option Phase
  | .unborn, .clientListAppend _ state =>
      if state = marks.blocked then some .blocked
      else if state = marks.trusted then some .trusted
      else if state = preauthenticatedState then some .preauthenticated
      else none
  | .preauthenticated, .iptablesFwAuthenticate _ => some .entering
  | .entering, .binauthAction _ => some .entered
  | .entered, .setState _ state => if state = marks.authenticated then some .authenticated else none
  | .authenticated, .iptablesFwDeauthenticate _ => some .leaving
  | .leaving, .binauthAction _ => some .left
  | .left, .clientReset _ => some .reset
  | .reset, .setState _ state =>
      if state = preauthenticatedState then some .preauthenticated else none
  | .left, .authClientBlock _ => some .blocking
  | .blocking, .clientListDelete _ => some .gone
  | .preauthenticated, .clientListDelete _ => some .gone
  | _, _ => none

/-- The phase of the client at an address after the calls about it. -/
def phaseAfter (marks : AcceptedMarks) (calls : List Call) (address : Nat) (phase : Phase) :
    Option Phase :=
  (calls.filter fun call => decide (call.address = address)).foldlM (Phase.next marks) phase

/-- The phase that the list shows for an address. -/
def Phase.Shows (phase : Phase) (gateway : Gateway) (address : Nat) : Prop :=
  match phase with
  | .unborn => gateway.clients.created ≤ address
  | .blocked => gateway.clients.stateAt address = some gateway.marks.blocked
  | .trusted => gateway.clients.stateAt address = some gateway.marks.trusted
  | .preauthenticated => gateway.clients.stateAt address = some preauthenticatedState
  | .authenticated => gateway.clients.stateAt address = some gateway.marks.authenticated
  | .gone => address < gateway.clients.created ∧ gateway.clients.stateAt address = none
  | _ => False

namespace Phase

variable {phase : Phase} {gateway next : Gateway} {address : Nat}

theorem Shows.of_same (shows : phase.Shows gateway address) (marks : next.marks = gateway.marks)
    (state : next.clients.stateAt address = gateway.clients.stateAt address)
    (created : gateway.clients.created ≤ next.clients.created)
    (unborn : gateway.clients.created ≤ address → next.clients.created ≤ address) :
    phase.Shows next address := by
  cases phase with
  | unborn => exact unborn shows
  | gone => exact ⟨shows.1.trans_le created, state.trans shows.2⟩
  | blocked | trusted | authenticated =>
      simp only [Shows] at shows ⊢
      rw [state, marks]
      exact shows
  | preauthenticated => exact state.trans shows
  | entering | entered | leaving | left | reset | blocking => exact shows

theorem Shows.of_preauthenticated (shows : phase.Shows gateway address)
    (state : gateway.clients.stateAt address = some preauthenticatedState) :
    phase = .preauthenticated := by
  cases phase with
  | unborn =>
      rw [ClientList.stateAt_of_created_le shows] at state
      cases state
  | gone =>
      rw [shows.2] at state
      cases state
  | blocked =>
      exact absurd (Option.some.inj (shows.symm.trans state)) gateway.marks.blocked_ne_zero
  | trusted =>
      exact absurd (Option.some.inj (shows.symm.trans state)) gateway.marks.trusted_ne_zero
  | authenticated =>
      exact absurd (Option.some.inj (shows.symm.trans state)) gateway.marks.authenticated_ne_zero
  | preauthenticated => rfl
  | entering | entered | leaving | left | reset | blocking => exact shows.elim

theorem Shows.of_authenticated (shows : phase.Shows gateway address)
    (state : gateway.clients.stateAt address = some gateway.marks.authenticated) :
    phase = .authenticated := by
  cases phase with
  | unborn =>
      rw [ClientList.stateAt_of_created_le shows] at state
      cases state
  | gone =>
      rw [shows.2] at state
      cases state
  | blocked =>
      exact absurd (Option.some.inj (state.symm.trans shows)) gateway.marks.authenticated_ne_blocked
  | trusted =>
      exact absurd (Option.some.inj (shows.symm.trans state)) gateway.marks.trusted_ne_authenticated
  | preauthenticated =>
      exact absurd (Option.some.inj (state.symm.trans shows)) gateway.marks.authenticated_ne_zero
  | authenticated => rfl
  | entering | entered | leaving | left | reset | blocking => exact shows.elim

end Phase

namespace Gateway

theorem Quiet.keeps {gateway next : Gateway} (quiet : Quiet gateway next) :
    next.marks = gateway.marks ∧ next.clients.created = gateway.clients.created ∧
      ∀ address, next.clients.stateAt address = gateway.clients.stateAt address := by
  cases quiet with
  | clock | authentications | bytes => exact ⟨rfl, rfl, fun _ => rfl⟩
  | assign target keeps =>
      exact ⟨rfl, rfl, fun address =>
        gateway.clients.stateAt_modify_of_keeps target address keeps.state⟩
  | editMacs mac command =>
      refine ⟨(editMacs_follows _ _ _).marks, ?_, fun address => ?_⟩ <;> rw [editMacs_clients]

def Follow (gateway : Gateway) (calls : List Call) (next : Gateway) : Prop :=
  ∀ (address : Nat) (phase : Phase), phase.Shows gateway address →
    ∃ after, phaseAfter gateway.marks calls address phase = some after ∧ after.Shows next address

theorem Follow.of_single {gateway next : Gateway} {calls : List Call} (target : Nat)
    (marks : next.marks = gateway.marks) (about : ∀ call ∈ calls, call.address = target)
    (created : gateway.clients.created ≤ next.clients.created)
    (unborn : ∀ address, address ≠ target → gateway.clients.created ≤ address →
      next.clients.created ≤ address)
    (others : ∀ address, address ≠ target →
      next.clients.stateAt address = gateway.clients.stateAt address)
    (follows : ∀ phase : Phase, phase.Shows gateway target →
      ∃ after, calls.foldlM (Phase.next gateway.marks) phase = some after ∧
        after.Shows next target) : gateway.Follow calls next := by
  intro address phase shows
  by_cases same : address = target
  · subst same
    have all : calls.filter (fun call => decide (call.address = address)) = calls :=
      List.filter_eq_self.mpr fun call member => decide_eq_true (about call member)
    rw [phaseAfter, all]
    exact follows phase shows
  · have none : calls.filter (fun call => decide (call.address = address)) = [] := by
      rw [List.filter_eq_nil_iff]
      intro call member equal
      exact same ((of_decide_eq_true equal).symm.trans (about call member))
    rw [phaseAfter, none]
    exact ⟨phase, rfl, shows.of_same marks (others address same) created (unborn address same)⟩

theorem follow_append {gateway next : Gateway} {mac ip : String} {node : Node}
    (added : gateway.clientListAppend mac ip = (some node, next)) :
    gateway.Follow [.clientListAppend node.address node.client.fwConnectionState] next := by
  rcases clientListAppend_eq added with ⟨_, rfl, rfl⟩
  refine Follow.of_single gateway.clients.created rfl ?_ (Nat.le_succ _) ?_ ?_ ?_
  · intro call member
    rw [List.mem_singleton.mp member]
    rfl
  · intro address different old
    exact Nat.succ_le_of_lt (Nat.lt_of_le_of_ne old (Ne.symm different))
  · intro address different
    exact (ClientList.stateAt_push _ _ _).trans (if_neg different)
  · intro phase shows
    have unborn : phase = .unborn := by
      have absent := ClientList.stateAt_of_created_le (le_refl gateway.clients.created)
      cases phase with
      | unborn => rfl
      | gone => exact absurd shows.1 (lt_irrefl _)
      | entering | entered | leaving | left | reset | blocking => exact shows.elim
      | blocked | trusted | preauthenticated | authenticated =>
          rw [Phase.Shows, absent] at shows
          cases shows
    subst unborn
    have state : (gateway.clients.push (gateway.newClient mac ip gateway.drawToken.1)).stateAt
        gateway.clients.created = some (classify gateway.config gateway.marks.toMarks mac) :=
      (ClientList.stateAt_push _ _ _).trans (if_pos rfl)
    have given : (gateway.newClient mac ip gateway.drawToken.1).fwConnectionState =
        classify gateway.config gateway.marks.toMarks mac := rfl
    simp only [List.foldlM_cons, List.foldlM_nil, Phase.next, given]
    rcases classify_cases gateway.config gateway.marks.toMarks mac with
      blocked | trusted | preauthenticated
    · rw [blocked] at state ⊢
      exact ⟨.blocked, by simp, state⟩
    · rw [trusted] at state ⊢
      exact ⟨.trusted, by simp [gateway.marks.blocked_ne_trusted.symm], state⟩
    · rw [preauthenticated] at state ⊢
      have notBlocked : preauthenticatedState ≠ gateway.marks.blocked :=
        gateway.marks.blocked_ne_zero.symm
      have notTrusted : preauthenticatedState ≠ gateway.marks.trusted :=
        gateway.marks.trusted_ne_zero.symm
      exact ⟨.preauthenticated, by simp [notBlocked, notTrusted], state⟩

theorem follow_delete {gateway next : Gateway} {calls : List Call} {node : Node}
    (member : node ∈ gateway.clients.nodes) (marks : next.marks = gateway.marks)
    (clients : next.clients = gateway.clients.delete node.address)
    (about : ∀ call ∈ calls, call.address = node.address)
    (follows : ∀ phase : Phase, phase.Shows gateway node.address →
      calls.foldlM (Phase.next gateway.marks) phase = some .gone) : gateway.Follow calls next := by
  have created : next.clients.created = gateway.clients.created := by simp [clients]
  refine Follow.of_single node.address marks about created.ge ?_ ?_ ?_
  · intro address _ old
    rwa [created]
  · intro address different
    rw [clients, ClientList.stateAt_delete, if_neg different]
  · intro phase shows
    refine ⟨.gone, follows phase shows, ?_, ?_⟩
    · rw [created]
      exact gateway.clients.allocated node member
    · rw [clients, ClientList.stateAt_delete, if_pos rfl]

theorem follow_change {gateway next : Gateway} {calls : List Call} (node : Node)
    (state : BitVec 32) (marks : next.marks = gateway.marks)
    (created : next.clients.created = gateway.clients.created)
    (states : ∀ address, next.clients.stateAt address =
      if address = node.address then some state else gateway.clients.stateAt address)
    (about : ∀ call ∈ calls, call.address = node.address)
    (follows : ∀ phase : Phase, phase.Shows gateway node.address →
      ∃ after, calls.foldlM (Phase.next gateway.marks) phase = some after ∧
        (next.clients.stateAt node.address = some state → after.Shows next node.address)) :
    gateway.Follow calls next := by
  refine Follow.of_single node.address marks about created.ge ?_ ?_ ?_
  · intro address _ old
    rwa [created]
  · intro address different
    rw [states, if_neg different]
  · intro phase shows
    rcases follows phase shows with ⟨after, calls, showsAfter⟩
    exact ⟨after, calls, showsAfter (by rw [states, if_pos rfl])⟩

theorem follow_authChangeState {gateway : Gateway} {node : Node}
    (member : node ∈ gateway.clients.nodes) (newState : BitVec 32) (reason : Option String) :
    gateway.Follow (authChangeStateCalls gateway.marks node newState)
      (gateway.authChangeState node newState reason).2 := by
  have shown := ClientList.stateAt_of_mem member
  have present : (gateway.clients.stateAt node.address).isSome = true := by
    rw [shown]
    rfl
  rcases gateway.authChangeState_cases node newState reason with
    ⟨state, rfl, equal⟩ | ⟨state, rfl, equal⟩ | ⟨state, rfl, equal⟩ | refused
  · have calls : authChangeStateCalls gateway.marks node gateway.marks.authenticated =
        [.iptablesFwAuthenticate node.address, .binauthAction node.address,
          .setState node.address gateway.marks.authenticated] := by
      have changed := preauthenticated_ne_authenticated gateway.marks
      simp only [authChangeStateCalls, state, if_neg changed, if_true]
    have marks := enterAuthenticated_marks gateway node reason
    rw [calls, equal]
    apply follow_change node gateway.marks.authenticated marks
    · rw [enterAuthenticated_clients]
      rfl
    · intro address
      rw [enterAuthenticated_clients]
      exact ClientList.stateAt_modify_of_assigns present address fun _ => rfl
    · simp [Call.address]
    · intro phase shows
      rw [shows.of_preauthenticated (shown.trans (congrArg some state))]
      refine ⟨.authenticated, by simp [Phase.next], ?_⟩
      rw [Phase.Shows, marks]
      exact id
  · have calls : authChangeStateCalls gateway.marks node preauthenticatedState =
        [.iptablesFwDeauthenticate node.address, .binauthAction node.address,
          .clientReset node.address, .setState node.address preauthenticatedState] := by
      have changed := (preauthenticated_ne_authenticated gateway.marks).symm
      simp only [authChangeStateCalls, state, if_neg changed, if_true]
    have clients := leaveAuthenticated_clients gateway node reason
    have unchanged (address : Nat) : (gateway.clients.modify node.address
        (resetFields gateway.clock gateway.drawToken.1)).stateAt address =
          gateway.clients.stateAt address :=
      ClientList.stateAt_modify_of_keeps _ _ _ fun _ => rfl
    rw [calls, equal]
    apply follow_change node preauthenticatedState (leaveAuthenticated_marks gateway node reason)
    · rw [clients]
      rfl
    · intro address
      rw [clients, ← unchanged address]
      exact ClientList.stateAt_modify_of_assigns (by rwa [unchanged]) address fun _ => rfl
    · simp [Call.address]
    · intro phase shows
      rw [shows.of_authenticated (shown.trans (congrArg some state))]
      exact ⟨.preauthenticated, by simp [Phase.next], id⟩
  · have calls : authChangeStateCalls gateway.marks node gateway.marks.blocked =
        [.iptablesFwDeauthenticate node.address, .binauthAction node.address,
          .authClientBlock node.address, .clientListDelete node.address] := by
      have changed := (preauthenticated_ne_authenticated gateway.marks).symm
      have unblocked := gateway.marks.authenticated_ne_blocked
      have nonzero : gateway.marks.blocked ≠ preauthenticatedState := gateway.marks.blocked_ne_zero
      simp only [authChangeStateCalls, state, if_neg changed, if_neg unblocked, if_neg nonzero,
        if_true]
    rw [calls, equal]
    apply follow_delete member (leaveBlocked_marks gateway node reason)
      (leaveBlocked_clients gateway node reason)
    · simp [Call.address]
    · intro phase shows
      rw [shows.of_authenticated (shown.trans (congrArg some state))]
      rfl
  · rw [authChangeStateCalls_of_refused refused, refused]
    exact fun _ phase shows => ⟨phase, rfl, shows⟩

theorem Makes.follow {gateway next : Gateway} {calls : List Call}
    (makes : Makes gateway calls next) : gateway.Follow calls next := by
  cases makes with
  | quiet quiet =>
      rcases quiet.keeps with ⟨marks, created, states⟩
      exact fun address phase shows => ⟨phase, rfl,
        shows.of_same marks (states address) created.ge fun old => created ▸ old⟩
  | append added => exact follow_append added
  | @delete node member state =>
      refine follow_delete member rfl rfl ?_ ?_
      · simp [Call.address]
      · intro phase shows
        rw [shows.of_preauthenticated
          ((ClientList.stateAt_of_mem member).trans (congrArg some state))]
        rfl
  | change newState reason member => exact follow_authChangeState member newState reason

theorem phaseAfter_append (marks : AcceptedMarks) (first second : List Call) (address : Nat)
    (phase : Phase) :
    phaseAfter marks (first ++ second) address phase =
      (phaseAfter marks first address phase).bind (phaseAfter marks second address) := by
  rw [phaseAfter, List.filter_append, List.foldlM_append]
  rfl

theorem Makes.marks {gateway next : Gateway} {calls : List Call}
    (makes : Makes gateway calls next) : next.marks = gateway.marks := by
  cases makes with
  | quiet quiet => exact quiet.keeps.1
  | append added =>
      rcases clientListAppend_eq added with ⟨_, _, rfl⟩
      rfl
  | delete => rfl
  | change newState reason member =>
      have changed : Transitions (.all .counters) gateway _ :=
        authChangeState_transitions member newState reason
      exact changed.follows.marks

theorem Calls.follow {gateway next : Gateway} {calls : List Call} (run : Calls gateway calls next) :
    next.marks = gateway.marks ∧ gateway.Follow calls next := by
  induction run with
  | nil => exact ⟨rfl, fun _ phase shows => ⟨phase, rfl, shows⟩⟩
  | @snoc current next calls more _ makes induction =>
      rcases induction with ⟨marks, follows⟩
      refine ⟨makes.marks.trans marks, fun address phase shows => ?_⟩
      rcases follows address phase shows with ⟨between, first, shown⟩
      rcases makes.follow address between shown with ⟨after, second, shownAfter⟩
      refine ⟨after, ?_, shownAfter⟩
      rw [phaseAfter_append, first, Option.bind_some, ← marks]
      exact second

end Gateway

/-! ## Runs -/

namespace Threads

def Traced (threads : Threads) (entry : ListOperation × List Call) (next : Threads) : Prop :=
  entry.1.Keeps ∧ next = threads.operate entry.1 ∧
    Gateway.Calls threads.gateway entry.2 next.gateway

abbrev TracedRun : Threads → List (ListOperation × List Call) → Threads → Prop :=
  Execution.Run Traced

theorem OperationRun.traced {initial final : Threads} {operations : List ListOperation}
    (run : OperationRun initial operations final)
    (kept : ∀ operation ∈ operations, operation.Keeps) :
    ∃ trace, trace.map Prod.fst = operations ∧ TracedRun initial trace final := by
  induction run with
  | nil => exact ⟨[], rfl, .nil _⟩
  | @cons current middle final operation operations step _ induction =>
      rcases induction fun later member => kept later (List.mem_cons_of_mem _ member) with
        ⟨trace, same, rest⟩
      have first := kept operation List.mem_cons_self
      rcases operate_transitions current first with ⟨permits, transitions⟩
      rcases transitions.calls with ⟨calls, made⟩
      rw [← step] at made
      exact ⟨(operation, calls) :: trace, by rw [List.map_cons, same],
        .cons ⟨first, step, made⟩ rest⟩

theorem TracedRun.follow {initial final : Threads} {trace : List (ListOperation × List Call)}
    (run : TracedRun initial trace final) :
    initial.gateway.Follow (trace.flatMap Prod.snd) final.gateway := by
  induction run with
  | nil => exact fun _ phase shows => ⟨phase, rfl, shows⟩
  | @cons current middle final entry trace step _ induction =>
      intro address phase shows
      rcases step.2.2.follow with ⟨marks, follows⟩
      rcases follows address phase shows with ⟨between, first, shown⟩
      rcases induction address between shown with ⟨after, second, shownAfter⟩
      refine ⟨after, ?_, shownAfter⟩
      rw [List.flatMap_cons, Gateway.phaseAfter_append, first, Option.bind_some, ← marks]
      exact second

end Threads

/-- A change of state that fails changes nothing; and the calls that a run makes
about a client it has created are those of a life, in order, up to the phase
that the list shows. -/
theorem clients_live {initial final : Threads} {operations : List ListOperation}
    (kept : ∀ operation ∈ operations, operation.Keeps)
    (run : Threads.OperationRun initial operations final) :
    (∀ node newState reason,
      (final.gateway.authChangeState node newState reason).1 = -1 →
        (final.gateway.authChangeState node newState reason).2 = final.gateway) ∧
      (∃ trace, trace.map Prod.fst = operations ∧ Threads.TracedRun initial trace final) ∧
      ∀ trace, Threads.TracedRun initial trace final →
        ∀ address, initial.gateway.clients.created ≤ address →
          ∃ phase, phaseAfter initial.gateway.marks (trace.flatMap Prod.snd) address .unborn =
              some phase ∧ phase.Shows final.gateway address := by
  refine ⟨?_, run.traced kept, ?_⟩
  · intro node newState reason failed
    rcases final.gateway.authChangeState_cases node newState reason with
      ⟨_, _, equal⟩ | ⟨_, _, equal⟩ | ⟨_, _, equal⟩ | equal
    · rw [equal] at failed
      cases failed
    · rw [equal] at failed
      cases failed
    · rw [equal] at failed
      cases failed
    · rw [equal]
  · intro trace traced address unborn
    exact traced.follow address .unborn unborn

def addAndAuthenticate : List ListOperation :=
  [.clientListAddClient "00:16:3e:00:00:01" "192.168.42.10", .authChangeState 0 0x30000 none]

theorem clients_live_default :
    let initial := Threads.start defaultGateway
    let final := addAndAuthenticate.foldl Threads.operate initial
    (∀ node newState reason,
      (final.gateway.authChangeState node newState reason).1 = -1 →
        (final.gateway.authChangeState node newState reason).2 = final.gateway) ∧
      (∃ trace, trace.map Prod.fst = addAndAuthenticate ∧
        Threads.TracedRun initial trace final) ∧
      ∀ trace, Threads.TracedRun initial trace final →
        ∀ address, initial.gateway.clients.created ≤ address →
          ∃ phase, phaseAfter initial.gateway.marks (trace.flatMap Prod.snd) address .unborn =
              some phase ∧ phase.Shows final.gateway address := by
  have kept : ∀ operation ∈ addAndAuthenticate, operation.Keeps := by
    intro operation member
    simp only [addAndAuthenticate, List.mem_cons, List.not_mem_nil, or_false] at member
    rcases member with rfl | rfl <;> trivial
  exact clients_live kept ((Execution.run_ofFunction_iff _ _ _ _).mpr rfl)

end Nodogsplash
