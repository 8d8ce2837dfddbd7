import Nodogsplash.EtherAddress
import Nodogsplash.RequestAuthorization

/-! # Sessions that end with a block

`fw_refresh_client_list` ends the sessions of clients while it visits the list.
When it blocks a client in the spelling in which the MAC lists and all later
requests have it, the MAC stays blocked. -/

namespace Nodogsplash

/-! ## The daemon, visit by visit -/

namespace Gateway

/-- One round of the loop of `fw_refresh_client_list`. -/
def refreshVisit (gateway : Gateway) (node : Node) : Gateway :=
  match gateway.clients.findById node.client.id with
  | none => gateway
  | some found => gateway.refreshClient found

theorem fwRefreshClientList_eq (outgoingRead incomingRead : Bool) (gateway : Gateway) :
    fwRefreshClientList outgoingRead incomingRead gateway =
      let counted := iptablesFwCountersUpdate outgoingRead incomingRead gateway
      if counted.1 then counted.2.clients.nodes.foldl refreshVisit counted.2 else counted.2 := rfl

end Gateway

/-- The daemon between two passes over the client list, or in a pass that has
still to visit the elements `ahead`. -/
structure Daemon where
  gateway : Gateway
  ahead : List Node

/-- What happens next: an event, the beginning of a pass or its next visit, or
a command that edits a MAC list. -/
inductive Moment
  | handle (now : Int) (event : Event)
  | beginPass (now : Int) (outgoingRead incomingRead : Bool)
  | visit
  | editMacs (mac : String) (command : MacCommand)

namespace Daemon

/-- A pass holds the lock on the client list, so that events wait for its end;
only the commands that edit MAC lists do without this lock. -/
def take (daemon : Daemon) : Moment → Daemon
  | .handle now event =>
      match daemon.ahead with
      | [] => ⟨daemon.gateway.step (now, event), []⟩
      | _ => daemon
  | .beginPass now outgoingRead incomingRead =>
      match daemon.ahead with
      | [] =>
          let counted := Gateway.iptablesFwCountersUpdate outgoingRead incomingRead
            { daemon.gateway with clock := now }
          ⟨counted.2, if counted.1 then counted.2.clients.nodes else []⟩
      | _ => daemon
  | .visit =>
      match daemon.ahead with
      | [] => daemon
      | node :: ahead => ⟨daemon.gateway.refreshVisit node, ahead⟩
  | .editMacs mac command => ⟨daemon.gateway.editMacs mac command, daemon.ahead⟩

/-- Runs of the daemon, visit by visit. -/
abbrev MomentRun : Daemon → List Moment → Daemon → Prop :=
  Execution.Run (Execution.ofFunction take)

theorem visits (gateway : Gateway) (ahead : List Node) :
    MomentRun ⟨gateway, ahead⟩ (List.replicate ahead.length .visit)
      ⟨ahead.foldl Gateway.refreshVisit gateway, []⟩ := by
  induction ahead generalizing gateway with
  | nil => exact .nil _
  | cons node ahead induction => exact .cons rfl (induction _)

theorem pass (gateway : Gateway) (now : Int) (outgoingRead incomingRead : Bool) :
    ∃ count, MomentRun ⟨gateway, []⟩
      (.beginPass now outgoingRead incomingRead :: List.replicate count .visit)
      ⟨gateway.step (now, .refresh outgoingRead incomingRead), []⟩ := by
  have equal : gateway.step (now, .refresh outgoingRead incomingRead) =
      Gateway.fwRefreshClientList outgoingRead incomingRead { gateway with clock := now } := rfl
  rw [equal, Gateway.fwRefreshClientList_eq]
  have started : Execution.ofFunction take ⟨gateway, []⟩
      (.beginPass now outgoingRead incomingRead) _ := rfl
  simp only [take] at started
  generalize Gateway.iptablesFwCountersUpdate outgoingRead incomingRead
    { gateway with clock := now } = counted at started ⊢
  cases updated : counted.1 with
  | true =>
      simp only [updated, if_true] at started ⊢
      exact ⟨counted.2.clients.nodes.length, .cons started (visits _ _)⟩
  | false =>
      simp only [updated, Bool.false_eq_true, if_false] at started ⊢
      exact ⟨0, .cons started (.nil _)⟩

end Daemon

def Moment.Permitted (permits : Permissions) : Moment → Prop
  | .handle _ event => permits.Permit event
  | .editMacs mac command => permits.edits mac command
  | _ => True

namespace Daemon

variable {permits : Permissions}

theorem take_transitions (daemon : Daemon) {moment : Moment}
    (permitted : moment.Permitted permits) :
    Gateway.Transitions permits daemon.gateway (daemon.take moment).gateway := by
  cases moment with
  | handle now event =>
      simp only [take]
      split
      · exact daemon.gateway.step_transitions permitted
      · exact .refl
  | beginPass now outgoingRead incomingRead =>
      simp only [take]
      split
      · exact .head (.clock _ now) (Gateway.iptablesFwCountersUpdate_transitions _ _ _)
      · exact .refl
  | visit =>
      simp only [take]
      split
      · exact .refl
      · simp only [Gateway.refreshVisit]
        split
        · exact .refl
        · rename_i found
          exact Gateway.refreshClient_transitions _ _ (ClientList.mem_of_findById found).1
  | editMacs mac command => exact .single (.editMacs _ mac command permitted)

theorem MomentRun.transitions {initial final : Daemon} {moments : List Moment}
    (run : MomentRun initial moments final)
    (permitted : ∀ moment ∈ moments, moment.Permitted permits) :
    Gateway.Transitions permits initial.gateway final.gateway := by
  induction run with
  | nil => exact .refl
  | @cons current middle final moment moments step _ induction =>
      rw [step] at induction
      exact (current.take_transitions (permitted moment List.mem_cons_self)).trans
        (induction fun later member => permitted later (List.mem_cons_of_mem _ member))

end Daemon

theorem Moment.permitted_all (moment : Moment) : moment.Permitted (.all .sessions) := by
  cases moment with
  | handle now event => exact Permissions.all_permit event
  | editMacs mac command => exact trivial
  | beginPass | visit => exact trivial

namespace Gateway

/-! ## Valid MAC addresses -/

def ValidMacs (gateway : Gateway) : Prop :=
  ∀ node ∈ gateway.clients.nodes, checkMacFormat node.client.mac = true

theorem ValidMacs.transitions {permits : Permissions} {gateway next : Gateway}
    (valid : gateway.ValidMacs) (transitions : Transitions permits gateway next) :
    next.ValidMacs := by
  induction transitions with
  | refl => exact valid
  | tail _ transition induction =>
      intro node member
      rcases transition.source_of_mem member with ⟨source, inList, _, mac, _⟩ | ⟨valid, _⟩
      · rw [← mac]
        exact induction source inList
      · exact valid

theorem validMacs_of_started {environment : Environment} {gateway : Gateway}
    (started : mainLoop environment = some gateway) : gateway.ValidMacs :=
  fun node member => (validAddresses_of_started started node member).1

/-! ## The end of a session -/

/-- `fw_refresh_client_list` ends the client's session with a block when it
visits it. -/
def EndsWithBlock (gateway : Gateway) (node : Node) : Prop :=
  ∃ reason ∈ ["timeout_deauth_block", "limitout_deauth_block"],
    (gateway.refreshClient node).changes = gateway.changes ++
      [⟨node.address, node.client.mac, gateway.marks.authenticated, gateway.marks.blocked,
        some reason⟩]

theorem refreshClient_cases (gateway : Gateway) (node : Node) :
    (∃ reason, node.client.fwConnectionState = gateway.marks.authenticated ∧
      gateway.refreshClient node = gateway.leaveBlocked node reason) ∨
    (∃ reason, gateway.refreshClient node = gateway.leaveAuthenticated node reason) ∨
    (gateway.refreshClient node).changes = gateway.changes := by
  have blocks (reason : Option String) :
      (node.client.fwConnectionState = gateway.marks.authenticated ∧
        (gateway.authChangeState node gateway.marks.blocked reason).2 =
          gateway.leaveBlocked node reason) ∨
      (gateway.authChangeState node gateway.marks.blocked reason).2 = gateway := by
    rcases gateway.authChangeState_cases node gateway.marks.blocked reason with
      ⟨_, target, _⟩ | ⟨_, target, _⟩ | ⟨state, _, equal⟩ | equal
    · exact absurd target.symm gateway.marks.authenticated_ne_blocked
    · exact absurd target gateway.marks.blocked_ne_zero
    · exact .inl ⟨state, by rw [equal]⟩
    · exact .inr (by rw [equal])
  have deauthenticates (reason : Option String) :
      (gateway.authChangeState node preauthenticatedState reason).2 =
          gateway.leaveAuthenticated node reason ∨
      (gateway.authChangeState node preauthenticatedState reason).2 = gateway := by
    rcases gateway.authChangeState_cases node preauthenticatedState reason with
      ⟨_, target, _⟩ | ⟨_, _, equal⟩ | ⟨_, target, _⟩ | equal
    · exact absurd target.symm gateway.marks.authenticated_ne_zero
    · exact .inl (by rw [equal])
    · exact absurd target.symm gateway.marks.blocked_ne_zero
    · exact .inr (by rw [equal])
  simp only [refreshClient]
  split
  · split
    · rcases blocks (some "timeout_deauth_block") with ⟨state, equal⟩ | equal
      · exact .inl ⟨_, state, equal⟩
      · exact .inr (.inr (by rw [equal]))
    · rcases deauthenticates (some "timeout_deauth") with equal | equal
      · exact .inr (.inl ⟨_, equal⟩)
      · exact .inr (.inr (by rw [equal]))
  · split
    · rcases blocks (some "limitout_deauth_block") with ⟨state, equal⟩ | equal
      · exact .inl ⟨_, state, equal⟩
      · exact .inr (.inr (by rw [equal]))
    · split
      · exact .inr (.inr rfl)
      · split
        · rcases deauthenticates (some "idle_deauth") with equal | equal
          · exact .inr (.inl ⟨_, equal⟩)
          · exact .inr (.inr (by rw [equal]))
        · exact .inr (.inr rfl)

theorem EndsWithBlock.equal {gateway : Gateway} {node : Node} (ended : gateway.EndsWithBlock node) :
    ∃ reason, node.client.fwConnectionState = gateway.marks.authenticated ∧
      gateway.refreshClient node = gateway.leaveBlocked node reason := by
  rcases ended with ⟨reason, _, changes⟩
  rcases gateway.refreshClient_cases node with blocked | ⟨other, equal⟩ | unchanged
  · exact blocked
  · rw [equal, leaveAuthenticated_changes] at changes
    have target := congrArg Change.newState
      (List.singleton_inj.mp (List.append_cancel_left changes))
    exact absurd target.symm gateway.marks.blocked_ne_zero
  · rw [unchanged] at changes
    simp at changes

/-! ## What keeps a MAC address blocked -/

/-- The condition under which a block that ends a session takes hold: the lists
block MAC addresses, this one has a single spelling, and the client is the only
one with it that is not blocked or trusted. -/
structure BlockTakesHold (gateway : Gateway) (node : Node) : Prop where
  mechanism : gateway.config.macmechanism = .block
  spelled : scanMac node.client.mac = node.client.mac
  listed : ∀ mac ∈ gateway.config.blockedmaclist, sameIgnoringCase mac node.client.mac = true →
    mac = node.client.mac
  alone : ∀ other ∈ gateway.clients.nodes, other.address ≠ node.address →
    SameAddress other.client.mac node.client.mac →
      other.client.fwConnectionState ≠ preauthenticatedState ∧
        other.client.fwConnectionState ≠ gateway.marks.authenticated

/-- The MAC is on the blocked list in this spelling, its clients cannot become
authenticated, and those added since are blocked. -/
structure StaysBlocked (mac : String) (created : Nat) (gateway : Gateway) : Prop where
  mechanism : gateway.config.macmechanism = .block
  listed : mac ∈ gateway.config.blockedmaclist
  allocated : created ≤ gateway.clients.created
  clients : ∀ node ∈ gateway.clients.nodes, SameAddress node.client.mac mac →
    node.client.fwConnectionState ≠ preauthenticatedState ∧
      node.client.fwConnectionState ≠ gateway.marks.authenticated ∧
      (created ≤ node.address → node.client.fwConnectionState = gateway.marks.blocked)

def sparing (mac : String) : Permissions where
  assigns := .sessions
  adds other := SameAddress other mac → other = mac
  edits other command := command = .unblock → ¬ SameAddress other mac

theorem mem_addToBlockedMacList {config : Config} {mac : String} (text : String)
    (listed : mac ∈ config.blockedmaclist) :
    mac ∈ (config.addToBlockedMacList text).2.blockedmaclist := by
  rcases addToMacList_cases (-1) (by decide) (config.macmechanism = .block)
    config.blockedmaclist text with ⟨equal, _⟩ | ⟨_, equal⟩
  · simp only [Config.addToBlockedMacList, equal]
    exact List.mem_cons_of_mem _ listed
  · simp only [Config.addToBlockedMacList, equal]
    exact listed

theorem mem_removeFromBlockedMacList {config : Config} {mac text : String}
    (other : ¬ SameAddress text mac) (listed : mac ∈ config.blockedmaclist) :
    mac ∈ (config.removeFromBlockedMacList text).2.blockedmaclist := by
  rcases removeFromMacList_cases (config.macmechanism = .block)
    config.blockedmaclist text with ⟨equal, _, valid, _⟩ | ⟨_, equal⟩
  · simp only [Config.removeFromBlockedMacList, equal]
    apply (List.mem_eraseP_of_neg ?_).mpr listed
    intro same
    have address : etherAton mac = etherAton (scanMac text) :=
      SameAddress.of_sameIgnoringCase same
    exact other ((sameAddress_scanMac valid).symm.trans address.symm)
  · simp only [Config.removeFromBlockedMacList, equal]
    exact listed

theorem mem_editMacs {gateway : Gateway} {mac text : String} {command : MacCommand}
    (permitted : (sparing mac).edits text command)
    (listed : mac ∈ gateway.config.blockedmaclist) :
    mac ∈ (gateway.editMacs text command).config.blockedmaclist := by
  cases command with
  | trust | untrust | allow | unallow => exact listed
  | block => exact mem_addToBlockedMacList text listed
  | unblock => exact mem_removeFromBlockedMacList (permitted rfl) listed

namespace StaysBlocked

variable {mac : String} {created : Nat} {gateway : Gateway}

theorem keeps {next : Gateway} (stays : StaysBlocked mac created gateway)
    (follows : gateway.Follows next) (listed : mac ∈ next.config.blockedmaclist)
    (allocated : gateway.clients.created ≤ next.clients.created)
    (clients : ∀ node ∈ next.clients.nodes, SameAddress node.client.mac mac →
      node.client.fwConnectionState = gateway.marks.blocked ∨
      ∃ source ∈ gateway.clients.nodes, source.address = node.address ∧
        source.client.mac = node.client.mac ∧
        source.client.fwConnectionState = node.client.fwConnectionState) :
    StaysBlocked mac created next where
  mechanism := by
    rw [follows.settings.macmechanism]
    exact stays.mechanism
  listed := listed
  allocated := Nat.le_trans stays.allocated allocated
  clients := by
    intro node member same
    rw [follows.marks]
    rcases clients node member same with blocked | ⟨source, inList, address, macEqual, state⟩
    · rw [blocked]
      exact ⟨gateway.marks.blocked_ne_zero, Ne.symm gateway.marks.authenticated_ne_blocked,
        fun _ => rfl⟩
    · rw [← state, ← address]
      exact stays.clients source inList (macEqual ▸ same)

theorem other_of_state (stays : StaysBlocked mac created gateway) {node : Node}
    (member : node ∈ gateway.clients.nodes)
    (state : node.client.fwConnectionState = preauthenticatedState ∨
      node.client.fwConnectionState = gateway.marks.authenticated) :
    ¬ SameAddress node.client.mac mac := by
  intro same
  rcases state with fresh | authenticated
  · exact (stays.clients node member same).1 fresh
  · exact (stays.clients node member same).2.1 authenticated

/-- After an assignment to one client the others have the states they had, and
so has this one if it has the MAC. -/
theorem source_of_modify {list : ClientList} {address : Nat} {change : Client → Client}
    (kept : ∀ client, (change client).mac = client.mac)
    (state : ∀ node ∈ list.nodes, node.address = address → SameAddress node.client.mac mac →
      (change node.client).fwConnectionState = node.client.fwConnectionState)
    {node : Node} (member : node ∈ (list.modify address change).nodes)
    (same : SameAddress node.client.mac mac) :
    ∃ source ∈ list.nodes, source.address = node.address ∧
      source.client.mac = node.client.mac ∧
      source.client.fwConnectionState = node.client.fwConnectionState := by
  rcases ClientList.mem_modify.mp member with ⟨source, inList, here, rfl⟩ | ⟨inList, _⟩
  · refine ⟨source, inList, rfl, (kept _).symm, (state source inList here ?_).symm⟩
    rwa [kept] at same
  · exact ⟨node, inList, rfl, rfl, rfl⟩

theorem transition {next : Gateway} (stays : StaysBlocked mac created gateway)
    (transition : Transition (sparing mac) gateway next) : StaysBlocked mac created next := by
  have follows := transition.follows
  cases transition with
  | clock | authentications | bytes =>
      exact stays.keeps follows stays.listed (Nat.le_refl _) fun node member _ =>
        .inr ⟨node, member, rfl, rfl, rfl⟩
  | @add _ other ip node _ _ _ added permitted =>
      rcases clientListAppend_eq added with ⟨_, _, rfl⟩
      refine stays.keeps follows stays.listed (Nat.le_succ _) ?_
      intro node member same
      rcases ClientList.mem_push.mp member with old | rfl
      · exact .inr ⟨node, old, rfl, rfl, rfl⟩
      · left
        have equal : other = mac := permitted same
        have listed : gateway.config.isBlockedMac other = true := by
          simp [Config.isBlockedMac, stays.mechanism, equal, stays.listed]
        simp [newClient, resetFields, classify, listed]
  | @delete node _ _ =>
      refine stays.keeps follows stays.listed ?_ fun node member _ =>
        .inr ⟨node, ClientList.mem_of_mem_delete member, rfl, rfl, rfl⟩
      simp [clientListDelete]
  | count raise =>
      exact stays.keeps follows stays.listed (Nat.le_refl _) fun node member same =>
        .inr (source_of_modify (by intro; rfl) (by intros; rfl) member same)
  | assign keeps =>
      exact stays.keeps follows stays.listed (Nat.le_refl _) fun node member same =>
        .inr (source_of_modify keeps.mac (fun node _ _ _ => keeps.state node.client) member same)
  | @authenticate node reason inList state =>
      have other := stays.other_of_state inList (.inl state)
      refine stays.keeps follows ?_ ?_ fun changed member same => .inr ?_
      · rw [enterAuthenticated_config]
        exact stays.listed
      · rw [enterAuthenticated_clients]
        exact Nat.le_refl _
      · rw [enterAuthenticated_clients] at member
        refine source_of_modify (by intro; rfl) ?_ member same
        intro source sourceMember here sameSource
        rw [ClientList.eq_of_address sourceMember inList here] at sameSource
        exact absurd sameSource other
  | @deauthenticate node reason inList state =>
      have other := stays.other_of_state inList (.inr state)
      refine stays.keeps follows ?_ ?_ fun changed member same => .inr ?_
      · rw [leaveAuthenticated_config]
        exact stays.listed
      · rw [leaveAuthenticated_clients]
        exact Nat.le_refl _
      · rw [leaveAuthenticated_clients] at member
        have reset {middle : Node} (inMiddle : middle ∈ (gateway.clients.modify node.address
            (resetFields gateway.clock gateway.drawToken.1)).nodes)
            (sameMiddle : SameAddress middle.client.mac mac) :=
          source_of_modify (by intro; rfl) (by intros; rfl) inMiddle sameMiddle
        have middle := source_of_modify (by intro; rfl) ?_ member same
        · rcases middle with ⟨middle, inMiddle, address, macEqual, stateEqual⟩
          rcases reset inMiddle (macEqual ▸ same) with
            ⟨source, sourceMember, sourceAddress, sourceMac, sourceState⟩
          exact ⟨source, sourceMember, sourceAddress.trans address, sourceMac.trans macEqual,
            sourceState.trans stateEqual⟩
        · intro middle inMiddle here sameMiddle
          rcases reset inMiddle sameMiddle with ⟨source, sourceMember, sourceAddress, macEqual, _⟩
          rw [← macEqual, ClientList.eq_of_address sourceMember inList (sourceAddress.trans here)]
            at sameMiddle
          exact absurd sameMiddle other
  | @block node reason inList state =>
      refine stays.keeps follows ?_ ?_ fun changed member same => .inr ?_
      · rw [leaveBlocked_config]
        exact mem_addToBlockedMacList _ stays.listed
      · rw [leaveBlocked_clients]
        simp
      · rw [leaveBlocked_clients] at member
        exact ⟨changed, ClientList.mem_of_mem_delete member, rfl, rfl, rfl⟩
  | editMacs text command permitted =>
      refine stays.keeps follows (mem_editMacs permitted stays.listed) ?_
        fun node member _ => .inr ?_
      · rw [editMacs_clients]
      · rw [editMacs_clients] at member
        exact ⟨node, member, rfl, rfl, rfl⟩

theorem transitions {next : Gateway} (stays : StaysBlocked mac created gateway)
    (transitions : Transitions (sparing mac) gateway next) : StaysBlocked mac created next := by
  induction transitions with
  | refl => exact stays
  | tail _ transition induction => exact induction.transition transition

end StaysBlocked

theorem BlockTakesHold.listed_leaveBlocked {gateway : Gateway} {node : Node}
    (holds : gateway.BlockTakesHold node) (valid : checkMacFormat node.client.mac = true)
    (reason : Option String) :
    node.client.mac ∈ (gateway.leaveBlocked node reason).config.blockedmaclist := by
  rw [leaveBlocked_config]
  by_cases present : gateway.config.blockedmaclist.any
      (sameIgnoringCase · (scanMac node.client.mac)) = true
  · rcases List.any_eq_true.mp present with ⟨mac, inList, same⟩
    rw [holds.spelled] at same
    have equal := holds.listed mac inList same
    exact mem_addToBlockedMacList _ (equal ▸ inList)
  · have fresh := Bool.eq_false_iff.mpr present
    simp only [Config.addToBlockedMacList, addToMacList, valid, holds.mechanism, fresh]
    simp [holds.spelled]

theorem BlockTakesHold.staysBlocked {gateway : Gateway} {node : Node}
    (holds : gateway.BlockTakesHold node) (valid : checkMacFormat node.client.mac = true)
    (reason : Option String) :
    StaysBlocked node.client.mac gateway.clients.created (gateway.leaveBlocked node reason) where
  mechanism := by
    rw [(leaveBlocked_follows gateway node reason).settings.macmechanism]
    exact holds.mechanism
  listed := holds.listed_leaveBlocked valid reason
  allocated := by
    rw [leaveBlocked_clients]
    simp
  clients := by
    intro other inList same
    rw [leaveBlocked_clients] at inList
    rcases ClientList.mem_delete_iff.mp inList with ⟨before, different⟩
    have states := holds.alone other before different same
    have allocated := gateway.clients.allocated other before
    rw [leaveBlocked_marks]
    exact ⟨states.1, states.2, fun new => absurd allocated (Nat.not_lt.mpr new)⟩

end Gateway

/-! ## Blocked sessions -/

/-- The moment is a command `unblock` for the MAC. -/
def Moment.Unblocks (mac : String) : Moment → Prop
  | .handle _ (.ndsctl _ _ (.unblock text)) => SameAddress text mac
  | .editMacs text .unblock => SameAddress text mac
  | _ => False

/-- If the moment is a request from the MAC, it has the same spelling. -/
def Moment.Spells (mac : String) : Moment → Prop
  | .handle _ (.request request) =>
      ∀ other, request.mac = some other → SameAddress other mac → other = mac
  | _ => True

theorem Moment.permitted_sparing {mac : String} {moment : Moment} (kept : ¬ moment.Unblocks mac)
    (spelled : moment.Spells mac) : moment.Permitted (Gateway.sparing mac) := by
  cases moment with
  | handle now event =>
      cases event with
      | request request => exact ⟨rfl, spelled⟩
      | ndsctl outgoingRead incomingRead command =>
          intro text edit equal unblock same
          subst unblock
          cases command <;> simp only [NdsctlCommand.edit, Option.some.injEq, Prod.mk.injEq,
            reduceCtorEq, and_false, and_true] at equal
          subst equal
          exact kept same
      | refresh | deauthAll | traffic => exact trivial
  | beginPass | visit => exact trivial
  | editMacs text command =>
      intro unblock same
      subst unblock
      exact kept same

/-- Once `fw_refresh_client_list` has ended a session with a block that takes
hold, no client with its MAC is authenticated and those added later are
blocked, until the MAC is unblocked. -/
theorem blocked_sessions_stay_blocked {environment : Environment} {initial : Gateway}
    {current final : Daemon} {moments later : List Moment} {visited node : Node}
    {ahead : List Node} (started : mainLoop environment = some initial)
    (run : Daemon.MomentRun ⟨initial, []⟩ moments current)
    (visit : current.ahead = visited :: ahead)
    (found : current.gateway.clients.findById visited.client.id = some node)
    (ended : current.gateway.EndsWithBlock node) (holds : current.gateway.BlockTakesHold node)
    (after : Daemon.MomentRun (current.take .visit) later final)
    (kept : ∀ moment ∈ later, ¬ moment.Unblocks node.client.mac)
    (spelled : ∀ moment ∈ later, moment.Spells node.client.mac) :
    ∀ other ∈ final.gateway.clients.nodes, SameAddress other.client.mac node.client.mac →
      other.client.fwConnectionState ≠ final.gateway.marks.authenticated ∧
        (current.gateway.clients.created ≤ other.address →
          other.client.fwConnectionState = final.gateway.marks.blocked) := by
  have member := (ClientList.mem_of_findById found).1
  have valid : checkMacFormat node.client.mac = true :=
    (Gateway.validMacs_of_started started).transitions
      (run.transitions fun moment _ => moment.permitted_all) node member
  rcases ended.equal with ⟨reason, _, equal⟩
  have visitedGateway :
      (current.take .visit).gateway = current.gateway.leaveBlocked node reason := by
    simp only [Daemon.take, visit, Gateway.refreshVisit, found, equal]
  have start := holds.staysBlocked valid reason
  rw [← visitedGateway] at start
  have stays := start.transitions (after.transitions fun moment inLater =>
    Moment.permitted_sparing (kept moment inLater) (spelled moment inLater))
  intro other inFinal same
  exact (stays.clients other inFinal same).2

def blockingEnvironment : Environment :=
  { defaultEnvironment with
    config := { defaultConfig with sessionTimeout := 60, sessionTimeoutBlock := 1 } }

theorem initialGateway_blocking : (initialGateway blockingEnvironment).isSome = true := by
  decide +kernel

def blockingGateway : Gateway := (initialGateway blockingEnvironment).get initialGateway_blocking

theorem mainLoop_blockingGateway : mainLoop blockingEnvironment = some blockingGateway := by
  have started : initialGateway blockingEnvironment = some blockingGateway :=
    Option.some_get initialGateway_blocking |>.symm
  rw [mainLoop, started]
  rfl

/-- The client that has been authenticated for an hour. -/
def hourClient : Node :=
  ⟨0, { defaultClient 1 "00:16:3e:00:00:01" "192.168.42.10" with
    token := "00000001", fwConnectionState := 0x30000, sessionStart := 1000, sessionEnd := 4600 }⟩

/-- A client authenticates with its token; an hour later, after some commands, a
pass begins. -/
def hourMoments (commands : List NdsctlCommand) : List Moment :=
  [.handle 1000 (.request (defaultRequest "/" fun _ => none)),
    .handle 1000 (.request (tokenRequest ⟨.exited 0, ""⟩))] ++
  commands.map (fun command => .handle 2000 (.ndsctl true true command)) ++
  [.beginPass 4600 true true]

def hourPass (commands : List NdsctlCommand) : Daemon :=
  (hourMoments commands).foldl Daemon.take ⟨blockingGateway, []⟩

/-- The client comes back and the administrator wants to authenticate it. -/
def comeBack : List Moment :=
  [.handle 4700 (.request (defaultRequest "/" fun _ => none)),
    .handle 4800 (.ndsctl true true (.auth "192.168.42.10"))]

theorem comeBack_not_unblocks : ∀ moment ∈ comeBack, ¬ moment.Unblocks "00:16:3e:00:00:01" := by
  simp [comeBack, Moment.Unblocks]

theorem comeBack_spells : ∀ moment ∈ comeBack, moment.Spells "00:16:3e:00:00:01" := by
  have spelling : ∀ other, (defaultRequest "/" fun _ => none).mac = some other →
      SameAddress other "00:16:3e:00:00:01" → other = "00:16:3e:00:00:01" := by
    intro other equal _
    have mac : (defaultRequest "/" fun _ => none).mac = some "00:16:3e:00:00:01" := by
      decide +kernel
    exact (Option.some.inj (mac.symm.trans equal)).symm
  intro moment member
  rcases List.mem_pair.mp member with rfl | rfl
  · exact spelling
  · exact trivial

theorem blocked_sessions_stay_blocked_hour :
    let current := hourPass []
    let final := comeBack.foldl Daemon.take (current.take .visit)
    ∀ other ∈ final.gateway.clients.nodes, SameAddress other.client.mac hourClient.client.mac →
      other.client.fwConnectionState ≠ final.gateway.marks.authenticated ∧
        (current.gateway.clients.created ≤ other.address →
          other.client.fwConnectionState = final.gateway.marks.blocked) := by
  have run : Daemon.MomentRun ⟨blockingGateway, []⟩ _ (hourPass []) :=
    (Execution.run_ofFunction_iff _ _ _ _).mpr rfl
  have after : Daemon.MomentRun ((hourPass []).take .visit) comeBack _ :=
    (Execution.run_ofFunction_iff _ _ _ _).mpr rfl
  have holds : (hourPass []).gateway.BlockTakesHold hourClient := by
    refine ⟨by decide +kernel, by decide +kernel, ?_, ?_⟩
    · have empty : (hourPass []).gateway.config.blockedmaclist = [] := by decide +kernel
      simp [empty]
    · have single : (hourPass []).gateway.clients.nodes = [hourClient] := by decide +kernel
      intro other member different
      rw [single, List.mem_singleton] at member
      exact absurd (congrArg Node.address member) different
  have ahead : (hourPass []).ahead = [hourClient] := by decide +kernel
  exact blocked_sessions_stay_blocked mainLoop_blockingGateway run ahead (by decide +kernel)
    ⟨"timeout_deauth_block", by simp, by decide +kernel⟩ holds after comeBack_not_unblocks
    comeBack_spells

/-- A MAC that was put on the list in capitals before does not stay blocked: the
block at the end of the session finds it on the list, the client that comes back
does not. -/
theorem blocked_session_comes_back :
    let current := hourPass [.block "00:16:3E:00:00:01"]
    ∃ moments final, Daemon.MomentRun ⟨blockingGateway, []⟩ moments current ∧
      current.ahead = [hourClient] ∧
      current.gateway.clients.findById hourClient.client.id = some hourClient ∧
      current.gateway.EndsWithBlock hourClient ∧
      Daemon.MomentRun (current.take .visit) comeBack final ∧
      (∀ moment ∈ comeBack, ¬ moment.Unblocks hourClient.client.mac) ∧
      ∃ other ∈ final.gateway.clients.nodes, other.client.mac = hourClient.client.mac ∧
        current.gateway.clients.created ≤ other.address ∧
        other.client.fwConnectionState = final.gateway.marks.authenticated := by
  refine ⟨_, _, (Execution.run_ofFunction_iff _ _ _ _).mpr rfl, by decide +kernel,
    by decide +kernel, ⟨"timeout_deauth_block", by simp, by decide +kernel⟩,
    (Execution.run_ofFunction_iff _ _ _ _).mpr rfl, comeBack_not_unblocks, ?_⟩
  decide +kernel

end Nodogsplash
