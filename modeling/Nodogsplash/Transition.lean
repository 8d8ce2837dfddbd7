import Mathlib.Logic.Relation
import Nodogsplash.Daemon

/-! # What an event can do

Every event of the daemon and every step of the import is a sequence of a few
kinds of transitions. An invariant that each of them preserves holds in every
state the daemon reaches. -/

namespace Nodogsplash

open Relation (ReflTransGen)

/-- The commands that edit a MAC list. -/
inductive MacCommand
  | trust
  | untrust
  | allow
  | unallow
  | block
  | unblock
  deriving DecidableEq

/-- What transitions may assign to clients besides their counters: nothing, the
values of a session, or what the state file says. -/
inductive Assigns
  | counters
  | sessions
  | identities
  deriving DecidableEq

/-- What transitions are permitted to assign, the MAC addresses of the clients
they may add, and the commands by which they may edit the MAC lists. -/
structure Permissions where
  assigns : Assigns
  adds : String → Prop
  edits : String → MacCommand → Prop

def Permissions.all (assigns : Assigns) : Permissions :=
  ⟨assigns, fun _ => True, fun _ _ => True⟩

namespace Gateway

def editMacs (gateway : Gateway) (mac : String) : MacCommand → Gateway
  | .trust => (gateway.authClientTrust mac).2
  | .untrust => (gateway.authClientUntrust mac).2
  | .allow => (gateway.authClientAllow mac).2
  | .unallow => (gateway.authClientUnallow mac).2
  | .block => (gateway.authClientBlock mac).2
  | .unblock => (gateway.authClientUnblock mac).2

/-- An assignment that leaves the state, the MAC and the IP address alone. -/
structure KeepsState (change : Client → Client) : Prop where
  state : ∀ client, (change client).fwConnectionState = client.fwConnectionState
  mac : ∀ client, (change client).mac = client.mac
  ip : ∀ client, (change client).ip = client.ip

inductive Transition (permits : Permissions) : Gateway → Gateway → Prop
  | clock (gateway : Gateway) (now : Int) :
      Transition permits gateway { gateway with clock := now }
  | authentications (gateway : Gateway) (count : Nat) :
      Transition permits gateway { gateway with authenticatedSinceStart := count }
  | bytes (gateway : Gateway) (table : Table) (chain : Chain) (number bytes : Nat) :
      Transition permits gateway (gateway.countBytes table chain number bytes)
  | add {gateway next : Gateway} {mac ip : String} {node : Node}
      (validMac : checkMacFormat mac = true) (validIp : checkIpFormat ip = true)
      (absent : gateway.clients.find mac ip = none)
      (added : gateway.clientListAppend mac ip = (some node, next)) (permitted : permits.adds mac) :
      Transition permits gateway next
  | delete {gateway : Gateway} {node : Node} (member : node ∈ gateway.clients.nodes)
      (state : node.client.fwConnectionState = preauthenticatedState) :
      Transition permits gateway (gateway.clientListDelete node.address)
  | count {gateway : Gateway} {address : Nat} (raise : Counters → Counters) :
      Transition permits gateway
        (gateway.modifyClient address fun client =>
          { client with counters := raise client.counters })
  | assign {gateway : Gateway} {address : Nat} {change : Client → Client}
      (keeps : KeepsState change) (allowed : permits.assigns ≠ .counters)
      (keepsId : permits.assigns = .sessions → ∀ client, (change client).id = client.id) :
      Transition permits gateway (gateway.modifyClient address change)
  | authenticate {gateway : Gateway} {node : Node} (reason : Option String)
      (member : node ∈ gateway.clients.nodes)
      (state : node.client.fwConnectionState = preauthenticatedState) :
      Transition permits gateway (gateway.enterAuthenticated node reason)
  | deauthenticate {gateway : Gateway} {node : Node} (reason : Option String)
      (member : node ∈ gateway.clients.nodes)
      (state : node.client.fwConnectionState = gateway.marks.authenticated) :
      Transition permits gateway (gateway.leaveAuthenticated node reason)
  | block {gateway : Gateway} {node : Node} (reason : Option String)
      (member : node ∈ gateway.clients.nodes)
      (state : node.client.fwConnectionState = gateway.marks.authenticated) :
      Transition permits gateway (gateway.leaveBlocked node reason)
  | editMacs (gateway : Gateway) (mac : String) (command : MacCommand)
      (permitted : permits.edits mac command) :
      Transition permits gateway (gateway.editMacs mac command)

/-- Zero or more transitions. -/
abbrev Transitions (permits : Permissions) : Gateway → Gateway → Prop :=
  ReflTransGen (Transition permits)

/-- The transitions that write no counter but in `client_reset`. -/
inductive Action (permits : Permissions) : Gateway → Gateway → Prop
  | clock (gateway : Gateway) (now : Int) : Action permits gateway { gateway with clock := now }
  | authentications (gateway : Gateway) (count : Nat) :
      Action permits gateway { gateway with authenticatedSinceStart := count }
  | bytes (gateway : Gateway) (table : Table) (chain : Chain) (number bytes : Nat) :
      Action permits gateway (gateway.countBytes table chain number bytes)
  | add {gateway next : Gateway} {mac ip : String} {node : Node}
      (validMac : checkMacFormat mac = true) (validIp : checkIpFormat ip = true)
      (absent : gateway.clients.find mac ip = none)
      (added : gateway.clientListAppend mac ip = (some node, next)) (permitted : permits.adds mac) :
      Action permits gateway next
  | delete {gateway : Gateway} {node : Node} (member : node ∈ gateway.clients.nodes)
      (state : node.client.fwConnectionState = preauthenticatedState) :
      Action permits gateway (gateway.clientListDelete node.address)
  | limits (gateway : Gateway) (address : Nat) (now : Int) (limits : SessionLimits)
      (allowed : permits.assigns ≠ .counters) :
      Action permits gateway (gateway.modifyClient address (sessionFields now limits))
  | authenticate {gateway : Gateway} {node : Node} (reason : Option String)
      (member : node ∈ gateway.clients.nodes)
      (state : node.client.fwConnectionState = preauthenticatedState) :
      Action permits gateway (gateway.enterAuthenticated node reason)
  | deauthenticate {gateway : Gateway} {node : Node} (reason : Option String)
      (member : node ∈ gateway.clients.nodes)
      (state : node.client.fwConnectionState = gateway.marks.authenticated) :
      Action permits gateway (gateway.leaveAuthenticated node reason)
  | block {gateway : Gateway} {node : Node} (reason : Option String)
      (member : node ∈ gateway.clients.nodes)
      (state : node.client.fwConnectionState = gateway.marks.authenticated) :
      Action permits gateway (gateway.leaveBlocked node reason)
  | editMacs (gateway : Gateway) (mac : String) (command : MacCommand)
      (permitted : permits.edits mac command) :
      Action permits gateway (gateway.editMacs mac command)

abbrev Actions (permits : Permissions) : Gateway → Gateway → Prop :=
  ReflTransGen (Action permits)

theorem sessionFields_keeps (now : Int) (limits : SessionLimits) :
    KeepsState (sessionFields now limits) :=
  ⟨fun _ => rfl, fun _ => rfl, fun _ => rfl⟩

theorem Action.transition {permits : Permissions} {gateway next : Gateway}
    (action : Action permits gateway next) : Transition permits gateway next := by
  cases action with
  | clock now => exact .clock _ now
  | authentications count => exact .authentications _ count
  | bytes table chain number bytes => exact .bytes _ table chain number bytes
  | add validMac validIp absent added permitted =>
      exact .add validMac validIp absent added permitted
  | delete member state => exact .delete member state
  | limits address now limits allowed =>
      exact .assign (sessionFields_keeps now limits) allowed fun _ _ => rfl
  | authenticate reason member state => exact .authenticate reason member state
  | deauthenticate reason member state => exact .deauthenticate reason member state
  | block reason member state => exact .block reason member state
  | editMacs mac command permitted => exact .editMacs _ mac command permitted

theorem Actions.transitions {permits : Permissions} {gateway next : Gateway}
    (actions : Actions permits gateway next) : Transitions permits gateway next :=
  ReflTransGen.mono (fun _ _ action => action.transition) _ _ actions

/-! ## Functions that are transitions -/

variable {permits : Permissions}

theorem authChangeState_cases (gateway : Gateway) (node : Node) (newState : BitVec 32)
    (reason : Option String) :
    (node.client.fwConnectionState = preauthenticatedState ∧
        newState = gateway.marks.authenticated ∧
        gateway.authChangeState node newState reason =
          (0, gateway.enterAuthenticated node reason)) ∨
    (node.client.fwConnectionState = gateway.marks.authenticated ∧
        newState = preauthenticatedState ∧
        gateway.authChangeState node newState reason =
          (0, gateway.leaveAuthenticated node reason)) ∨
    (node.client.fwConnectionState = gateway.marks.authenticated ∧
        newState = gateway.marks.blocked ∧
        gateway.authChangeState node newState reason =
          (0, gateway.leaveBlocked node reason)) ∨
    gateway.authChangeState node newState reason = (-1, gateway) := by
  rw [authChangeState]
  by_cases unchanged : node.client.fwConnectionState = newState
  · simp [unchanged]
  · simp only [if_neg unchanged]
    by_cases fresh : node.client.fwConnectionState = preauthenticatedState
    · simp only [if_pos fresh]
      by_cases target : newState = gateway.marks.authenticated
      · simp [fresh, target]
      · simp [target]
    · simp only [if_neg fresh]
      by_cases authenticated : node.client.fwConnectionState = gateway.marks.authenticated
      · simp only [if_pos authenticated]
        by_cases target : newState = preauthenticatedState
        · simp [authenticated, target]
        · simp only [if_neg target]
          by_cases blocked : newState = gateway.marks.blocked
          · simp [authenticated, blocked]
          · simp [blocked]
      · simp [authenticated]

theorem authChangeState_of_preauthenticated (gateway : Gateway) {node : Node}
    (reason : Option String) (state : node.client.fwConnectionState = preauthenticatedState) :
    gateway.authChangeState node gateway.marks.authenticated reason =
      (0, gateway.enterAuthenticated node reason) := by
  have different := preauthenticated_ne_authenticated gateway.marks
  simp only [authChangeState, state, if_neg different, if_true]

theorem authChangeState_of_authenticated (gateway : Gateway) {node : Node}
    (reason : Option String) (state : node.client.fwConnectionState = gateway.marks.authenticated) :
    gateway.authChangeState node preauthenticatedState reason =
      (0, gateway.leaveAuthenticated node reason) := by
  have different := (preauthenticated_ne_authenticated gateway.marks).symm
  simp only [authChangeState, state, if_neg different, if_true]

theorem authChangeState_of_blocking (gateway : Gateway) {node : Node}
    (reason : Option String) (state : node.client.fwConnectionState = gateway.marks.authenticated) :
    gateway.authChangeState node gateway.marks.blocked reason =
      (0, gateway.leaveBlocked node reason) := by
  have different := (preauthenticated_ne_authenticated gateway.marks).symm
  have unblocked := gateway.marks.authenticated_ne_blocked
  have nonzero : gateway.marks.blocked ≠ preauthenticatedState := gateway.marks.blocked_ne_zero
  simp only [authChangeState, state, if_neg different, if_neg unblocked, if_neg nonzero, if_true]

theorem authChangeState_of_ne (gateway : Gateway) {node : Node} {newState : BitVec 32}
    (reason : Option String) (state : node.client.fwConnectionState ≠ gateway.marks.authenticated)
    (target : newState ≠ gateway.marks.authenticated) :
    gateway.authChangeState node newState reason = (-1, gateway) := by
  rcases gateway.authChangeState_cases node newState reason with
    ⟨_, equal, _⟩ | ⟨held, _⟩ | ⟨held, _⟩ | refused
  · exact absurd equal target
  · exact absurd held state
  · exact absurd held state
  · exact refused

theorem authChangeState_refused (gateway : Gateway) {node : Node} (newState : BitVec 32)
    (reason : Option String) (notFresh : node.client.fwConnectionState ≠ preauthenticatedState)
    (notAuthenticated : node.client.fwConnectionState ≠ gateway.marks.authenticated) :
    gateway.authChangeState node newState reason = (-1, gateway) := by
  simp only [authChangeState, if_neg notFresh, if_neg notAuthenticated, ite_self]

theorem authChangeState_actions {gateway : Gateway} {node : Node}
    (member : node ∈ gateway.clients.nodes) (newState : BitVec 32) (reason : Option String) :
    Actions permits gateway (gateway.authChangeState node newState reason).2 := by
  rcases gateway.authChangeState_cases node newState reason with
    ⟨state, _, equal⟩ | ⟨state, _, equal⟩ | ⟨state, _, equal⟩ | equal
  · rw [equal]
    exact .single (.authenticate reason member state)
  · rw [equal]
    exact .single (.deauthenticate reason member state)
  · rw [equal]
    exact .single (.block reason member state)
  · rw [equal]

theorem authChangeState_transitions {gateway : Gateway} {node : Node}
    (member : node ∈ gateway.clients.nodes) (newState : BitVec 32) (reason : Option String) :
    Transitions permits gateway (gateway.authChangeState node newState reason).2 :=
  (authChangeState_actions member newState reason).transitions

theorem authClientAuth_actions (gateway : Gateway) (id : BitVec 32) (reason : Option String) :
    Actions permits gateway (gateway.authClientAuth id reason).2 := by
  rw [authClientAuth]
  split
  · exact .refl
  · rename_i node found
    exact (authChangeState_actions (ClientList.mem_of_findById found).1 _ _).tail
      (.authentications _ _)

theorem authClientAuth_transitions (gateway : Gateway) (id : BitVec 32)
    (reason : Option String) :
    Transitions permits gateway (gateway.authClientAuth id reason).2 :=
  (gateway.authClientAuth_actions id reason).transitions

theorem authClientDeauth_actions (gateway : Gateway) (id : BitVec 32) (reason : Option String) :
    Actions permits gateway (gateway.authClientDeauth id reason).2 := by
  rw [authClientDeauth]
  split
  · exact .refl
  · rename_i node found
    exact authChangeState_actions (ClientList.mem_of_findById found).1 _ _

theorem authClientDeauth_transitions (gateway : Gateway) (id : BitVec 32)
    (reason : Option String) :
    Transitions permits gateway (gateway.authClientDeauth id reason).2 :=
  (gateway.authClientDeauth_actions id reason).transitions

theorem clientListAddClient_cases (gateway : Gateway) (mac ip : String) :
    (∃ node, gateway.clients.find mac ip = some node ∧
      gateway.clientListAddClient mac ip = (some node, gateway)) ∨
    (∃ node next, checkMacFormat mac = true ∧ checkIpFormat ip = true ∧
      gateway.clients.find mac ip = none ∧
      gateway.clientListAppend mac ip = (some node, next) ∧
      gateway.clientListAddClient mac ip = (some node, next)) ∨
    gateway.clientListAddClient mac ip = (none, gateway) := by
  cases validMac : checkMacFormat mac with
  | false => simp [clientListAddClient, validMac]
  | true =>
      cases validIp : checkIpFormat ip with
      | false => simp [clientListAddClient, validMac, validIp]
      | true =>
          cases found : gateway.clients.find mac ip with
          | some node => simp [clientListAddClient, validMac, validIp, found]
          | none =>
              right
              have reduced : gateway.clientListAddClient mac ip =
                  gateway.clientListAppend mac ip := by
                simp [clientListAddClient, validMac, validIp, found]
              rw [reduced]
              by_cases full : gateway.clients.clientCount ≥ gateway.config.maxclients
              · right
                rw [clientListAppend, if_pos full]
              · left
                exact ⟨_, _, rfl, rfl, rfl, by rw [clientListAppend, if_neg full],
                  by rw [clientListAppend, if_neg full]⟩

theorem clientListAppend_eq {gateway next : Gateway} {mac ip : String} {node : Node}
    (added : gateway.clientListAppend mac ip = (some node, next)) :
    gateway.clients.clientCount < gateway.config.maxclients ∧
      node = ⟨gateway.clients.created, gateway.newClient mac ip gateway.drawToken.1⟩ ∧
      next = { gateway with
        drawn := gateway.drawn + 2
        clients := gateway.clients.push (gateway.newClient mac ip gateway.drawToken.1) } := by
  rw [clientListAppend] at added
  split at added
  · cases added
  · rename_i room
    cases added
    exact ⟨by omega, rfl, rfl⟩

/-- Adding a client leaves all but the list and the values drawn as it is, and no
client leaves the list. -/
theorem clientListAddClient_frame (gateway : Gateway) (mac ip : String) :
    ∃ clients drawn, (gateway.clientListAddClient mac ip).2 =
        { gateway with clients := clients, drawn := drawn } ∧
      ∀ node ∈ gateway.clients.nodes, node ∈ clients.nodes := by
  rcases gateway.clientListAddClient_cases mac ip with
    ⟨_, _, equal⟩ | ⟨_, _, _, _, _, appended, equal⟩ | equal
  · exact ⟨gateway.clients, gateway.drawn, by rw [equal], fun _ member => member⟩
  · rcases clientListAppend_eq appended with ⟨_, _, rfl⟩
    exact ⟨_, _, by rw [equal], fun _ member => ClientList.mem_push.mpr (.inl member)⟩
  · exact ⟨gateway.clients, gateway.drawn, by rw [equal], fun _ member => member⟩

theorem mem_of_clientListAddClient {gateway next : Gateway} {mac ip : String} {node : Node}
    (added : gateway.clientListAddClient mac ip = (some node, next)) :
    node ∈ next.clients.nodes := by
  rcases gateway.clientListAddClient_cases mac ip with
    ⟨_, found, equal⟩ | ⟨_, _, _, _, _, appended, equal⟩ | equal
  · rw [added] at equal
    cases equal
    exact (ClientList.mem_of_find found).1
  · rw [added] at equal
    cases equal
    rcases clientListAppend_eq appended with ⟨_, rfl, rfl⟩
    exact ClientList.mem_push.mpr (.inr rfl)
  · rw [added] at equal
    cases equal

theorem clientListAddClient_actions (gateway : Gateway) {mac : String}
    (permitted : permits.adds mac) (ip : String) :
    Actions permits gateway (gateway.clientListAddClient mac ip).2 := by
  rcases gateway.clientListAddClient_cases mac ip with
    ⟨_, _, equal⟩ | ⟨_, _, validMac, validIp, absent, added, equal⟩ | equal
  · rw [equal]
  · rw [equal]
    exact .single (.add validMac validIp absent added permitted)
  · rw [equal]

theorem clientListAddClient_transitions (gateway : Gateway) {mac : String}
    (permitted : permits.adds mac) (ip : String) :
    Transitions permits gateway (gateway.clientListAddClient mac ip).2 :=
  (gateway.clientListAddClient_actions permitted ip).transitions

theorem readCounter_transitions (column : Rule → String) (raise : Nat → Counters → Counters)
    (gateway : Gateway) (entry : Entry) :
    Transitions permits gateway (readCounter column raise gateway entry) := by
  simp only [readCounter]
  split
  · exact .refl
  · split
    · exact .refl
    · exact .single (.count (raise entry.bytes))

theorem foldl_steps {α : Type} {Step : Gateway → Gateway → Prop} {body : Gateway → α → Gateway}
    (steps : ∀ gateway value, ReflTransGen Step gateway (body gateway value))
    (values : List α) (gateway : Gateway) :
    ReflTransGen Step gateway (values.foldl body gateway) := by
  induction values generalizing gateway with
  | nil => exact .refl
  | cons value values induction => exact (steps gateway value).trans (induction _)

theorem iptablesFwCountersUpdate_transitions (outgoingRead incomingRead : Bool)
    (gateway : Gateway) :
    Transitions permits gateway
      (iptablesFwCountersUpdate outgoingRead incomingRead gateway).2 := by
  simp only [iptablesFwCountersUpdate]
  split
  · exact .refl
  · have outgoing (now : Int) (entries : List Entry) : Transitions permits gateway
        (entries.foldl (readCounter sourceColumn (raiseOutgoing now)) gateway) :=
      foldl_steps (readCounter_transitions sourceColumn (raiseOutgoing now)) entries gateway
    split
    · exact outgoing _ _
    · exact (outgoing _ _).trans
        (foldl_steps (readCounter_transitions destinationColumn raiseIncoming) _ _)

theorem forEachClient_steps {Step : Gateway → Gateway → Prop} {visit : Gateway → Node → Gateway}
    (steps : ∀ (gateway : Gateway) node, node ∈ gateway.clients.nodes →
      ReflTransGen Step gateway (visit gateway node)) (gateway : Gateway) :
    ReflTransGen Step gateway (forEachClient visit gateway) := by
  apply foldl_steps
  intro current node
  split
  · exact .refl
  · rename_i found lookup
    exact steps current found (ClientList.mem_of_findById lookup).1

theorem refreshClient_actions (gateway : Gateway) (node : Node)
    (member : node ∈ gateway.clients.nodes) :
    Actions permits gateway (gateway.refreshClient node) := by
  simp only [refreshClient]
  split
  · split
    · exact authChangeState_actions member _ _
    · exact authChangeState_actions member _ _
  · split
    · exact authChangeState_actions member _ _
    · split
      · rename_i idle
        exact .single (.delete member idle.2.1)
      · split
        · exact authChangeState_actions member _ _
        · exact .refl

theorem refreshClient_transitions (gateway : Gateway) (node : Node)
    (member : node ∈ gateway.clients.nodes) :
    Transitions permits gateway (gateway.refreshClient node) :=
  (gateway.refreshClient_actions node member).transitions

theorem fwRefreshClientList_transitions (outgoingRead incomingRead : Bool) (gateway : Gateway) :
    Transitions permits gateway (fwRefreshClientList outgoingRead incomingRead gateway) := by
  have counted : Transitions permits gateway
      (iptablesFwCountersUpdate outgoingRead incomingRead gateway).2 :=
    iptablesFwCountersUpdate_transitions outgoingRead incomingRead gateway
  simp only [fwRefreshClientList]
  split
  · exact counted.trans (forEachClient_steps refreshClient_transitions _)
  · exact counted

theorem authClientDeauthAll_actions (gateway : Gateway) :
    Actions permits gateway (authClientDeauthAll gateway) :=
  forEachClient_steps (fun _ _ member => authChangeState_actions member _ _) gateway

theorem authClientDeauthAll_transitions (gateway : Gateway) :
    Transitions permits gateway (authClientDeauthAll gateway) :=
  (authClientDeauthAll_actions gateway).transitions

theorem requestClient_actions (gateway : Gateway) {request : Request}
    (permitted : ∀ mac, request.mac = some mac → permits.adds mac) :
    Actions permits gateway (gateway.requestClient request).2 := by
  rw [requestClient]
  split
  · exact .refl
  · split
    · rename_i mac _ requestMac
      split
      · exact .refl
      · exact clientListAddClient_actions _ (permitted mac requestMac) _
    · exact .refl

theorem requestClient_transitions (gateway : Gateway) {request : Request}
    (permitted : ∀ mac, request.mac = some mac → permits.adds mac) :
    Transitions permits gateway (gateway.requestClient request).2 :=
  (gateway.requestClient_actions permitted).transitions

theorem libmicrohttpdCb_transitions (sessions : permits.assigns = .sessions) (gateway : Gateway)
    {request : Request} (permitted : ∀ mac, request.mac = some mac → permits.adds mac) :
    Transitions permits gateway (gateway.libmicrohttpdCb request).2 := by
  have found := requestClient_transitions gateway permitted
  have allowed : permits.assigns ≠ .counters := by
    rw [sessions]
    nofun
  simp only [libmicrohttpdCb]
  split
  · rename_i next equal
    rwa [equal] at found
  · rename_i node next equal
    rw [equal] at found
    split
    · exact found
    · exact found.trans (authClientDeauth_transitions _ _ _)
    · rename_i id reason _ _ _
      have authenticated := found.trans (authClientAuth_transitions next id reason)
      split
      · exact authenticated
      · exact authenticated.tail (.assign (sessionFields_keeps _ _) allowed fun _ _ => rfl)

end Gateway

def NdsctlCommand.edit : NdsctlCommand → Option (String × MacCommand)
  | .block mac => some (mac, .block)
  | .unblock mac => some (mac, .unblock)
  | .allow mac => some (mac, .allow)
  | .unallow mac => some (mac, .unallow)
  | .trust mac => some (mac, .trust)
  | .untrust mac => some (mac, .untrust)
  | _ => none

/-- What an event does is permitted. -/
def Permissions.Permit (permits : Permissions) : Event → Prop
  | .request request =>
      permits.assigns = .sessions ∧ ∀ mac, request.mac = some mac → permits.adds mac
  | .ndsctl _ _ command => ∀ mac edit, command.edit = some (mac, edit) → permits.edits mac edit
  | _ => True

theorem Permissions.all_permit (event : Event) : (Permissions.all .sessions).Permit event := by
  cases event with
  | request => exact ⟨rfl, fun _ _ => trivial⟩
  | ndsctl => exact fun _ _ _ => trivial
  | _ => exact trivial

namespace Gateway

theorem ndsctlHandler_transitions (gateway : Gateway) (outgoingRead incomingRead : Bool)
    {command : NdsctlCommand}
    (permitted : ∀ mac edit, command.edit = some (mac, edit) → permits.edits mac edit) :
    Transitions permits gateway
      (gateway.ndsctlHandler outgoingRead incomingRead command).2 := by
  cases command with
  | status => exact iptablesFwCountersUpdate_transitions _ _ _
  | clients => exact iptablesFwCountersUpdate_transitions _ _ _
  | json => exact iptablesFwCountersUpdate_transitions _ _ _
  | block mac => exact .single (.editMacs gateway mac .block (permitted _ _ rfl))
  | unblock mac => exact .single (.editMacs gateway mac .unblock (permitted _ _ rfl))
  | allow mac => exact .single (.editMacs gateway mac .allow (permitted _ _ rfl))
  | unallow mac => exact .single (.editMacs gateway mac .unallow (permitted _ _ rfl))
  | trust mac => exact .single (.editMacs gateway mac .trust (permitted _ _ rfl))
  | untrust mac => exact .single (.editMacs gateway mac .untrust (permitted _ _ rfl))
  | auth target =>
      simp only [ndsctlHandler, ndsctlAuth]
      split
      · exact authClientAuth_transitions _ _ _
      · exact .refl
  | deauth target =>
      simp only [ndsctlHandler, ndsctlDeauth]
      split
      · exact authClientDeauth_transitions _ _ _
      · exact .refl
  | debuglevel level => exact .refl

theorem step_transitions (gateway : Gateway) {event : Int × Event}
    (permitted : permits.Permit event.2) : Transitions permits gateway (gateway.step event) := by
  rcases event with ⟨now, event⟩
  refine .head (.clock gateway now) ?_
  cases event with
  | request request => exact libmicrohttpdCb_transitions permitted.1 _ permitted.2
  | ndsctl outgoingRead incomingRead command => exact ndsctlHandler_transitions _ _ _ permitted
  | refresh outgoingRead incomingRead => exact fwRefreshClientList_transitions _ _ _
  | deauthAll => exact authClientDeauthAll_transitions _
  | traffic table chain number bytes => exact .single (.bytes _ table chain number bytes)

theorem run_permitted {initial final : Gateway} {events : List (Int × Event)}
    (run : DaemonRun initial events final)
    (permitted : ∀ event ∈ events, permits.Permit event.2) : Transitions permits initial final := by
  induction run with
  | nil => exact .refl
  | @cons current middle final event events step _ induction =>
      rw [step] at induction
      exact (step_transitions current (permitted event List.mem_cons_self)).trans
        (induction fun later member => permitted later (List.mem_cons_of_mem _ member))

theorem run_transitions {initial final : Gateway} {events : List (Int × Event)}
    (run : DaemonRun initial events final) : Transitions (.all .sessions) initial final :=
  run_permitted run fun event _ => Permissions.all_permit event.2

/-! ## The import -/

theorem importFields_keeps (entry : Json) {fields : List FieldImport}
    (keeps : ∀ read ∈ fields, ∀ object assign, read object = some assign → KeepsState assign) :
    KeepsState fun client => (importFields entry fields client).2 := by
  induction fields with
  | nil => exact ⟨fun _ => rfl, fun _ => rfl, fun _ => rfl⟩
  | cons read rest induction =>
      have tail := induction fun other member => keeps other (List.mem_cons_of_mem _ member)
      cases assigned : read entry with
      | none =>
          refine ⟨?_, ?_, ?_⟩ <;> intro client <;> simp [importFields, assigned]
      | some assign =>
          have head := keeps read List.mem_cons_self entry assign assigned
          refine ⟨?_, ?_, ?_⟩ <;> intro client <;> simp only [importFields, assigned]
          · rw [tail.state, head.state]
          · rw [tail.mac, head.mac]
          · rw [tail.ip, head.ip]

theorem clientFields_keeps (id : BitVec 32) :
    ∀ read ∈ clientFields id, ∀ object assign, read object = some assign →
      KeepsState assign := by
  intro read member object assign assigned
  simp only [clientFields, List.mem_cons, List.not_mem_nil, or_false] at member
  rcases member with rfl | rfl | rfl | rfl | rfl <;>
    (rcases Option.map_eq_some_iff.mp assigned with ⟨value, _, rfl⟩
     exact ⟨fun _ => rfl, fun _ => rfl, fun _ => rfl⟩)

theorem counterFields_keeps :
    ∀ read ∈ counterFields, ∀ object assign, read object = some assign →
      KeepsState assign := by
  intro read member object assign assigned
  simp only [counterFields, List.mem_cons, List.not_mem_nil, or_false] at member
  rcases member with rfl | rfl | rfl <;>
    (rcases Option.map_eq_some_iff.mp assigned with ⟨value, _, rfl⟩
     exact ⟨fun _ => rfl, fun _ => rfl, fun _ => rfl⟩)

theorem importAssignments_keeps (entry : Json) (id : BitVec 32) :
    KeepsState fun client => (importAssignments entry id client).2 := by
  have first := importFields_keeps entry (clientFields_keeps id)
  have counters (object : Json) := importFields_keeps object counterFields_keeps
  refine ⟨?_, ?_, ?_⟩ <;> intro client <;> simp only [importAssignments]
  · split
    · exact first.state client
    · split
      · exact first.state client
      · rw [(counters _).state]
        exact first.state client
  · split
    · exact first.mac client
    · split
      · exact first.mac client
      · rw [(counters _).mac]
        exact first.mac client
  · split
    · exact first.ip client
    · split
      · exact first.ip client
      · rw [(counters _).ip]
        exact first.ip client

theorem mem_modifyClient {gateway : Gateway} {node : Node}
    (member : node ∈ gateway.clients.nodes) (change : Client → Client) :
    { node with client := change node.client } ∈
      (gateway.modifyClient node.address change).clients.nodes :=
  ClientList.mem_modify.mpr (.inl ⟨node, member, rfl, rfl⟩)

theorem importInto_transitions {gateway : Gateway} {node : Node}
    (member : node ∈ gateway.clients.nodes) (id : BitVec 32) (entry : Json) :
    Transitions (.all .identities) gateway (gateway.importInto node id entry).2 := by
  have assigned :
      Transitions (.all .identities) gateway (gateway.modifyClient node.address fun client =>
        (importAssignments entry id client).2) :=
    .single (.assign (importAssignments_keeps entry id) nofun nofun)
  simp only [importInto]
  split
  · exact assigned
  · split
    · exact assigned
    · exact assigned.trans (authChangeState_transitions (mem_modifyClient member _) _ _)

theorem stateFileImportClient_transitions (gateway : Gateway) (entry : Json) :
    Transitions (.all .identities) gateway (gateway.stateFileImportClient entry).2 := by
  rw [stateFileImportClient]
  split
  · exact .refl
  · rename_i mac ip id _
    have found : Transitions (.all .identities) gateway (gateway.clientListAddClient mac ip).2 :=
      clientListAddClient_transitions gateway trivial ip
    split
    · exact .refl
    · split
      · exact .refl
      · split
        · rename_i next equal
          rwa [equal] at found
        · rename_i node next equal
          rw [equal] at found
          exact found.trans
            (importInto_transitions (mem_of_clientListAddClient equal) id entry)

theorem importEntries_transitions (rc : Int) (entries : List Json) (gateway : Gateway) :
    Transitions (.all .identities) gateway (gateway.importEntries rc entries).2 := by
  induction entries generalizing rc gateway with
  | nil => exact .refl
  | cons entry rest induction =>
      have first := stateFileImportClient_transitions gateway entry
      simp only [importEntries]
      split
      · exact .refl
      · split
        · exact first
        · exact first.trans (induction _ _)

theorem stateFileImport_transitions (gateway : Gateway) (stateFile : StateFile) :
    Transitions (.all .identities) gateway (gateway.stateFileImport stateFile).2 := by
  cases stateFile with
  | missing => exact .refl
  | inaccessible => exact .refl
  | unparsable => exact .refl
  | document top =>
      simp only [stateFileImport]
      split
      · exact .refl
      · exact importEntries_transitions _ _ _

end Gateway

end Nodogsplash
