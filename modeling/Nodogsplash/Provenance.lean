import Nodogsplash.DeauthCommand
import Nodogsplash.RequestAuthorization

/-! # How clients become authenticated

An authenticated client has shown its own token and passed BinAuth, or `ndsctl`
has named it, and it has been authenticated ever since. -/

namespace Nodogsplash

open Execution (Throughout)

/-- The nodes stand for the same client at different times. -/
structure Node.SameAs (first second : Node) : Prop where
  address : first.address = second.address
  mac : first.client.mac = second.client.mac
  ip : first.client.ip = second.client.ip

theorem ClientList.answers_of_findByAny {list : ClientList} {target : String} {node : Node}
    (found : list.findByAny target target target = some node) : node.client.Answers target := by
  rw [findByAny, Option.orElse_eq_some, Option.orElse_eq_some] at found
  rcases found with found | ⟨_, found | ⟨_, found⟩⟩
  · exact .inl (by simpa using List.find?_some found)
  · exact .inr (.inl (by simpa using List.find?_some found))
  · exact .inr (.inr (by simpa using List.find?_some found))

namespace Gateway

/-- The client is authenticated. -/
def HasAuthenticated (gateway : Gateway) (client : Node) : Prop :=
  ∃ node ∈ gateway.clients.nodes, node.SameAs client ∧
    node.client.fwConnectionState = gateway.marks.authenticated

structure LetsNoneIn (before after : Gateway) : Prop where
  marks : after.marks = before.marks
  clients : ∀ client, after.HasAuthenticated client → before.HasAuthenticated client

namespace LetsNoneIn

theorem refl (gateway : Gateway) : gateway.LetsNoneIn gateway :=
  ⟨rfl, fun _ authenticated => authenticated⟩

theorem trans {first second third : Gateway} (left : first.LetsNoneIn second)
    (right : second.LetsNoneIn third) : first.LetsNoneIn third :=
  ⟨right.marks.trans left.marks,
    fun client authenticated => left.clients client (right.clients client authenticated)⟩

theorem of_steps {before after : Gateway} (steps : Relation.ReflTransGen LetsNoneIn before after) :
    before.LetsNoneIn after := by
  induction steps with
  | refl => exact .refl before
  | tail _ step induction => exact induction.trans step

theorem of_source {before after : Gateway} (marks : after.marks = before.marks)
    (source : ∀ node ∈ after.clients.nodes,
      node.client.fwConnectionState = before.marks.authenticated →
      ∃ source ∈ before.clients.nodes, source.SameAs node ∧
        source.client.fwConnectionState = before.marks.authenticated) :
    before.LetsNoneIn after := by
  refine ⟨marks, ?_⟩
  rintro client ⟨node, member, same, state⟩
  rw [marks] at state
  rcases source node member state with ⟨old, inList, sameOld, oldState⟩
  exact ⟨old, inList, ⟨sameOld.address.trans same.address, sameOld.mac.trans same.mac,
    sameOld.ip.trans same.ip⟩, oldState⟩

theorem of_subset {before after : Gateway} (marks : after.marks = before.marks)
    (subset : ∀ node ∈ after.clients.nodes, node ∈ before.clients.nodes) :
    before.LetsNoneIn after :=
  of_source marks fun node member state => ⟨node, subset node member, ⟨rfl, rfl, rfl⟩, state⟩

theorem modify (gateway : Gateway) (address : Nat) {change : Client → Client}
    (keeps : KeepsState change) : gateway.LetsNoneIn (gateway.modifyClient address change) := by
  refine of_source rfl ?_
  intro node member state
  rcases ClientList.mem_modify.mp member with ⟨source, inList, _, rfl⟩ | ⟨inList, _⟩
  · rw [keeps.state] at state
    exact ⟨source, inList, ⟨rfl, (keeps.mac _).symm, (keeps.ip _).symm⟩, state⟩
  · exact ⟨node, inList, ⟨rfl, rfl, rfl⟩, state⟩

theorem append {gateway next : Gateway} {mac ip : String} {node : Node}
    (added : gateway.clientListAppend mac ip = (some node, next)) : gateway.LetsNoneIn next := by
  rcases clientListAppend_eq added with ⟨_, _, rfl⟩
  refine of_source rfl ?_
  intro node member state
  rcases ClientList.mem_push.mp member with old | rfl
  · exact ⟨node, old, ⟨rfl, rfl, rfl⟩, state⟩
  · exact absurd state (classify_ne_authenticated gateway.config gateway.marks mac)

theorem leaveAuthenticated (gateway : Gateway) (node : Node) (reason : Option String) :
    gateway.LetsNoneIn (gateway.leaveAuthenticated node reason) := by
  apply of_source (gateway.leaveAuthenticated_marks node reason)
  intro changed member state
  rw [leaveAuthenticated_clients] at member
  rcases ClientList.mem_modify.mp member with ⟨source, _, _, rfl⟩ | ⟨inMiddle, other⟩
  · exact absurd state (preauthenticated_ne_authenticated gateway.marks)
  · rcases ClientList.mem_modify.mp inMiddle with ⟨source, _, same, rfl⟩ | ⟨inList, _⟩
    · exact absurd same other
    · exact ⟨changed, inList, ⟨rfl, rfl, rfl⟩, state⟩

theorem leaveBlocked (gateway : Gateway) (node : Node) (reason : Option String) :
    gateway.LetsNoneIn (gateway.leaveBlocked node reason) := by
  apply of_subset (gateway.leaveBlocked_marks node reason)
  intro other member
  rw [leaveBlocked_clients] at member
  exact ClientList.mem_of_mem_delete member

theorem authChangeState (gateway : Gateway) (node : Node) {newState : BitVec 32}
    (reason : Option String) (other : newState ≠ gateway.marks.authenticated) :
    gateway.LetsNoneIn (gateway.authChangeState node newState reason).2 := by
  rcases gateway.authChangeState_cases node newState reason with
    ⟨_, target, _⟩ | ⟨_, _, equal⟩ | ⟨_, _, equal⟩ | equal
  · exact absurd target other
  · rw [equal]
    exact leaveAuthenticated gateway node reason
  · rw [equal]
    exact leaveBlocked gateway node reason
  · rw [equal]
    exact .refl gateway

theorem authClientDeauth (gateway : Gateway) (id : BitVec 32) (reason : Option String) :
    gateway.LetsNoneIn (gateway.authClientDeauth id reason).2 := by
  rw [Gateway.authClientDeauth]
  split
  · exact .refl gateway
  · exact authChangeState gateway _ reason (preauthenticated_ne_authenticated gateway.marks)

theorem clientListAddClient (gateway : Gateway) (mac ip : String) :
    gateway.LetsNoneIn (gateway.clientListAddClient mac ip).2 := by
  rcases gateway.clientListAddClient_cases mac ip with
    ⟨_, _, equal⟩ | ⟨_, _, _, _, _, added, equal⟩ | equal
  · rw [equal]
    exact .refl gateway
  · rw [equal]
    exact append added
  · rw [equal]
    exact .refl gateway

theorem requestClient (gateway : Gateway) (request : Request) :
    gateway.LetsNoneIn (gateway.requestClient request).2 := by
  rw [Gateway.requestClient]
  split
  · exact .refl gateway
  · split
    · split
      · exact .refl gateway
      · exact clientListAddClient gateway _ _
    · exact .refl gateway

theorem readCounter (column : Rule → String) (raise : Nat → Counters → Counters)
    (gateway : Gateway) (entry : Entry) :
    gateway.LetsNoneIn (readCounter column raise gateway entry) := by
  simp only [Gateway.readCounter]
  split
  · exact .refl gateway
  · split
    · exact .refl gateway
    · exact modify gateway _ ⟨fun _ => rfl, fun _ => rfl, fun _ => rfl⟩

theorem iptablesFwCountersUpdate (outgoingRead incomingRead : Bool) (gateway : Gateway) :
    gateway.LetsNoneIn (iptablesFwCountersUpdate outgoingRead incomingRead gateway).2 := by
  have loop (column : Rule → String) (raise : Nat → Counters → Counters) (entries : List Entry)
      (gateway : Gateway) :
      gateway.LetsNoneIn (entries.foldl (Gateway.readCounter column raise) gateway) :=
    of_steps (foldl_steps (fun gateway entry => .single (readCounter column raise gateway entry))
      entries gateway)
  simp only [Gateway.iptablesFwCountersUpdate]
  split
  · exact .refl gateway
  · split
    · exact loop _ _ _ _
    · exact (loop _ _ _ _).trans (loop _ _ _ _)

theorem refreshClient (gateway : Gateway) (node : Node) :
    gateway.LetsNoneIn (gateway.refreshClient node) := by
  have toBlocked := gateway.marks.authenticated_ne_blocked.symm
  have toPreauthenticated := preauthenticated_ne_authenticated gateway.marks
  simp only [Gateway.refreshClient]
  split
  · split
    · exact authChangeState gateway node _ toBlocked
    · exact authChangeState gateway node _ toPreauthenticated
  · split
    · exact authChangeState gateway node _ toBlocked
    · split
      · exact of_subset rfl fun _ member => ClientList.mem_of_mem_delete member
      · split
        · exact authChangeState gateway node _ toPreauthenticated
        · exact .refl gateway

theorem fwRefreshClientList (outgoingRead incomingRead : Bool) (gateway : Gateway) :
    gateway.LetsNoneIn (fwRefreshClientList outgoingRead incomingRead gateway) := by
  have counted := iptablesFwCountersUpdate outgoingRead incomingRead gateway
  simp only [Gateway.fwRefreshClientList]
  split
  · exact counted.trans (of_steps (forEachClient_steps
      (fun gateway node _ => .single (refreshClient gateway node)) _))
  · exact counted

theorem authClientDeauthAll (gateway : Gateway) :
    gateway.LetsNoneIn (authClientDeauthAll gateway) :=
  of_steps (forEachClient_steps (fun gateway node _ => .single (authChangeState gateway node _
    (preauthenticated_ne_authenticated gateway.marks))) gateway)

end LetsNoneIn

/-- The event authenticates the client: the request carries the token of a client with
its id, or `ndsctl auth` has found one. -/
inductive Grants (gateway : Gateway) : Event → Node → Prop
  | request {request : Request} {requester node : Node}
      (client : (gateway.requestClient request).1 = some requester)
      (carries : request.CarriesToken gateway.config requester.client)
      (accepts : request.BinauthAccepts gateway.config requester.client)
      (named : (gateway.requestClient request).2.clients.findById requester.client.id =
        some node) :
      Grants gateway (.request request) node
  | ndsctl {outgoingRead incomingRead : Bool} {target : String} {targeted node : Node}
      (found : gateway.clients.findByAny target target target = some targeted)
      (named : gateway.clients.findById targeted.client.id = some node) :
      Grants gateway (.ndsctl outgoingRead incomingRead (.auth target)) node

/-- `iptables_fw_authenticate` and the assignment of the state let in this client only. -/
theorem hasAuthenticated_of_enterAuthenticated {gateway : Gateway} {node client : Node}
    {reason : Option String} (member : node ∈ gateway.clients.nodes)
    (authenticated : (gateway.enterAuthenticated node reason).HasAuthenticated client) :
    gateway.HasAuthenticated client ∨ node.SameAs client := by
  rcases authenticated with ⟨changed, inList, same, state⟩
  rw [enterAuthenticated_clients] at inList
  rw [enterAuthenticated_marks] at state
  rcases ClientList.mem_modify.mp inList with ⟨source, inBefore, address, rfl⟩ | ⟨inBefore, _⟩
  · cases ClientList.eq_of_address inBefore member address
    exact .inr ⟨same.address, same.mac, same.ip⟩
  · exact .inl ⟨changed, inBefore, same, state⟩

theorem hasAuthenticated_of_authClientAuth {gateway : Gateway} {id : BitVec 32}
    {reason : Option String} {client : Node}
    (authenticated : (gateway.authClientAuth id reason).2.HasAuthenticated client) :
    gateway.HasAuthenticated client ∨
      ∃ node, gateway.clients.findById id = some node ∧ node.SameAs client ∧
        node.client.fwConnectionState = preauthenticatedState := by
  rw [authClientAuth] at authenticated
  split at authenticated
  · exact .inl authenticated
  · rename_i node found
    rcases gateway.authChangeState_cases node gateway.marks.authenticated reason with
      ⟨state, _, equal⟩ | ⟨_, target, _⟩ | ⟨_, target, _⟩ | equal
    · rw [equal] at authenticated
      rcases hasAuthenticated_of_enterAuthenticated (ClientList.mem_of_findById found).1
        authenticated with before | same
      · exact .inl before
      · exact .inr ⟨node, found, same, state⟩
    · exact absurd target.symm (preauthenticated_ne_authenticated gateway.marks)
    · exact absurd target gateway.marks.authenticated_ne_blocked
    · rw [equal] at authenticated
      exact .inl authenticated

/-- A request is answered with a page, deauthenticates, or authenticates the client
whose token it carries. -/
theorem route_cases (gateway : Gateway) (request : Request) (client : Client) :
    (∃ response, gateway.route request client = .respond response) ∨
    (∃ id, gateway.route request client = .deauthenticate id) ∨
    (∃ reason redirectUrl limits,
      gateway.route request client = .authenticate client.id reason redirectUrl limits ∧
      request.CarriesToken gateway.config client ∧
      request.BinauthAccepts gateway.config client) := by
  by_cases routed : client.fwConnectionState = gateway.marks.authenticated ∨
      client.fwConnectionState = gateway.marks.trusted
  · simp only [route, if_pos routed]
    rcases authenticated_cases gateway.config request client with
      ⟨response, decision⟩ | ⟨decision, _⟩
    · exact .inl ⟨response, decision⟩
    · exact .inr (.inl ⟨client.id, decision⟩)
  · simp only [route, if_neg routed]
    rcases preauthenticated_cases gateway.config request client with
      ⟨response, decision, _⟩ | granted
    · exact .inl ⟨response, decision⟩
    · exact .inr (.inr granted)

theorem grants_of_request {gateway : Gateway} {request : Request} {client : Node}
    (authenticated : (gateway.libmicrohttpdCb request).2.HasAuthenticated client) :
    gateway.HasAuthenticated client ∨
      ∃ node, gateway.Grants (.request request) node ∧ node.SameAs client ∧
        node.client.fwConnectionState = preauthenticatedState := by
  have kept := (LetsNoneIn.requestClient gateway request).clients client
  have config := (gateway.requestClient_keeps request).1
  rcases found : gateway.requestClient request with ⟨_ | requester, next⟩
  · rw [libmicrohttpdCb, found] at authenticated
    rw [found] at kept
    exact .inl (kept authenticated)
  rw [found] at kept config
  rw [libmicrohttpdCb, found] at authenticated
  simp only at authenticated kept config
  rcases next.route_cases request requester.client with
    ⟨response, decision⟩ | ⟨id, decision⟩ |
    ⟨reason, redirectUrl, limits, decision, carries, accepts⟩
  · rw [decision] at authenticated
    exact .inl (kept authenticated)
  · rw [decision] at authenticated
    exact .inl (kept ((LetsNoneIn.authClientDeauth next id _).clients client authenticated))
  · rw [config] at carries accepts
    rw [decision] at authenticated
    have letIn : (next.authClientAuth requester.client.id reason).2.HasAuthenticated client := by
      simp only at authenticated
      split at authenticated
      · exact authenticated
      · exact (LetsNoneIn.modify _ requester.address (sessionFields_keeps _ limits)).clients
          client authenticated
    rcases hasAuthenticated_of_authClientAuth letIn with before | ⟨node, named, same, state⟩
    · exact .inl (kept before)
    · have client : (gateway.requestClient request).1 = some requester := by rw [found]
      have byId : (gateway.requestClient request).2.clients.findById requester.client.id =
          some node := by
        rw [found]
        exact named
      exact .inr ⟨node, .request client carries accepts byId, same, state⟩

theorem grants_of_ndsctl {gateway : Gateway} {outgoingRead incomingRead : Bool}
    {command : NdsctlCommand} {client : Node}
    (authenticated : (gateway.ndsctlHandler outgoingRead incomingRead
      command).2.HasAuthenticated client) :
    gateway.HasAuthenticated client ∨
      ∃ node, gateway.Grants (.ndsctl outgoingRead incomingRead command) node ∧
        node.SameAs client ∧ node.client.fwConnectionState = preauthenticatedState := by
  have counted := (LetsNoneIn.iptablesFwCountersUpdate outgoingRead incomingRead
    gateway).clients client
  cases command with
  | status | clients | json => exact .inl (counted authenticated)
  | block | unblock | allow | unallow | trust | untrust | debuglevel => exact .inl authenticated
  | auth target =>
      simp only [ndsctlHandler, ndsctlAuth, ndsctlId] at authenticated
      cases found : gateway.clients.findByAny target target target with
      | none =>
          simp only [found, ne_eq, not_true_eq_false, if_false] at authenticated
          exact .inl authenticated
      | some targeted =>
          simp only [found] at authenticated
          split at authenticated
          · rcases hasAuthenticated_of_authClientAuth authenticated with
              before | ⟨node, named, same, state⟩
            · exact .inl before
            · exact .inr ⟨node, .ndsctl found named, same, state⟩
          · exact .inl authenticated
  | deauth target =>
      simp only [ndsctlHandler, ndsctlDeauth] at authenticated
      split at authenticated
      · exact .inl ((LetsNoneIn.authClientDeauth gateway _ _).clients client authenticated)
      · exact .inl authenticated

theorem grants_of_handle {gateway : Gateway} {event : Event} {client : Node}
    (authenticated : (gateway.handle event).HasAuthenticated client) :
    gateway.HasAuthenticated client ∨
      ∃ node, gateway.Grants event node ∧ node.SameAs client ∧
        node.client.fwConnectionState = preauthenticatedState := by
  cases event with
  | request request => exact grants_of_request authenticated
  | ndsctl outgoingRead incomingRead command => exact grants_of_ndsctl authenticated
  | refresh outgoingRead incomingRead =>
      exact .inl ((LetsNoneIn.fwRefreshClientList _ _ gateway).clients client authenticated)
  | deauthAll => exact .inl ((LetsNoneIn.authClientDeauthAll gateway).clients client authenticated)
  | traffic table chain number bytes => exact .inl authenticated

/-- What entitles a client to be let in: a request of its own that carries its token and
that BinAuth accepts, or an `ndsctl auth` with its token, IP or MAC address. -/
def Entitles (gateway : Gateway) : Event → Node → Prop
  | .request request, node =>
      (gateway.requestClient request).1 = some node ∧ request.IsFrom node.client ∧
        request.CarriesToken gateway.config node.client ∧
        request.BinauthAccepts gateway.config node.client
  | .ndsctl _ _ (.auth target), node =>
      node ∈ gateway.clients.nodes ∧ node.client.Answers target
  | _, _ => False

theorem Grants.entitles {gateway : Gateway} {event : Event} {node : Node}
    (grants : gateway.Grants event node) (identified : gateway.clients.Identified)
    (found : ∀ request, event = .request request →
      (gateway.requestClient request).2.clients.Identified) : gateway.Entitles event node := by
  cases grants with
  | @request request requester _ client carries accepts named =>
      rcases answer : gateway.requestClient request with ⟨other, next⟩
      have identifiedNext := found request rfl
      rw [answer] at client named identifiedNext
      cases client
      rcases requestClient_spec answer with ⟨member, source⟩
      rw [identifiedNext.findById_self member] at named
      cases named
      exact ⟨by rw [answer], source, carries, accepts⟩
  | @ndsctl _ _ target targeted _ any named =>
      have member := ClientList.mem_of_findByAny any
      rw [identified.findById_self member] at named
      cases named
      exact ⟨member, ClientList.answers_of_findByAny any⟩

/-- What a request does after its client has been found takes back no element. -/
theorem requestClient_created_le (gateway : Gateway) (request : Request) :
    (gateway.requestClient request).2.clients.created ≤
      (gateway.libmicrohttpdCb request).2.clients.created := by
  rcases found : gateway.requestClient request with ⟨_ | requester, next⟩
  · rw [libmicrohttpdCb, found]
  rw [libmicrohttpdCb, found]
  simp only
  rcases next.route_cases request requester.client with
    ⟨response, decision⟩ | ⟨id, decision⟩ | ⟨reason, redirectUrl, limits, decision, _, _⟩
  · rw [decision]
  · rw [decision]
    exact (authClientDeauth_transitions next id _).keepsIds.created
  · rw [decision]
    have kept := (authClientAuth_transitions next requester.client.id reason).keepsIds.created
    simp only
    split
    · exact kept
    · exact kept

end Gateway

/-- A client that is authenticated in some state of a run has been so from the start of
the run, or since an event that granted it. -/
theorem granted_of_run {initial final : Gateway} {events : List (Int × Event)}
    (run : DaemonRun initial events final) {client : Node}
    (authenticated : final.HasAuthenticated client) :
    let Step := Execution.ofFunction Gateway.step
    Throughout Step (Gateway.HasAuthenticated · client) initial events final ∨
      ∃ before event after middle node, events = before ++ event :: after ∧
        DaemonRun initial before middle ∧
        Gateway.Grants { middle with clock := event.1 } event.2 node ∧
        node.SameAs client ∧ node.client.fwConnectionState = preauthenticatedState ∧
        Throughout Step (Gateway.HasAuthenticated · client) (middle.step event) after final := by
  intro Step
  rcases run.last_change (Gateway.HasAuthenticated · client) authenticated with
    throughout | ⟨before, event, after, middle, next, split, reached, not, step, throughout⟩
  · exact .inl throughout
  · cases step
    rcases Gateway.grants_of_handle throughout.start with earlier | ⟨node, grants, same, state⟩
    · exact absurd earlier not
    · exact .inr ⟨before, event, after, middle, node, split, reached, grants, same, state,
        throughout⟩

/-- In a run without a state file, an authenticated client has been let in by an event
that entitled it to that, a request with its own token or an `ndsctl auth` that named it,
and it has been authenticated in every state since. -/
theorem authenticated_since_entitled {environment : Environment} {initial final : Gateway}
    {events : List (Int × Event)} (noFile : environment.stateFile = .missing)
    (started : mainLoop environment = some initial) (run : DaemonRun initial events final)
    (few : final.clients.created < 2 ^ 31) {client : Node}
    (authenticated : final.HasAuthenticated client) :
    ∃ before event after middle node, events = before ++ event :: after ∧
      DaemonRun initial before middle ∧
      Gateway.Entitles { middle with clock := event.1 } event.2 node ∧ node.SameAs client ∧
      Throughout (Execution.ofFunction Gateway.step) (Gateway.HasAuthenticated · client)
        (middle.step event) after final := by
  rcases granted_of_run run authenticated with
    throughout | ⟨before, event, after, middle, node, split, reached, grants, same, _, throughout⟩
  · rcases mainLoop_cases started with ⟨fresh, found, _, ⟨_, equal⟩ | ⟨failed, _⟩⟩
    · have empty := (initialGateway_fresh found).2.1
      rcases throughout.start with ⟨node, member, _⟩
      simp [equal, noFile, Gateway.stateFileImport, empty, ClientList.init] at member
    · simp [noFile, Gateway.stateFileImport] at failed
  rcases Gateway.numbered_of_run noFile started reached with ⟨keeps, numbered⟩
  let now : Gateway := { middle with clock := event.1 }
  have created : (now.handle event.2).clients.created ≤ final.clients.created :=
    (Gateway.run_transitions throughout.run).keepsIds.created
  have step : now.clients.created ≤ (now.handle event.2).clients.created :=
    (Gateway.step_transitions middle (Permissions.all_permit event.2)).keepsIds.created
  have identified := (keeps.numbered ((step.trans created).trans_lt few) numbered).toIdentified
  refine ⟨before, event, after, middle, node, split, reached, grants.entitles identified ?_, same,
    throughout⟩
  intro request isRequest
  have found : (now.requestClient request).2.clients.created ≤ final.clients.created := by
    rw [isRequest] at created
    exact (now.requestClient_created_le request).trans created
  have keepsFound : initial.KeepsIds (now.requestClient request).2 :=
    (keeps.trans (Gateway.Transitions.keepsIds (.single (.clock middle event.1)))).trans
      (Gateway.requestClient_transitions now fun _ _ => trivial).keepsIds
  exact (keepsFound.numbered (found.trans_lt few) numbered).toIdentified

/-- A client that asks for the splash page and comes back with its token. -/
def loginEvents : List (Int × Event) :=
  [(1000, .request (defaultRequest "/" fun _ => none)),
    (1010, .request (tokenRequest ⟨.exited 0, ""⟩)), (1020, .refresh true true)]

theorem authenticated_since_entitled_default :
    let final := loginEvents.foldl Gateway.step defaultGateway
    let client : Node := ⟨0, defaultClient 1 "00:16:3e:00:00:01" "192.168.42.10"⟩
    ∃ before event after middle node, loginEvents = before ++ event :: after ∧
      DaemonRun defaultGateway before middle ∧
      Gateway.Entitles { middle with clock := event.1 } event.2 node ∧ node.SameAs client ∧
      Throughout (Execution.ofFunction Gateway.step) (Gateway.HasAuthenticated · client)
        (middle.step event) after final := by
  intro final client
  have run : DaemonRun defaultGateway loginEvents final :=
    (Execution.run_ofFunction_iff _ _ _ _).mpr rfl
  have authenticated : final.HasAuthenticated client := by
    refine ⟨final.clients.nodes.get ⟨0, by decide +kernel⟩, List.get_mem _ _,
      ⟨?_, ?_, ?_⟩, ?_⟩
    · decide +kernel
    · decide +kernel
    · decide +kernel
    · decide +kernel
  exact authenticated_since_entitled rfl mainLoop_defaultGateway run (by decide +kernel)
    authenticated

end Nodogsplash
