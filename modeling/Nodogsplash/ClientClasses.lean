import Nodogsplash.BlockedSessions
import Nodogsplash.StateFileRoundTrip

/-! # Clients and the MAC lists

`_client_list_append` gives a new client the state in which the MAC lists have
its MAC. A later edit of a list does not reach the clients that are on the client
list already. -/

namespace Nodogsplash

open Relation (ReflTransGen)

/-! ## What an edit means for a MAC -/

theorem contains_addToMacList {invalid : Int} {enabled : Bool} {list : List String}
    {text mac : String} (invalidNonzero : invalid ≠ 0)
    (other : (addToMacList invalid enabled list text).1 = 0 → scanMac text ≠ mac) :
    (addToMacList invalid enabled list text).2.contains mac = list.contains mac := by
  rcases addToMacList_cases invalid invalidNonzero enabled list text with ⟨equal, _⟩ | ⟨_, equal⟩
  · rw [equal] at other ⊢
    have different := Ne.symm (other rfl)
    simp [different]
  · rw [equal]

theorem contains_removeFromMacList {enabled : Bool} {list : List String} {text mac : String}
    (other : (removeFromMacList enabled list text).1 = 0 →
      list.find? (sameIgnoringCase · (scanMac text)) ≠ some mac) :
    (removeFromMacList enabled list text).2.contains mac = list.contains mac := by
  rcases removeFromMacList_cases enabled list text with ⟨equal, _, _, present⟩ | ⟨_, equal⟩
  · rw [equal] at other ⊢
    rcases List.any_eq_true.mp present with ⟨_, inList, same⟩
    rcases List.exists_of_eraseP (p := (sameIgnoringCase · (scanMac text))) inList same with
      ⟨entry, before, after, passed, found, split, erased⟩
    have first : list.find? (sameIgnoringCase · (scanMac text)) = some entry := by
      have skipped : before.find? (sameIgnoringCase · (scanMac text)) = none :=
        List.find?_eq_none.mpr passed
      rw [split, List.find?_append, skipped, Option.none_or]
      exact List.find?_cons_of_pos (p := (sameIgnoringCase · (scanMac text))) found
    have different : mac ≠ entry := fun same => other rfl (same ▸ first)
    rw [erased, split]
    simp [different]
  · rw [equal]

namespace Config

def entryEdited (config : Config) (text : String) : MacCommand → Option String
  | .trust => if (config.addToTrustedMacList text).1 = 0 then some (scanMac text) else none
  | .untrust =>
      if (config.removeFromTrustedMacList text).1 = 0 then
        config.trustedmaclist.find? (sameIgnoringCase · (scanMac text))
      else none
  | .allow => if (config.addToAllowedMacList text).1 = 0 then some (scanMac text) else none
  | .unallow =>
      if (config.removeFromAllowedMacList text).1 = 0 then
        config.allowedmaclist.find? (sameIgnoringCase · (scanMac text))
      else none
  | .block => if (config.addToBlockedMacList text).1 = 0 then some (scanMac text) else none
  | .unblock =>
      if (config.removeFromBlockedMacList text).1 = 0 then
        config.blockedmaclist.find? (sameIgnoringCase · (scanMac text))
      else none

/-- Another list already decides what a client with this MAC is. -/
def decidedOtherwise (config : Config) (mac : String) : MacCommand → Bool
  | .trust | .untrust => config.isBlockedMac mac || config.isAllowedMac mac
  | .allow | .unallow => config.isBlockedMac mac || config.isTrustedMac mac
  | .block | .unblock => false

def Reclassifies (config : Config) (text : String) (command : MacCommand) (mac : String) : Prop :=
  config.entryEdited text command = some mac ∧ config.decidedOtherwise mac command = false

instance (config : Config) (text : String) (command : MacCommand) (mac : String) :
    Decidable (config.Reclassifies text command mac) :=
  inferInstanceAs (Decidable (_ ∧ _))

end Config

namespace Gateway

theorem classify_congr {config next : Config} {mac : String} (marks : Marks)
    (blocked : next.isBlockedMac mac = config.isBlockedMac mac)
    (others : config.isBlockedMac mac = false →
      (next.isAllowedMac mac || next.isTrustedMac mac) =
        (config.isAllowedMac mac || config.isTrustedMac mac)) :
    classify next marks mac = classify config marks mac := by
  rw [classify, classify, blocked]
  cases listed : config.isBlockedMac mac with
  | true => rfl
  | false => rw [others listed]

/-- An edit of the trusted list leaves the clients alone whose MAC it does not
concern. -/
theorem classify_trustedmaclist {config : Config} {list : List String} {mac : String}
    (marks : Marks)
    (kept : config.isBlockedMac mac = false → config.isAllowedMac mac = false →
      list.contains mac = config.trustedmaclist.contains mac) :
    classify { config with trustedmaclist := list } marks mac = classify config marks mac := by
  refine classify_congr marks rfl fun unblocked => ?_
  have allowed : ({ config with trustedmaclist := list } : Config).isAllowedMac mac =
    config.isAllowedMac mac := rfl
  rw [allowed]
  cases listed : config.isAllowedMac mac with
  | true => rfl
  | false => exact kept unblocked listed

theorem classify_allowedmaclist {config : Config} {list : List String} {mac : String}
    (marks : Marks)
    (kept : config.isBlockedMac mac = false → config.isTrustedMac mac = false →
      list.contains mac = config.allowedmaclist.contains mac) :
    classify { config with allowedmaclist := list } marks mac = classify config marks mac := by
  refine classify_congr marks rfl fun unblocked => ?_
  have trusted : ({ config with allowedmaclist := list } : Config).isTrustedMac mac =
    config.isTrustedMac mac := rfl
  rw [trusted]
  cases listed : config.isTrustedMac mac with
  | true => rw [Bool.or_true, Bool.or_true]
  | false =>
      have same := kept unblocked listed
      simp only [Config.isAllowedMac, same]

theorem classify_blockedmaclist {config : Config} {list : List String} {mac : String}
    (marks : Marks) (kept : list.contains mac = config.blockedmaclist.contains mac) :
    classify { config with blockedmaclist := list } marks mac = classify config marks mac := by
  refine classify_congr marks ?_ fun _ => rfl
  simp only [Config.isBlockedMac, kept]

theorem classify_editMacs {gateway : Gateway} {text mac : String} {command : MacCommand}
    (kept : ¬ gateway.config.Reclassifies text command mac) (marks : Marks) :
    classify (gateway.editMacs text command).config marks mac =
      classify gateway.config marks mac := by
  have other (undecided : gateway.config.decidedOtherwise mac command = false) :
      gateway.config.entryEdited text command ≠ some mac :=
    fun edited => kept ⟨edited, undecided⟩
  cases command with
  | trust =>
      refine classify_trustedmaclist marks fun unblocked unallowed => ?_
      apply contains_addToMacList (by decide)
      intro succeeded same
      apply other (by simp [Config.decidedOtherwise, unblocked, unallowed])
      rw [Config.entryEdited, Config.addToTrustedMacList, if_pos succeeded, same]
  | untrust =>
      refine classify_trustedmaclist marks fun unblocked unallowed => ?_
      apply contains_removeFromMacList
      intro succeeded
      have edited := other (by simp [Config.decidedOtherwise, unblocked, unallowed])
      rwa [Config.entryEdited, Config.removeFromTrustedMacList, if_pos succeeded] at edited
  | allow =>
      refine classify_allowedmaclist marks fun unblocked untrusted => ?_
      apply contains_addToMacList (by decide)
      intro succeeded same
      apply other (by simp [Config.decidedOtherwise, unblocked, untrusted])
      rw [Config.entryEdited, Config.addToAllowedMacList, if_pos succeeded, same]
  | unallow =>
      refine classify_allowedmaclist marks fun unblocked untrusted => ?_
      apply contains_removeFromMacList
      intro succeeded
      have edited := other (by simp [Config.decidedOtherwise, unblocked, untrusted])
      rwa [Config.entryEdited, Config.removeFromAllowedMacList, if_pos succeeded] at edited
  | block =>
      apply classify_blockedmaclist marks
      apply contains_addToMacList (by decide)
      intro succeeded same
      apply other rfl
      rw [Config.entryEdited, Config.addToBlockedMacList, if_pos succeeded, same]
  | unblock =>
      apply classify_blockedmaclist marks
      apply contains_removeFromMacList
      intro succeeded
      have edited := other rfl
      rwa [Config.entryEdited, Config.removeFromBlockedMacList, if_pos succeeded] at edited

/-! ## Clients in the state the lists give them -/

/-- Every client has the state the MAC lists give it now, or has got
authenticated since. -/
def ClientsClassified (gateway : Gateway) : Prop :=
  ∀ node ∈ gateway.clients.nodes, node.client.Classified gateway.config gateway.marks.toMarks

namespace ClientsClassified

variable {gateway next : Gateway}

theorem keeps (classified : gateway.ClientsClassified) (marks : next.marks = gateway.marks)
    (classes : ∀ node ∈ next.clients.nodes,
      classify next.config gateway.marks.toMarks node.client.mac =
        classify gateway.config gateway.marks.toMarks node.client.mac)
    (clients : ∀ node ∈ next.clients.nodes,
      node.client.Classified gateway.config gateway.marks.toMarks ∨
      ∃ source ∈ gateway.clients.nodes, source.client.mac = node.client.mac ∧
        source.client.fwConnectionState = node.client.fwConnectionState) :
    next.ClientsClassified := by
  intro node member
  have held : node.client.Classified gateway.config gateway.marks.toMarks := by
    rcases clients node member with held | ⟨source, inList, mac, state⟩
    · exact held
    · have held := classified source inList
      rwa [Client.Classified, mac, state] at held
  rw [Client.Classified, marks, classes node member]
  exact held

theorem transition {permits : Permissions} (classified : gateway.ClientsClassified)
    (transition : Transition permits gateway next)
    (classes : ∀ node ∈ next.clients.nodes,
      classify next.config gateway.marks.toMarks node.client.mac =
        classify gateway.config gateway.marks.toMarks node.client.mac) :
    next.ClientsClassified := by
  apply classified.keeps transition.follows.marks classes
  intro node member
  cases transition with
  | clock | authentications | bytes => exact .inr ⟨node, member, rfl, rfl⟩
  | add _ _ _ added =>
      rcases clientListAppend_eq added with ⟨_, rfl, rfl⟩
      rcases ClientList.mem_push.mp member with old | rfl
      · exact .inr ⟨node, old, rfl, rfl⟩
      · exact .inl (.inl rfl)
  | delete => exact .inr ⟨node, ClientList.mem_of_mem_delete member, rfl, rfl⟩
  | count raise =>
      rcases ClientList.mem_modify.mp member with ⟨source, inList, _, rfl⟩ | ⟨inList, _⟩
      · exact .inr ⟨source, inList, rfl, rfl⟩
      · exact .inr ⟨node, inList, rfl, rfl⟩
  | assign keeps =>
      rcases ClientList.mem_modify.mp member with ⟨source, inList, _, rfl⟩ | ⟨inList, _⟩
      · exact .inr ⟨source, inList, (keeps.mac _).symm, (keeps.state _).symm⟩
      · exact .inr ⟨node, inList, rfl, rfl⟩
  | @authenticate target reason inTarget state =>
      rw [enterAuthenticated_clients] at member
      rcases ClientList.mem_modify.mp member with ⟨source, inList, same, rfl⟩ | ⟨inList, _⟩
      · left
        have held := classified target inTarget
        rw [ClientList.eq_of_address inList inTarget same]
        rcases held with fresh | ⟨authenticated, _⟩
        · exact .inr ⟨rfl, fresh.symm.trans state⟩
        · exact absurd (state.symm.trans authenticated)
            (preauthenticated_ne_authenticated gateway.marks)
      · exact .inr ⟨node, inList, rfl, rfl⟩
  | @deauthenticate target reason inTarget state =>
      rw [leaveAuthenticated_clients] at member
      rcases ClientList.mem_modify.mp member with
        ⟨middle, inMiddle, same, rfl⟩ | ⟨inMiddle, different⟩
      · left
        have mac : middle.client.mac = target.client.mac := by
          rcases ClientList.mem_modify.mp inMiddle with ⟨source, inList, here, rfl⟩ | ⟨_, different⟩
          · rw [ClientList.eq_of_address inList inTarget here]
            rfl
          · exact absurd same different
        rcases classified target inTarget with unauthenticated | ⟨_, fresh⟩
        · exact absurd (unauthenticated.symm.trans state)
            (classify_ne_authenticated _ gateway.marks _)
        · left
          rw [← mac] at fresh
          exact fresh.symm
      · rcases ClientList.mem_modify.mp inMiddle with ⟨_, _, here, rfl⟩ | ⟨inList, _⟩
        · exact absurd here different
        · exact .inr ⟨node, inList, rfl, rfl⟩
  | @block target reason inTarget state =>
      rw [leaveBlocked_clients] at member
      exact .inr ⟨node, ClientList.mem_of_mem_delete member, rfl, rfl⟩
  | editMacs text command =>
      rw [editMacs_clients] at member
      exact .inr ⟨node, member, rfl, rfl⟩

end ClientsClassified

/-! ## Events that leave the lists alone -/

/-- Nobody edits a MAC list. -/
def unedited : Permissions := ⟨.sessions, fun _ => True, fun _ _ => False⟩

/-- Without edits only the end of a session changes the configuration, and then
the blocked list grows. -/
theorem config_of_unedited {gateway next : Gateway}
    (transition : Transition unedited gateway next) :
    next.config = gateway.config ∨
      gateway.config.blockedmaclist.length < next.config.blockedmaclist.length := by
  cases transition with
  | clock | authentications | bytes | delete | count | assign => exact .inl rfl
  | add _ _ _ added =>
      rcases clientListAppend_eq added with ⟨_, _, rfl⟩
      exact .inl rfl
  | authenticate reason => exact .inl (enterAuthenticated_config _ _ reason)
  | deauthenticate reason => exact .inl (leaveAuthenticated_config _ _ reason)
  | @block node reason =>
      rw [leaveBlocked_config]
      rcases addToMacList_cases (-1) (by decide) (gateway.config.macmechanism = .block)
        gateway.config.blockedmaclist node.client.mac with ⟨equal, _⟩ | ⟨_, equal⟩
      · right
        simp [Config.addToBlockedMacList, equal]
      · left
        simp [Config.addToBlockedMacList, equal]
  | editMacs _ _ permitted => exact permitted.elim

theorem config_of_unediteds {gateway next : Gateway}
    (transitions : Transitions unedited gateway next) :
    next.config = gateway.config ∨
      gateway.config.blockedmaclist.length < next.config.blockedmaclist.length := by
  induction transitions with
  | refl => exact .inl rfl
  | tail _ transition induction =>
      rcases config_of_unedited transition with same | longer
      · rwa [same]
      · rcases induction with same | already
        · rw [← same]
          exact .inr longer
        · exact .inr (already.trans longer)

/-- Transitions without edits that end where they began as regards the
configuration. -/
theorem ClientsClassified.unediteds {gateway next : Gateway}
    (classified : gateway.ClientsClassified) (transitions : Transitions unedited gateway next)
    (config : next.config = gateway.config) : next.ClientsClassified := by
  induction transitions with
  | refl => exact classified
  | @tail middle next before transition induction =>
      have unchanged : middle.config = gateway.config := by
        rcases config_of_unediteds before with same | longer
        · exact same
        · rcases config_of_unedited transition with same | longerYet
          · exact same.symm.trans config
          · rw [config] at longerYet
            omega
      refine (induction unchanged).transition transition fun node _ => ?_
      rw [config, unchanged]

theorem authChangeState_config (gateway : Gateway) (node : Node) {newState : BitVec 32}
    (reason : Option String) (other : newState ≠ gateway.marks.blocked) :
    (gateway.authChangeState node newState reason).2.config = gateway.config := by
  rcases gateway.authChangeState_cases node newState reason with
    ⟨_, _, equal⟩ | ⟨_, _, equal⟩ | ⟨_, blocked, _⟩ | equal
  · rw [equal, enterAuthenticated_config]
  · rw [equal, leaveAuthenticated_config]
  · exact absurd blocked other
  · rw [equal]

theorem preauthenticated_ne_blocked (marks : AcceptedMarks) :
    preauthenticatedState ≠ marks.blocked :=
  fun equal => marks.blocked_ne_zero equal.symm

theorem authClientAuth_config (gateway : Gateway) (id : BitVec 32) (reason : Option String) :
    (gateway.authClientAuth id reason).2.config = gateway.config := by
  rw [authClientAuth]
  split
  · rfl
  · exact authChangeState_config _ _ _ gateway.marks.authenticated_ne_blocked

theorem authClientDeauth_config (gateway : Gateway) (id : BitVec 32) (reason : Option String) :
    (gateway.authClientDeauth id reason).2.config = gateway.config := by
  rw [authClientDeauth]
  split
  · rfl
  · exact authChangeState_config _ _ _ (preauthenticated_ne_blocked _)

theorem authClientDeauthAll_config (gateway : Gateway) :
    gateway.authClientDeauthAll.config = gateway.config := by
  apply foldl_keeps
  intro current node
  split
  · rfl
  · exact authChangeState_config _ _ _ (preauthenticated_ne_blocked _)

theorem libmicrohttpdCb_config (gateway : Gateway) (request : Request) :
    (gateway.libmicrohttpdCb request).2.config = gateway.config := by
  have found := (gateway.requestClient_keeps request).1
  simp only [libmicrohttpdCb]
  split
  · next equal => rwa [equal] at found
  · next node next equal =>
      rw [equal] at found
      split
      · exact found
      · exact (authClientDeauth_config _ _ _).trans found
      · have authenticated := fun id reason => (authClientAuth_config next id reason).trans found
        split
        · exact authenticated _ _
        · exact authenticated _ _

/-! ## The end of a session -/

/-- `fw_refresh_client_list` ends the session of this client and blocks its MAC. -/
def EndsBlocked (gateway : Gateway) (client : Client) : Prop :=
  let config := gateway.config
  let timeout := client.sessionEnd > 0 ∧ client.sessionEnd ≤ gateway.clock
  client.fwConnectionState = gateway.marks.authenticated ∧
    (timeout ∧ config.sessionTimeoutBlock > 0 ∨
      ¬ timeout ∧ config.sessionLimitBlock > 0 ∧
        client.counters.incoming / 1000 > toUInt64 (toInt32 (config.sessionLimitBlock * 1000)))

instance (gateway : Gateway) (client : Client) : Decidable (gateway.EndsBlocked client) :=
  inferInstanceAs (Decidable (_ ∧ (_ ∧ _ ∨ ¬ (_ ∧ _) ∧ _ ∧ _)))

theorem refreshClient_config {gateway : Gateway} {node : Node}
    (other : ¬ gateway.EndsBlocked node.client) :
    (gateway.refreshClient node).config = gateway.config := by
  have blocking (reason : Option String)
      (refused : node.client.fwConnectionState ≠ gateway.marks.authenticated) :
      (gateway.authChangeState node gateway.marks.blocked reason).2.config = gateway.config := by
    rcases gateway.authChangeState_cases node gateway.marks.blocked reason with
      ⟨_, authenticated, _⟩ | ⟨_, fresh, _⟩ | ⟨state, _, _⟩ | equal
    · exact absurd authenticated.symm gateway.marks.authenticated_ne_blocked
    · exact absurd fresh gateway.marks.blocked_ne_zero
    · exact absurd state refused
    · rw [equal]
  have leaving (reason : Option String) :
      (gateway.authChangeState node preauthenticatedState reason).2.config = gateway.config :=
    authChangeState_config _ _ _ (preauthenticated_ne_blocked _)
  simp only [refreshClient]
  split
  · next timeout =>
      split
      · next block => exact blocking _ fun state => other ⟨state, .inl ⟨timeout, block⟩⟩
      · exact leaving _
  · next noTimeout =>
      split
      · next limit => exact blocking _ fun state => other ⟨state, .inr ⟨noTimeout, limit⟩⟩
      · split
        · rfl
        · split
          · exact leaving _
          · rfl

theorem EndsBlocked.leaveBlocked {gateway : Gateway} {node : Node}
    (ends : gateway.EndsBlocked node.client) :
    ∃ reason, gateway.refreshClient node = gateway.leaveBlocked node reason := by
  rcases ends with ⟨state, ⟨timeout, block⟩ | ⟨noTimeout, limit⟩⟩
  · refine ⟨some "timeout_deauth_block", ?_⟩
    simp only [refreshClient, if_pos timeout, if_pos block,
      authChangeState_of_blocking gateway _ state]
  · refine ⟨some "limitout_deauth_block", ?_⟩
    simp only [refreshClient, if_neg noTimeout, if_pos limit,
      authChangeState_of_blocking gateway _ state]

def Spares (gateway : Gateway) (text : String) (command : MacCommand) : Prop :=
  ∀ node ∈ gateway.clients.nodes, ¬ gateway.config.Reclassifies text command node.client.mac

instance (gateway : Gateway) (text : String) (command : MacCommand) :
    Decidable (gateway.Spares text command) :=
  inferInstanceAs (Decidable (∀ node ∈ gateway.clients.nodes, _))

def VisitSpares (gateway : Gateway) (visited : Node) : Prop :=
  ∀ node, gateway.clients.findById visited.client.id = some node → gateway.EndsBlocked node.client →
    ∀ other ∈ gateway.clients.nodes, other.address ≠ node.address →
      ¬ gateway.config.Reclassifies node.client.mac .block other.client.mac

def PassSpares (gateway : Gateway) : List Node → Prop
  | [] => True
  | node :: ahead => gateway.VisitSpares node ∧ (gateway.refreshVisit node).PassSpares ahead

namespace ClientsClassified

variable {gateway : Gateway}

theorem editMacs (classified : gateway.ClientsClassified) {text : String} {command : MacCommand}
    (spares : gateway.Spares text command) : (gateway.editMacs text command).ClientsClassified := by
  have transition : Transition (.all .sessions) gateway (gateway.editMacs text command) :=
    .editMacs gateway text command trivial
  apply classified.transition transition
  intro node member
  rw [editMacs_clients] at member
  exact classify_editMacs (spares node member) _

theorem refreshVisit (classified : gateway.ClientsClassified) {visited : Node}
    (spares : gateway.VisitSpares visited) : (gateway.refreshVisit visited).ClientsClassified := by
  rw [Gateway.refreshVisit]
  split
  · exact classified
  · next node found =>
      have member := (ClientList.mem_of_findById found).1
      by_cases ends : gateway.EndsBlocked node.client
      · rcases ends.leaveBlocked with ⟨reason, equal⟩
        have block : Transition (.all .sessions) gateway (gateway.leaveBlocked node reason) :=
          .block reason member ends.1
        rw [equal]
        apply classified.transition block
        intro other inList
        rw [leaveBlocked_clients] at inList
        rcases ClientList.mem_delete_iff.mp inList with ⟨inGateway, different⟩
        rw [leaveBlocked_config]
        exact classify_editMacs (spares node found ends other inGateway different) _
      · exact classified.unediteds (refreshClient_transitions gateway node member)
          (refreshClient_config ends)

theorem pass (classified : gateway.ClientsClassified) {ahead : List Node}
    (spares : gateway.PassSpares ahead) :
    (ahead.foldl Gateway.refreshVisit gateway).ClientsClassified := by
  induction ahead generalizing gateway with
  | nil => exact classified
  | cons node ahead induction => exact induction (classified.refreshVisit spares.1) spares.2

theorem iptablesFwCountersUpdate (classified : gateway.ClientsClassified)
    (outgoingRead incomingRead : Bool) :
    (Gateway.iptablesFwCountersUpdate outgoingRead incomingRead gateway).2.ClientsClassified :=
  classified.unediteds (iptablesFwCountersUpdate_transitions _ _ _)
    (iptablesFwCountersUpdate_config _ _ _)

theorem ndsctlHandler (classified : gateway.ClientsClassified) (outgoingRead incomingRead : Bool)
    {command : NdsctlCommand}
    (spares : ∀ text edit, command.edit = some (text, edit) → gateway.Spares text edit) :
    (gateway.ndsctlHandler outgoingRead incomingRead command).2.ClientsClassified := by
  cases command with
  | status | clients | json => exact classified.iptablesFwCountersUpdate _ _
  | block mac => exact classified.editMacs (spares mac .block rfl)
  | unblock mac => exact classified.editMacs (spares mac .unblock rfl)
  | allow mac => exact classified.editMacs (spares mac .allow rfl)
  | unallow mac => exact classified.editMacs (spares mac .unallow rfl)
  | trust mac => exact classified.editMacs (spares mac .trust rfl)
  | untrust mac => exact classified.editMacs (spares mac .untrust rfl)
  | auth target =>
      simp only [Gateway.ndsctlHandler, ndsctlAuth]
      split
      · exact classified.unediteds (authClientAuth_transitions _ _ _) (authClientAuth_config _ _ _)
      · exact classified
  | deauth target =>
      simp only [Gateway.ndsctlHandler, ndsctlDeauth]
      split
      · exact classified.unediteds (authClientDeauth_transitions _ _ _)
          (authClientDeauth_config _ _ _)
      · exact classified
  | debuglevel level => exact classified

end ClientsClassified

def EventSpares (gateway : Gateway) : Event → Prop
  | .ndsctl _ _ command =>
      ∀ text edit, command.edit = some (text, edit) → gateway.Spares text edit
  | .refresh outgoingRead incomingRead =>
      let counted := iptablesFwCountersUpdate outgoingRead incomingRead gateway
      counted.1 = true → counted.2.PassSpares counted.2.clients.nodes
  | _ => True

theorem ClientsClassified.handle {gateway : Gateway} (classified : gateway.ClientsClassified)
    {event : Event} (spares : gateway.EventSpares event) :
    (gateway.handle event).ClientsClassified := by
  cases event with
  | request request =>
      have permitted : unedited.Permit (.request request) := ⟨rfl, fun _ _ => trivial⟩
      exact classified.unediteds (libmicrohttpdCb_transitions permitted.1 gateway permitted.2)
        (libmicrohttpdCb_config gateway request)
  | ndsctl outgoingRead incomingRead command => exact classified.ndsctlHandler _ _ spares
  | refresh outgoingRead incomingRead =>
      have counted := classified.iptablesFwCountersUpdate outgoingRead incomingRead
      simp only [Gateway.handle, fwRefreshClientList_eq]
      split
      · next updated => exact counted.pass (spares updated)
      · exact counted
  | deauthAll =>
      exact classified.unediteds (authClientDeauthAll_transitions gateway)
        (authClientDeauthAll_config gateway)
  | traffic => exact classified

theorem clientsClassified_of_started {environment : Environment} {gateway : Gateway}
    (started : mainLoop environment = some gateway) : gateway.ClientsClassified := by
  rcases mainLoop_cases started with ⟨initial, _, fresh, ⟨accepted, rfl⟩ | ⟨_, recovered, _⟩⟩
  · rcases admission_of_stateFileImport accepted with ⟨records, _, admission⟩
    rcases admission.counts with ⟨config, marks, _, _⟩
    have clients := admission.clients
    rw [fresh.nodes, List.map_nil, List.nil_append] at clients
    intro node member
    have listed : node.client ∈ _ := List.mem_map_of_mem member
    rw [clients] at listed
    rcases List.mem_map.mp listed with ⟨record, _, equal⟩
    rw [← equal, config, marks, Client.Classified]
    simp only [ClientRecord.client, ClientRecord.restoredState]
    split
    · next restored => exact .inr ⟨rfl, restored.1⟩
    · exact .inl rfl
  · intro node member
    rw [recovered.nodes] at member
    cases member

end Gateway

/-! ## Runs -/

namespace Daemon

/-- No command at this moment changes what a client on the list should be, unless
it ends the session of that client. -/
def SparesClients (daemon : Daemon) : Moment → Prop
  | .handle now event =>
      daemon.ahead = [] → { daemon.gateway with clock := now }.EventSpares event
  | .beginPass _ _ _ => True
  | .visit => ∀ node ahead, daemon.ahead = node :: ahead → daemon.gateway.VisitSpares node
  | .editMacs text command => daemon.gateway.Spares text command

theorem clientsClassified_take {daemon : Daemon} {moment : Moment}
    (classified : daemon.gateway.ClientsClassified) (spares : daemon.SparesClients moment) :
    (daemon.take moment).gateway.ClientsClassified := by
  have clocked (now : Int) : { daemon.gateway with clock := now }.ClientsClassified := classified
  cases moment with
  | handle now event =>
      simp only [take]
      split
      · next none => exact (clocked now).handle (spares none)
      · exact classified
  | beginPass now outgoingRead incomingRead =>
      simp only [take]
      split
      · exact (clocked now).iptablesFwCountersUpdate outgoingRead incomingRead
      · exact classified
  | visit =>
      simp only [take]
      split
      · exact classified
      · next node ahead visiting => exact classified.refreshVisit (spares node ahead visiting)
  | editMacs text command => exact classified.editMacs spares

end Daemon

theorem Client.Classified.states {config : Config} {marks : AcceptedMarks} {client : Client}
    (classified : client.Classified config marks.toMarks) :
    (client.fwConnectionState = marks.blocked ↔ config.isBlockedMac client.mac = true) ∧
      (client.fwConnectionState = marks.trusted ↔ config.isBlockedMac client.mac = false ∧
        (config.isAllowedMac client.mac = true ∨ config.isTrustedMac client.mac = true)) ∧
      (config.isBlockedMac client.mac = false → config.isAllowedMac client.mac = false →
        config.isTrustedMac client.mac = false →
          client.fwConnectionState = preauthenticatedState ∨
            client.fwConnectionState = marks.authenticated) := by
  have freshNotBlocked : preauthenticatedState ≠ marks.blocked :=
    Gateway.preauthenticated_ne_blocked marks
  have freshNotTrusted : preauthenticatedState ≠ marks.trusted := marks.trusted_ne_zero.symm
  rw [Client.Classified, Gateway.classify] at classified
  cases blocked : config.isBlockedMac client.mac with
  | true =>
      simp only [blocked, if_true, freshNotBlocked.symm, and_false, or_false] at classified
      simp [classified, marks.blocked_ne_trusted]
  | false =>
      cases exempt : config.isAllowedMac client.mac || config.isTrustedMac client.mac with
      | true =>
          have exempted := Bool.or_eq_true_iff.mp exempt
          simp only [blocked, exempt, if_true, freshNotTrusted.symm, and_false, or_false,
            Bool.false_eq_true, if_false] at classified
          refine ⟨?_, ?_, ?_⟩
          · simp [classified, marks.blocked_ne_trusted.symm]
          · simp [classified, exempted]
          · intro _ notAllowed notTrusted
            simp [notAllowed, notTrusted] at exempt
      | false =>
          have ordinary := Bool.or_eq_false_iff.mp exempt
          simp only [blocked, exempt, Bool.false_eq_true, if_false, and_true] at classified
          rcases classified with fresh | authenticated
          · simp [fresh, freshNotBlocked, freshNotTrusted, ordinary]
          · simp [authenticated, marks.authenticated_ne_blocked,
              marks.trusted_ne_authenticated.symm, ordinary]

/-- In every run in which no command changes what a client on the list should be,
every client is blocked or trusted exactly as the MAC lists have it. -/
theorem clients_follow_mac_lists {environment : Environment} {initial : Gateway}
    {final : Daemon} {moments : List Moment} (started : mainLoop environment = some initial)
    (run : Execution.Run
      (Execution.Guarded (Execution.ofFunction Daemon.take) Daemon.SparesClients)
      ⟨initial, []⟩ moments final) :
    let config := final.gateway.config
    let marks := final.gateway.marks
    ∀ node ∈ final.gateway.clients.nodes,
      let state := node.client.fwConnectionState
      let mac := node.client.mac
      (state = marks.blocked ↔ config.isBlockedMac mac = true) ∧
        (state = marks.trusted ↔ config.isBlockedMac mac = false ∧
          (config.isAllowedMac mac = true ∨ config.isTrustedMac mac = true)) ∧
        (config.isBlockedMac mac = false → config.isAllowedMac mac = false →
          config.isTrustedMac mac = false →
            state = preauthenticatedState ∨ state = marks.authenticated) := by
  have classified : final.gateway.ClientsClassified := by
    refine run.invariant (fun daemon => daemon.gateway.ClientsClassified) ?_
      (Gateway.clientsClassified_of_started started)
    intro current moment next classified step
    rcases step with ⟨spares, rfl⟩
    exact Daemon.clientsClassified_take classified spares
  intro config marks node member
  exact (classified node member).states

/-- A client is added, another MAC is trusted, and the client gets authenticated
and is visited. -/
def sparingMoments : List Moment :=
  [.handle 1000 (.request (defaultRequest "/" fun _ => none)),
    .handle 1100 (.ndsctl true true (.trust "00:16:3e:00:00:02")),
    .editMacs "00:16:3e:00:00:03" .block,
    .handle 1200 (.ndsctl true true (.auth "192.168.42.10")),
    .beginPass 1210 true true,
    .visit]

def sparingFinal : Daemon :=
  sparingMoments.foldl Daemon.take ⟨defaultGateway, []⟩

theorem clients_follow_mac_lists_default :
    let config := sparingFinal.gateway.config
    let marks := sparingFinal.gateway.marks
    ∀ node ∈ sparingFinal.gateway.clients.nodes,
      let state := node.client.fwConnectionState
      let mac := node.client.mac
      (state = marks.blocked ↔ config.isBlockedMac mac = true) ∧
        (state = marks.trusted ↔ config.isBlockedMac mac = false ∧
          (config.isAllowedMac mac = true ∨ config.isTrustedMac mac = true)) ∧
        (config.isBlockedMac mac = false → config.isAllowedMac mac = false →
          config.isTrustedMac mac = false →
            state = preauthenticatedState ∨ state = marks.authenticated) := by
  have trusted : (defaultGateway.step (1000, .request (defaultRequest "/" fun _ => none))).Spares
      "00:16:3e:00:00:02" .trust := by decide +kernel
  have blocked : ((sparingMoments.take 2).foldl Daemon.take ⟨defaultGateway, []⟩).gateway.Spares
      "00:16:3e:00:00:03" .block := by decide +kernel
  have unending : ∀ node ∈
      ((sparingMoments.take 5).foldl Daemon.take ⟨defaultGateway, []⟩).gateway.clients.nodes,
      ¬ ((sparingMoments.take 5).foldl Daemon.take ⟨defaultGateway, []⟩).gateway.EndsBlocked
        node.client := by decide +kernel
  have run : Execution.Run
      (Execution.Guarded (Execution.ofFunction Daemon.take) Daemon.SparesClients)
      ⟨defaultGateway, []⟩ sparingMoments sparingFinal := by
    refine .cons ⟨fun _ => trivial, rfl⟩ (.cons ⟨fun _ text edit equal => ?_, rfl⟩
      (.cons ⟨blocked, rfl⟩ (.cons ⟨fun _ _ _ => nofun, rfl⟩ (.cons ⟨trivial, rfl⟩
        (.cons ⟨fun _ _ _ node found ends => ?_, rfl⟩ (.nil _))))))
    · cases equal
      exact trusted
    · exact absurd ends (unending node (ClientList.mem_of_findById found).1)
  exact clients_follow_mac_lists mainLoop_defaultGateway run

/-- A client that came while its MAC was blocked is still blocked after the MAC
has been unblocked, and cannot get authenticated. -/
theorem unblocked_client_stays_blocked :
    let blocked := defaultGateway.step (1000, .ndsctl true true (.block "00:16:3e:00:00:01"))
    let visited := blocked.step (1000, .request (defaultRequest "/" fun _ => none))
    let final := visited.step (1100, .ndsctl true true (.unblock "00:16:3e:00:00:01"))
    mainLoop defaultEnvironment = some defaultGateway ∧
      (defaultGateway.authClientBlock "00:16:3e:00:00:01").1 = 0 ∧
      (visited.authClientUnblock "00:16:3e:00:00:01").1 = 0 ∧
      ∃ node ∈ final.clients.nodes, node.client.mac = "00:16:3e:00:00:01" ∧
        node.client.fwConnectionState = final.marks.blocked ∧
        final.config.isBlockedMac node.client.mac = false ∧
        (final.authClientAuth node.client.id (some "ndsctl_auth")).1 = -1 := by
  refine ⟨mainLoop_defaultGateway, ?_⟩
  decide +kernel

end Nodogsplash
