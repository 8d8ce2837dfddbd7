import Nodogsplash.RequestAuthorization

/-! # The threads of the daemon

The web thread, the ndsctl thread and the timeout thread take turns at the
granularity of their critical sections. -/

namespace Nodogsplash

/-- Where the web thread is between two sections. `writing` is the time between
`auth_client_auth` and the end of the writes of `authenticate_client`. -/
inductive WebThread
  | idle
  | deciding (request : Request) (address : Nat)
  | deauthenticating (id : BitVec 32)
  | authenticating (address : Nat) (id : BitVec 32) (reason : Option String)
      (limits : SessionLimits) (now : Int)
  | writing (address : Nat) (limits : SessionLimits) (now : Int)

/-- `ndsctl_deauth` releases the lock between its lookup and the deauthentication. -/
inductive NdsctlThread
  | idle
  | deauthenticating (id : BitVec 32)
  deriving DecidableEq

/-- The shared variables and the progress of the threads. The timeout thread
reads the counters and then has one section. -/
structure Threads where
  gateway : Gateway
  web : WebThread
  ndsctl : NdsctlThread

/-- What happens next. `counters` is `iptables_fw_counters_update` in the timeout
thread or in the ndsctl thread. `freed` is what the web thread decides on when
the client it has found is not on the list any more. -/
inductive Section
  | clock (now : Int)
  | webRequest (request : Request)
  | webDecide (freed : Decision)
  | webEnter
  | webWrite
  | counters (outgoingRead incomingRead : Bool)
  | ndsctlAuth (target : String)
  | ndsctlLookup (target : String)
  | ndsctlDeauth
  | editMacs (mac : String) (command : MacCommand)
  | refresh

namespace Threads

/-- The threads when `main_loop` has started them. -/
def start (gateway : Gateway) : Threads := ⟨gateway, .idle, .idle⟩

/-- `libmicrohttpd_cb` finds or adds the client. -/
def webRequest (threads : Threads) (request : Request) : Threads :=
  match threads.web with
  | .idle =>
      match threads.gateway.requestClient request with
      | (some node, gateway) =>
          { threads with gateway, web := .deciding request node.address }
      | (none, gateway) => { threads with gateway }
  | _ => threads

def WebThread.next (address : Nat) (now : Int) : Decision → WebThread
  | .respond _ => .idle
  | .deauthenticate id => .deauthenticating id
  | .authenticate id reason _ limits => .authenticating address id reason limits now

def webDecide (threads : Threads) (freed : Decision) : Threads :=
  match threads.web with
  | .deciding request address =>
      let found := threads.gateway.clients.nodes.find? fun node => decide (node.address = address)
      let decision := match found with
        | some node => threads.gateway.route request node.client
        | none => freed
      { threads with web := WebThread.next address threads.gateway.clock decision }
  | _ => threads

/-- `auth_client_deauth` or `auth_client_auth`. -/
def webEnter (threads : Threads) : Threads :=
  match threads.web with
  | .deauthenticating id =>
      { threads with
        gateway := (threads.gateway.authClientDeauth id (some "client_deauth")).2
        web := .idle }
  | .authenticating address id reason limits now =>
      let result := threads.gateway.authClientAuth id reason
      { threads with
        gateway := result.2
        web := if result.1 = 0 then .writing address limits now else .idle }
  | _ => threads

/-- The writes of `authenticate_client`. -/
def webWrite (threads : Threads) : Threads :=
  match threads.web with
  | .writing address limits now =>
      { threads with
        gateway := threads.gateway.modifyClient address (Gateway.sessionFields now limits)
        web := .idle }
  | _ => threads

/-- The lookup of `ndsctl_deauth`. -/
def ndsctlLookup (threads : Threads) (target : String) : Threads :=
  match threads.ndsctl with
  | .idle =>
      let id := threads.gateway.ndsctlId target
      if id ≠ 0 then { threads with ndsctl := .deauthenticating id } else threads
  | _ => threads

/-- The deauthentication of `ndsctl_deauth`. -/
def ndsctlDeauth (threads : Threads) : Threads :=
  match threads.ndsctl with
  | .deauthenticating id =>
      { threads with
        gateway := (threads.gateway.authClientDeauth id (some "ndsctl_deauth")).2
        ndsctl := .idle }
  | .idle => threads

def take (threads : Threads) : Section → Threads
  | .clock now => { threads with gateway.clock := now }
  | .webRequest request => threads.webRequest request
  | .webDecide freed => threads.webDecide freed
  | .webEnter => threads.webEnter
  | .webWrite => threads.webWrite
  | .counters outgoingRead incomingRead =>
      let updated := Gateway.iptablesFwCountersUpdate outgoingRead incomingRead threads.gateway
      { threads with gateway := updated.2 }
  | .ndsctlAuth target =>
      if threads.ndsctl = .idle then
        { threads with gateway := (threads.gateway.ndsctlAuth target).2 }
      else threads
  | .ndsctlLookup target => threads.ndsctlLookup target
  | .ndsctlDeauth => threads.ndsctlDeauth
  | .editMacs mac command =>
      if threads.ndsctl = .idle then
        { threads with gateway := threads.gateway.editMacs mac command }
      else threads
  | .refresh =>
      let refreshed := Gateway.forEachClient Gateway.refreshClient threads.gateway
      { threads with gateway := refreshed }

/-- Runs of the threads. -/
abbrev ThreadRun : Threads → List Section → Threads → Prop :=
  Execution.Run (Execution.ofFunction take)

theorem authClientAuth_clock (gateway : Gateway) (id : BitVec 32) (reason : Option String) :
    (gateway.authClientAuth id reason).2.clock = gateway.clock := by
  rw [Gateway.authClientAuth]
  split
  · rfl
  · rename_i node _
    rcases gateway.authChangeState_cases node gateway.marks.authenticated reason with
      ⟨_, _, changed⟩ | ⟨_, target, _⟩ | ⟨_, target, _⟩ | changed
    · simp only [changed, Gateway.enterAuthenticated, Gateway.record, Gateway.setState,
        Gateway.modifyClient, Gateway.binauthAction, Gateway.iptablesFwAuthenticate]
    · exact absurd target gateway.marks.authenticated_ne_zero
    · exact absurd target gateway.marks.authenticated_ne_blocked
    · rw [changed]

theorem sections_of_request (gateway : Gateway) (ndsctl : NdsctlThread) (request : Request)
    (freed : Decision) :
    [.webRequest request, .webDecide freed, .webEnter, .webWrite].foldl take
        ⟨gateway, .idle, ndsctl⟩ =
      ⟨(gateway.libmicrohttpdCb request).2, .idle, ndsctl⟩ := by
  simp only [List.foldl_cons, List.foldl_nil, take, webRequest, Gateway.libmicrohttpdCb]
  rcases result : gateway.requestClient request with ⟨client, found⟩
  cases client with
  | none => rfl
  | some node =>
      have member := (Gateway.requestClient_spec result).1
      have itself : found.clients.nodes.find? (fun other =>
          decide (other.address = node.address)) = some node :=
        KeyedList.find?_key Node.address found.clients.distinct member
      simp only [webDecide, itself]
      cases decision : found.route request node.client with
      | respond response => rfl
      | deauthenticate id => rfl
      | authenticate id reason redirectUrl limits =>
          have clock := authClientAuth_clock found id reason
          by_cases succeeded : (found.authClientAuth id reason).1 = 0
          · simp [WebThread.next, webEnter, webWrite, succeeded, clock]
          · simp [WebThread.next, webEnter, webWrite, succeeded]

structure Permitted (permits : Permissions) (taken : Section) : Prop where
  writes : taken = .webWrite → permits.assigns ≠ .counters
  adds : ∀ request, taken = .webRequest request → ∀ mac, permits.adds mac
  edits : ∀ mac command, taken = .editMacs mac command → permits.edits mac command

theorem take_actions (threads : Threads) {permits : Permissions} {taken : Section}
    (uncounted : ∀ outgoingRead incomingRead, taken ≠ .counters outgoingRead incomingRead)
    (permitted : Permitted permits taken) :
    Gateway.Actions permits threads.gateway (threads.take taken).gateway := by
  cases taken with
  | clock now => exact .single (.clock _ now)
  | webRequest request =>
      have found : Gateway.Actions permits threads.gateway
          (threads.gateway.requestClient request).2 :=
        Gateway.requestClient_actions threads.gateway fun mac _ => permitted.adds request rfl mac
      simp only [take, webRequest]
      split
      · split <;> (rename_i equal; rwa [equal] at found)
      · exact .refl
  | webDecide freed =>
      simp only [take, webDecide]
      split <;> exact .refl
  | webEnter =>
      simp only [take, webEnter]
      split
      · exact Gateway.authClientDeauth_actions _ _ _
      · exact Gateway.authClientAuth_actions _ _ _
      · exact .refl
  | webWrite =>
      simp only [take, webWrite]
      split
      · exact .single (.limits _ _ _ _ (permitted.writes rfl))
      · exact .refl
  | counters outgoingRead incomingRead => exact absurd rfl (uncounted _ _)
  | ndsctlAuth target =>
      simp only [take]
      split
      · simp only [Gateway.ndsctlAuth]
        split
        · exact Gateway.authClientAuth_actions _ _ _
        · exact .refl
      · exact .refl
  | ndsctlLookup target =>
      simp only [take, ndsctlLookup]
      split
      · split <;> exact .refl
      · exact .refl
  | ndsctlDeauth =>
      simp only [take, ndsctlDeauth]
      split
      · exact Gateway.authClientDeauth_actions _ _ _
      · exact .refl
  | editMacs mac command =>
      simp only [take]
      split
      · exact .single (.editMacs _ mac command (permitted.edits mac command rfl))
      · exact .refl
  | refresh => exact Gateway.forEachClient_steps Gateway.refreshClient_actions _

theorem take_all_transitions (threads : Threads) {assigns : Assigns} {taken : Section}
    (writes : taken = .webWrite → assigns ≠ .counters) :
    Gateway.Transitions (.all assigns) threads.gateway (threads.take taken).gateway := by
  by_cases counted : ∃ outgoingRead incomingRead, taken = .counters outgoingRead incomingRead
  · rcases counted with ⟨outgoingRead, incomingRead, rfl⟩
    exact Gateway.iptablesFwCountersUpdate_transitions _ _ _
  · have uncounted (outgoingRead incomingRead : Bool) :
        taken ≠ .counters outgoingRead incomingRead :=
      fun equal => counted ⟨_, _, equal⟩
    have permitted : Permitted (.all assigns) taken :=
      ⟨writes, fun _ _ _ => trivial, fun _ _ _ => trivial⟩
    exact (threads.take_actions uncounted permitted).transitions

end Threads

end Nodogsplash
