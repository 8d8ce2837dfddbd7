import Nodogsplash.Start
import Nodogsplash.Foundation.LockProgram

/-! # The locks of the daemon

What the web thread, the timeout thread and the ndsctl thread do to
`client_list_mutex` and `config_mutex`, and the requests of the BinAuth scripts
they wait for. -/

namespace Nodogsplash

open LockProgram

inductive Mutex
  | clientList
  | config
  deriving DecidableEq

/-- `config_mutex` is taken while `client_list_mutex` is held. -/
def Mutex.rank : Mutex → Nat
  | .clientList => 1
  | .config => 0

inductive DaemonThread
  | web
  | timeout
  deriving DecidableEq

/-- The ndsctl requests that runs of the BinAuth script may make: `action` those
of `binauth_action`, `decision` those of `do_binauth`. -/
structure Binauth where
  action : Set (List NdsctlCommand)
  decision : Set (List NdsctlCommand)

namespace Locks

/-- A part of the code of a thread or of the script it waits for. -/
abbrev Code := Program Mutex NdsctlCommand

def lockClientList (body : Code) : Code :=
  .acquire .clientList :: body ++ [.release .clientList]

def lockConfig (body : Code) : Code :=
  .acquire .config :: body ++ [.release .config]

/-- `execute` a script. -/
def execute (requests : List NdsctlCommand) : Code := .work :: requests.map .call

def binauthAction : Option Binauth → Set Code
  | some script => execute '' script.action
  | none => {[]}

def doBinauth : Option Binauth → Set Code
  | some script => execute '' script.decision
  | none => {[]}

/-- The iptables and tc commands follow after the limits have been read. -/
def iptablesFwAuthenticate : Code := lockConfig [] ++ [.work]

def iptablesFwDeauthenticate : Code := lockConfig [] ++ [.work]

def authClientMac : Code := lockConfig [.work]

def iptablesFwCountersUpdate : Code := lockClientList [.work]

section

variable (marks : AcceptedMarks) (binauth : Option Binauth)

/-- `auth_change_state`, with what `binauth_action` does. -/
def authChangeState (state newState : BitVec 32) (action : Code) : Code :=
  if state = newState then []
  else if state = preauthenticatedState then
    if newState = marks.authenticated then iptablesFwAuthenticate ++ action else []
  else if state = marks.authenticated then
    if newState = preauthenticatedState then iptablesFwDeauthenticate ++ action
    else if newState = marks.blocked then iptablesFwDeauthenticate ++ action ++ authClientMac
    else []
  else []

/-- What is done to one client: nothing, or a call of `auth_change_state`. -/
def changes : Set Code :=
  {code | code = [] ∨ ∃ state newState, ∃ action ∈ binauthAction binauth,
    code = authChangeState marks state newState action}

/-- `auth_client_auth` and `auth_client_deauth`. -/
def authClient : Set Code := lockClientList '' changes marks binauth

/-- `fw_refresh_client_list`, which returns early without counters. -/
def fwRefreshClientList : Set Code :=
  {code | code = iptablesFwCountersUpdate ∨
    ∃ visits : List Code, (∀ visit ∈ visits, visit ∈ changes marks binauth) ∧
      code = iptablesFwCountersUpdate ++ lockClientList visits.flatten}

/-- `libmicrohttpd_cb`: the client may have to be added, then the request may
deauthenticate it, or authenticate it if the script allows. -/
def libmicrohttpdCb : Set Code :=
  {code | ∃ added answer, (added = [] ∨ added = lockClientList []) ∧
    (answer = [] ∨ answer ∈ authClient marks binauth ∨ answer ∈ doBinauth binauth ∨
      ∃ decision ∈ doBinauth binauth, ∃ change ∈ authClient marks binauth,
        answer = decision ++ change) ∧
    code = added ++ answer}

/-- `ndsctl_handler`. -/
def ndsctlHandler : NdsctlCommand → Set Code
  | .status | .clients | .json => {iptablesFwCountersUpdate ++ lockClientList []}
  | .block _ | .unblock _ | .allow _ | .unallow _ | .trust _ | .untrust _ => {authClientMac}
  | .debuglevel _ => {lockConfig []}
  | .auth _ => authClient marks binauth
  | .deauth _ =>
      {code | code = lockClientList [] ∨ ∃ change ∈ authClient marks binauth,
        code = lockClientList [] ++ change}

/-- The threads of the daemon, and the ndsctl thread as their server. -/
def system : System DaemonThread Mutex NdsctlCommand where
  thread
    | .web => libmicrohttpdCb marks binauth
    | .timeout => fwRefreshClientList marks binauth
  request := ndsctlHandler marks binauth

end

/-! ## Scripts without requests -/

/-- The runs of `binauth_action` make no requests. -/
def SilentActions (binauth : Option Binauth) : Prop :=
  ∀ script ∈ binauth, ∀ requests ∈ script.action, requests = []

section

variable {marks : AcceptedMarks} {binauth : Option Binauth}

theorem binauthAction_of_silent (silent : SilentActions binauth) {action : Code}
    (member : action ∈ binauthAction binauth) : action = [] ∨ action = [.work] := by
  cases binauth with
  | none => exact .inl member
  | some script =>
      rcases member with ⟨requests, member, rfl⟩
      rw [silent script rfl requests member]
      exact .inr rfl

theorem doBinauth_balanced {decision : Code} (member : decision ∈ doBinauth binauth) :
    Balanced Mutex.rank ∅ decision := by
  cases binauth with
  | none =>
      rw [Set.mem_singleton_iff.mp member]
      exact .nil
  | some script =>
      rcases member with ⟨requests, _, rfl⟩
      exact Balanced.work.append (.calls requests)

/-- Code that is in order where at most the client list is locked, and makes no
calls. -/
structure Quiet (code : Code) : Prop where
  balanced : ∀ held : Set Mutex, .config ∉ held → Balanced Mutex.rank held code
  silent : Silent code

namespace Quiet

theorem nil : Quiet [] := ⟨fun _ _ => .nil, fun _ => List.not_mem_nil⟩

theorem work : Quiet [.work] := ⟨fun _ _ => .work, by simp [Silent]⟩

theorem append {first second : Code} (left : Quiet first) (right : Quiet second) :
    Quiet (first ++ second) := by
  constructor
  · intro held free
    exact (left.balanced held free).append (right.balanced held free)
  · exact left.silent.append right.silent

theorem flatten {parts : List Code} (quiet : ∀ part ∈ parts, Quiet part) :
    Quiet parts.flatten := by
  constructor
  · intro held free
    exact .flatten fun part member => (quiet part member).balanced held free
  · intro request member
    rcases List.mem_flatten.mp member with ⟨part, partMember, member⟩
    exact (quiet part partMember).silent request member

theorem lockConfig {body : Code} (balanced : ∀ held, Balanced Mutex.rank held body)
    (silent : Silent body) : Quiet (lockConfig body) := by
  constructor
  · intro held free
    apply Balanced.between _ (balanced _)
    intro other member
    cases other with
    | clientList => decide
    | config => exact absurd member free
  · intro request member
    simp only [Locks.lockConfig, List.cons_append, List.mem_cons, List.mem_append, reduceCtorEq,
      List.not_mem_nil, or_false, false_or] at member
    exact silent request member

theorem lockClientList {body : Code} (quiet : Quiet body) :
    Balanced Mutex.rank ∅ (lockClientList body) ∧ Silent (lockClientList body) := by
  constructor
  · apply Balanced.between nofun
    exact quiet.balanced _ (by simp)
  · intro request member
    simp only [Locks.lockClientList, List.cons_append, List.mem_cons, List.mem_append,
      reduceCtorEq, List.not_mem_nil, or_false, false_or] at member
    exact quiet.silent request member

end Quiet

theorem quiet_readLimits : Quiet (lockConfig [] ++ [.work]) :=
  (Quiet.lockConfig (fun _ => .nil) Quiet.nil.silent).append .work

theorem quiet_authClientMac : Quiet authClientMac :=
  Quiet.lockConfig (fun _ => .work) Quiet.work.silent

theorem quiet_authChangeState (state newState : BitVec 32) {action : Code} (quiet : Quiet action) :
    Quiet (authChangeState marks state newState action) := by
  have limited := quiet_readLimits.append quiet
  rw [authChangeState]
  split
  · exact .nil
  · split
    · split
      · exact limited
      · exact .nil
    · split
      · split
        · exact limited
        · split
          · exact limited.append quiet_authClientMac
          · exact .nil
      · exact .nil

theorem quiet_of_changes (silent : SilentActions binauth) {change : Code}
    (member : change ∈ changes marks binauth) : Quiet change := by
  rcases member with rfl | ⟨state, newState, action, member, rfl⟩
  · exact .nil
  · apply quiet_authChangeState
    rcases binauthAction_of_silent silent member with rfl | rfl
    · exact .nil
    · exact .work

theorem authClient_spec (silent : SilentActions binauth) {code : Code}
    (member : code ∈ authClient marks binauth) :
    Balanced Mutex.rank ∅ code ∧ Silent code := by
  rcases member with ⟨change, member, rfl⟩
  exact (quiet_of_changes silent member).lockClientList

theorem iptablesFwCountersUpdate_spec :
    Balanced Mutex.rank ∅ iptablesFwCountersUpdate ∧ Silent iptablesFwCountersUpdate :=
  Quiet.work.lockClientList

theorem fwRefreshClientList_balanced (silent : SilentActions binauth) {code : Code}
    (member : code ∈ fwRefreshClientList marks binauth) : Balanced Mutex.rank ∅ code := by
  rcases member with rfl | ⟨visits, visited, rfl⟩
  · exact iptablesFwCountersUpdate_spec.1
  · apply iptablesFwCountersUpdate_spec.1.append
    exact (Quiet.flatten fun visit member =>
      quiet_of_changes silent (visited visit member)).lockClientList.1

theorem libmicrohttpdCb_balanced (silent : SilentActions binauth) {code : Code}
    (member : code ∈ libmicrohttpdCb marks binauth) : Balanced Mutex.rank ∅ code := by
  rcases member with ⟨added, answer, addition, answers, rfl⟩
  apply Balanced.append
  · rcases addition with rfl | rfl
    · exact .nil
    · exact Quiet.nil.lockClientList.1
  · rcases answers with rfl | change | decision | ⟨decision, decided, change, changed, rfl⟩
    · exact .nil
    · exact (authClient_spec silent change).1
    · exact doBinauth_balanced decision
    · exact (doBinauth_balanced decided).append (authClient_spec silent changed).1

theorem ndsctlHandler_spec (silent : SilentActions binauth) {command : NdsctlCommand}
    {code : Code} (member : code ∈ ndsctlHandler marks binauth command) :
    Balanced Mutex.rank ∅ code ∧ Silent code := by
  have look := Quiet.nil.lockClientList
  have report : Balanced Mutex.rank ∅ (iptablesFwCountersUpdate ++ lockClientList []) ∧
      Silent (iptablesFwCountersUpdate ++ lockClientList []) :=
    ⟨iptablesFwCountersUpdate_spec.1.append look.1, iptablesFwCountersUpdate_spec.2.append look.2⟩
  have edit : Balanced Mutex.rank ∅ authClientMac ∧ Silent authClientMac :=
    ⟨quiet_authClientMac.balanced ∅ nofun, quiet_authClientMac.silent⟩
  cases command with
  | status | clients | json =>
      rw [Set.mem_singleton_iff.mp member]
      exact report
  | block | unblock | allow | unallow | trust | untrust =>
      rw [Set.mem_singleton_iff.mp member]
      exact edit
  | debuglevel =>
      have quiet : Quiet (lockConfig []) := .lockConfig (fun _ => .nil) Quiet.nil.silent
      rw [Set.mem_singleton_iff.mp member]
      exact ⟨quiet.balanced ∅ nofun, quiet.silent⟩
  | auth => exact authClient_spec silent member
  | deauth =>
      rcases member with rfl | ⟨change, changed, rfl⟩
      · exact look
      · have entered := authClient_spec silent changed
        exact ⟨look.1.append entered.1, look.2.append entered.2⟩

theorem ndsctlHandler_nonempty (command : NdsctlCommand) :
    (ndsctlHandler marks binauth command).Nonempty := by
  cases command with
  | auth => exact ⟨_, [], .inl rfl, rfl⟩
  | deauth => exact ⟨_, .inl rfl⟩
  | _ => exact ⟨_, rfl⟩

theorem system_orderly (silent : SilentActions binauth) :
    (system marks binauth).Orderly Mutex.rank := by
  constructor
  · intro name program member
    cases name with
    | web => exact (libmicrohttpdCb_balanced silent member).disciplined
    | timeout => exact (fwRefreshClientList_balanced silent member).disciplined
  · intro request program member
    exact (ndsctlHandler_spec silent member).1.disciplined
  · intro request program member
    exact (ndsctlHandler_spec silent member).2
  · exact ndsctlHandler_nonempty

end

/-! ## Scripts with requests -/

/-- The holder of `client_list_mutex` waits for a script that waits for the
ndsctl thread, which waits for that mutex or for that script. -/
def WaitsInCircle (state : State DaemonThread Mutex NdsctlCommand) : Prop :=
  ∃ holder, state.owner .clientList = some holder ∧ (state.task holder).waiting = true ∧
    ((∃ rest, state.task .server = ⟨.acquire .clientList :: rest, false⟩) ∨ holder = .server)

theorem not_waitsInCircle {state : State DaemonThread Mutex NdsctlCommand}
    (orderly : state.Orderly Mutex.rank) : ¬ WaitsInCircle state := by
  rintro ⟨holder, held, waiting, _⟩
  have empty := orderly.unencumbered holder waiting
  have member : Mutex.clientList ∈ state.held holder := held
  rw [empty] at member
  exact member

section

variable {marks : AcceptedMarks}

def deauthenticatingPass (requests : List NdsctlCommand) : Code :=
  iptablesFwCountersUpdate ++ lockClientList (iptablesFwDeauthenticate ++ execute requests)

theorem deauthenticatingPass_mem {script : Binauth} {requests : List NdsctlCommand}
    (member : requests ∈ script.action) :
    deauthenticatingPass requests ∈ fwRefreshClientList marks (some script) := by
  have change : authChangeState marks marks.authenticated preauthenticatedState
      (execute requests) = iptablesFwDeauthenticate ++ execute requests := by
    have different : marks.authenticated ≠ preauthenticatedState := marks.authenticated_ne_zero
    rw [authChangeState, if_neg different, if_neg different, if_pos rfl, if_pos rfl]
  refine .inr ⟨[iptablesFwDeauthenticate ++ execute requests], ?_, ?_⟩
  · intro visit visited
    rw [List.mem_singleton.mp visited, ← change]
    exact .inr ⟨_, _, _, ⟨requests, member, rfl⟩, rfl⟩
  · rw [List.flatten_singleton]
    rfl

theorem stuck_of_waits {binauth : Option Binauth}
    {state : State DaemonThread Mutex NdsctlCommand} {rest : Code}
    (web : state.task (.thread .web) = ⟨[], false⟩)
    (timeout : (state.task (.thread .timeout)).waiting = true)
    (server : state.task .server = ⟨.acquire .clientList :: rest, false⟩)
    (locked : state.owner .clientList = some (.thread .timeout)) :
    Stuck (system marks binauth) state := by
  refine ⟨.inl ⟨.thread .timeout, .inr timeout⟩, ?_⟩
  intro agent next step
  rcases agent with name | _
  · cases name with
    | web => cases step <;> simp_all
    | timeout => cases step <;> simp_all
  · cases step <;> simp_all

/-- While the ndsctl thread begins to answer a request, the timeout thread ends
a session, and its script makes a request. -/
theorem stuck_of_request (marks : AcceptedMarks) {script : Binauth} {request : NdsctlCommand}
    {more : List NdsctlCommand} (member : request :: more ∈ script.action) :
    ∃ events state, Execution.Run (Step (system marks (some script))) .idle events state ∧
      Stuck (system marks (some script)) state ∧ WaitsInCircle state := by
  have idle : Execution.Run (Step (system marks (some script))) .idle [] .idle := .nil _
  have posted := idle.snoc (.post NdsctlCommand.json)
  have accepted := posted.snoc (.accept rfl rfl rfl (Set.mem_singleton _))
  have begun := accepted.snoc
    (.begin rfl (deauthenticatingPass_mem member) : Step _ _ (.begin .timeout) _)
  have first := begun.snoc (.acquire rfl rfl : Step _ _ (.advance (.thread .timeout)) _)
  have counted := first.snoc (.work rfl : Step _ _ (.advance (.thread .timeout)) _)
  have released := counted.snoc (.release rfl : Step _ _ (.advance (.thread .timeout)) _)
  have second := released.snoc (.acquire rfl rfl : Step _ _ (.advance (.thread .timeout)) _)
  have config := second.snoc (.acquire rfl rfl : Step _ _ (.advance (.thread .timeout)) _)
  have limits := config.snoc (.release rfl : Step _ _ (.advance (.thread .timeout)) _)
  have deleted := limits.snoc (.work rfl : Step _ _ (.advance (.thread .timeout)) _)
  have executed := deleted.snoc (.work rfl : Step _ _ (.advance (.thread .timeout)) _)
  have called := executed.snoc (.call rfl : Step _ _ (.advance (.thread .timeout)) _)
  exact ⟨_, _, called, stuck_of_waits rfl rfl rfl rfl,
    .thread .timeout, rfl, rfl, .inl ⟨_, rfl⟩⟩

end

/-- No state that the threads can reach is stuck or has a circle of waits, if
and only if the scripts that `binauth_action` runs make no ndsctl request. -/
theorem never_stuck_iff (marks : AcceptedMarks) (binauth : Option Binauth) :
    (∀ events state, Execution.Run (Step (system marks binauth)) .idle events state →
      ¬ Stuck (system marks binauth) state ∧ ¬ WaitsInCircle state) ↔
      SilentActions binauth := by
  constructor
  · intro free script configured requests member
    rw [Option.mem_def] at configured
    subst configured
    cases requests with
    | nil => rfl
    | cons request more =>
        rcases stuck_of_request marks member with ⟨events, state, run, stuck, _⟩
        exact absurd stuck (free events state run).1
  · intro silent events state run
    have orderly := State.Orderly.of_run (system_orderly silent) run
    exact ⟨orderly.not_stuck (system_orderly silent), not_waitsInCircle orderly⟩

/-- A script that asks for the details of its client. -/
def askingScript : Binauth := ⟨{[.json]}, {[]}⟩

theorem asking_script_stuck :
    ∃ events state,
      Execution.Run (Step (system defaultGateway.marks (some askingScript))) .idle events state ∧
      Stuck (system defaultGateway.marks (some askingScript)) state ∧ WaitsInCircle state :=
  stuck_of_request _ (Set.mem_singleton _)

end Locks

end Nodogsplash
