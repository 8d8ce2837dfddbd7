import Nodogsplash.DocumentImport
import Nodogsplash.Threads

/-! # Session times

Only authenticated clients have session times, unless the web thread writes
those of a client that has been deauthenticated in the meantime. -/

namespace Nodogsplash

def Client.HasSession (client : Client) : Prop :=
  client.sessionStart ≠ 0 ∨ client.sessionEnd ≠ 0

namespace Gateway

def SessionsAuthenticated (gateway : Gateway) : Prop :=
  ∀ node ∈ gateway.clients.nodes, node.client.HasSession →
    node.client.fwConnectionState = gateway.marks.authenticated

theorem resetFields_hasSession (now : Int) (token : String) (client : Client) :
    ¬ (resetFields now token client).HasSession := by
  simp [Client.HasSession, resetFields]

theorem SessionsAuthenticated.modify {gateway : Gateway}
    (sessions : gateway.SessionsAuthenticated) {address : Nat} {change : Client → Client}
    (right : ∀ node ∈ gateway.clients.nodes, node.address = address →
      (change node.client).HasSession →
        (change node.client).fwConnectionState = gateway.marks.authenticated) :
    (gateway.modifyClient address change).SessionsAuthenticated := by
  intro node member session
  rcases ClientList.mem_modify.mp member with ⟨source, inList, same, rfl⟩ | ⟨inList, _⟩
  · exact right source inList same session
  · exact sessions node inList session

theorem SessionsAuthenticated.transition {gateway next : Gateway}
    (sessions : gateway.SessionsAuthenticated)
    (transition : Transition (.all .counters) gateway next) :
    next.SessionsAuthenticated := by
  have marks := transition.follows.marks
  cases transition with
  | clock | authentications | bytes => exact sessions
  | add _ _ _ added =>
      rcases clientListAppend_eq added with ⟨_, _, rfl⟩
      intro node member session
      rcases ClientList.mem_push.mp member with old | rfl
      · exact sessions node old session
      · exact absurd session (resetFields_hasSession _ _ _)
  | delete =>
      intro node member session
      exact sessions node (ClientList.mem_of_mem_delete member) session
  | count raise => exact sessions.modify fun node member _ session => sessions node member session
  | assign _ allowed => exact absurd rfl allowed
  | @authenticate node reason _ _ =>
      intro other member session
      rw [enterAuthenticated_clients] at member
      rw [marks]
      rcases ClientList.mem_modify.mp member with ⟨source, inList, same, rfl⟩ | ⟨inList, _⟩
      · rfl
      · exact sessions other inList session
  | @deauthenticate node reason _ _ =>
      intro other member session
      rw [leaveAuthenticated_clients] at member
      rw [marks]
      rcases ClientList.mem_modify.mp member with
        ⟨middle, inMiddle, same, rfl⟩ | ⟨inMiddle, different⟩
      · rcases ClientList.mem_modify.mp inMiddle with ⟨source, _, _, rfl⟩ | ⟨_, different⟩
        · exact absurd session (resetFields_hasSession gateway.clock gateway.drawToken.1
            source.client)
        · exact absurd same different
      · rcases ClientList.mem_modify.mp inMiddle with ⟨source, _, same, rfl⟩ | ⟨inList, _⟩
        · exact absurd same different
        · exact sessions other inList session
  | @block node reason _ _ =>
      intro other member session
      rw [leaveBlocked_clients] at member
      rw [marks]
      exact sessions other (ClientList.mem_of_mem_delete member) session
  | editMacs mac command =>
      intro other member session
      rw [editMacs_clients] at member
      rw [marks]
      exact sessions other member session

theorem SessionsAuthenticated.transitions {gateway next : Gateway}
    (sessions : gateway.SessionsAuthenticated)
    (transitions : Transitions (.all .counters) gateway next) :
    next.SessionsAuthenticated := by
  induction transitions with
  | refl => exact sessions
  | tail _ transition induction => exact induction.transition transition

end Gateway

namespace Threads

/-- Apart from the writes of the web thread, every section is a sequence of
transitions that assign to counters only. -/
theorem take_transitions (threads : Threads) {taken : Section} (other : taken ≠ .webWrite) :
    Gateway.Transitions (.all .counters) threads.gateway (threads.take taken).gateway :=
  threads.take_all_transitions fun write => absurd write other

/-- When the web thread writes times that are not all 0, its client is
authenticated or gone. -/
def WritesToAuthenticated (threads : Threads) (taken : Section) : Prop :=
  taken = .webWrite → ∀ address limits now, threads.web = .writing address limits now →
    (now ≠ 0 ∨ limits.seconds ≠ 0) → ∀ node ∈ threads.gateway.clients.nodes,
      node.address = address →
        node.client.fwConnectionState = threads.gateway.marks.authenticated

theorem writesToAuthenticated_of_ne (threads : Threads) {taken : Section}
    (other : taken ≠ .webWrite) : threads.WritesToAuthenticated taken :=
  fun write => absurd write other

theorem sessionFields_hasSession (now : Int) (limits : SessionLimits) (client : Client) :
    (Gateway.sessionFields now limits client).HasSession ↔ now ≠ 0 ∨ limits.seconds ≠ 0 := by
  simp only [Client.HasSession, Gateway.sessionFields]
  split <;> omega

/-- One section keeps the sessions right exactly when the condition holds. -/
theorem sessionsAuthenticated_take_iff {threads : Threads}
    (sessions : threads.gateway.SessionsAuthenticated) (taken : Section) :
    (threads.take taken).gateway.SessionsAuthenticated ↔
      threads.WritesToAuthenticated taken := by
  by_cases write : taken = .webWrite
  · subst write
    constructor
    · intro kept _ address limits now writing nonzero node member same
      simp only [take, webWrite, writing] at kept
      subst same
      exact kept { node with client := Gateway.sessionFields now limits node.client }
        (Gateway.mem_modifyClient member _)
        ((sessionFields_hasSession now limits node.client).mpr nonzero)
    · intro condition
      simp only [take, webWrite]
      split
      · rename_i address limits now writing
        apply sessions.modify
        intro node member same session
        exact condition rfl address limits now writing
          ((sessionFields_hasSession now limits node.client).mp session) node member same
      · exact sessions
  · exact iff_of_true (sessions.transitions (threads.take_transitions write))
      (threads.writesToAuthenticated_of_ne write)

theorem ThreadRun.guarded {initial final : Threads} {sections : List Section}
    (run : ThreadRun initial sections final) (other : ∀ taken ∈ sections, taken ≠ .webWrite) :
    Execution.Run (Execution.Guarded (Execution.ofFunction take) WritesToAuthenticated)
      initial sections final := by
  induction run with
  | nil => exact .nil _
  | @cons current middle final taken sections step _ induction =>
      exact .cons ⟨current.writesToAuthenticated_of_ne (other taken List.mem_cons_self), step⟩
        (induction fun later member => other later (List.mem_cons_of_mem _ member))

theorem ThreadRun.sessionsAuthenticated {initial final : Threads} {sections : List Section}
    (run : Execution.Run (Execution.Guarded (Execution.ofFunction take) WritesToAuthenticated)
      initial sections final)
    (sessions : initial.gateway.SessionsAuthenticated) : final.gateway.SessionsAuthenticated := by
  refine run.invariant (fun threads => threads.gateway.SessionsAuthenticated) ?_
    sessions
  rintro current taken next sessions ⟨condition, rfl⟩
  exact (sessionsAuthenticated_take_iff sessions taken).mpr condition

end Threads

/-! ## From the start on -/

/-- If the import accepts the entries of a state file, those with session times
become authenticated clients. -/
def Environment.RestoresSessions (environment : Environment) : Prop :=
  ∀ records, Describe environment.config.maxclients environment.stateFile.leadingObjects records →
    ∀ record ∈ records, record.sessionStart ≠ 0 ∨ record.sessionEnd ≠ 0 →
      record.restoredState environment.config environment.config.marks =
        environment.config.marks.authenticated

theorem sessionsAuthenticated_of_started {environment : Environment} {gateway : Gateway}
    (restores : environment.RestoresSessions)
    (started : mainLoop environment = some gateway) : gateway.SessionsAuthenticated := by
  rcases mainLoop_cases started with ⟨initial, found, fresh, ⟨accepted, rfl⟩ | ⟨_, recovered, _⟩⟩
  · rcases Gateway.admission_of_stateFileImport accepted with ⟨records, fields, admission⟩
    have config := (initialGateway_fresh found).2.2
    have clients := admission.clients
    rw [fresh.nodes, List.map_nil, List.nil_append] at clients
    intro node member session
    have inClients := List.mem_map_of_mem (f := Node.client) member
    rw [clients] at inClients
    rcases List.mem_map.mp inClients with ⟨record, inRecords, equal⟩
    rw [← equal] at session ⊢
    have nonempty : records ≠ [] := List.ne_nil_of_mem inRecords
    have describe := Gateway.describe_of_fits fresh.nodes fields nonempty
      ((Gateway.exists_admission_iff _ _).mp ⟨_, admission⟩)
    rw [config] at describe
    rw [admission.counts.2.1]
    have restored := restores records describe record inRecords session
    rw [← config, ← fresh.marks] at restored
    exact restored
  · intro node member
    rw [recovered.nodes] at member
    cases member

/-- In every run of the threads in which the web thread writes session times to
authenticated clients only, every client with session times is authenticated. -/
theorem session_times_authenticated {environment : Environment} {initial : Gateway}
    {final : Threads} {sections : List Section} (restores : environment.RestoresSessions)
    (started : mainLoop environment = some initial)
    (run : Execution.Run
      (Execution.Guarded (Execution.ofFunction Threads.take) Threads.WritesToAuthenticated)
      (Threads.start initial) sections final) :
    ∀ node ∈ final.gateway.clients.nodes,
      node.client.sessionStart ≠ 0 ∨ node.client.sessionEnd ≠ 0 →
        node.client.fwConnectionState = final.gateway.marks.authenticated :=
  Threads.ThreadRun.sessionsAuthenticated run (sessionsAuthenticated_of_started restores started)

theorem restoresSessions_default : defaultEnvironment.RestoresSessions := by
  intro records describe record member
  cases describe.fields
  cases member

/-- The web thread authenticates a client with its token and is about to write
its session times. -/
def tokenSections : List Section :=
  [.webRequest (defaultRequest "/" fun _ => none), .webDecide (.respond .refresh),
    .webRequest (tokenRequest ⟨.exited 0, ""⟩), .webDecide (.respond .refresh), .webEnter]

def tokenThreads : Threads := tokenSections.foldl Threads.take (Threads.start defaultGateway)

theorem tokenThreads_states : ∀ node ∈ tokenThreads.gateway.clients.nodes,
    node.client.fwConnectionState = tokenThreads.gateway.marks.authenticated := by
  decide +kernel

theorem session_times_authenticated_default :
    let final := tokenThreads.take .webWrite
    ∀ node ∈ final.gateway.clients.nodes,
      node.client.sessionStart ≠ 0 ∨ node.client.sessionEnd ≠ 0 →
        node.client.fwConnectionState = final.gateway.marks.authenticated := by
  have run : Threads.ThreadRun (Threads.start defaultGateway) tokenSections tokenThreads :=
    (Execution.run_ofFunction_iff _ _ _ _).mpr rfl
  have condition : tokenThreads.WritesToAuthenticated .webWrite :=
    fun _ _ _ _ _ _ node member _ => tokenThreads_states node member
  exact session_times_authenticated restoresSessions_default mainLoop_defaultGateway
    ((run.guarded (by simp [tokenSections])).snoc ⟨condition, rfl⟩)

/-- When ndsctl deauthenticates the client before that, its session begins while
it is preauthenticated. -/
theorem session_times_without_authentication :
    ∃ final, Threads.ThreadRun (Threads.start defaultGateway)
        (tokenSections ++ [.ndsctlLookup "192.168.42.10", .ndsctlDeauth, .webWrite]) final ∧
      final.web = .idle ∧
      ∃ node ∈ final.gateway.clients.nodes, node.client.sessionStart ≠ 0 ∧
        node.client.fwConnectionState ≠ final.gateway.marks.authenticated := by
  refine ⟨_, (Execution.run_ofFunction_iff _ _ _ _).mpr rfl, rfl, ?_⟩
  decide +kernel

end Nodogsplash
