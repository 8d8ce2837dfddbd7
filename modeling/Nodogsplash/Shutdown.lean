import Nodogsplash.AuthenticationRules
import Nodogsplash.RefreshPass
import Nodogsplash.Teardown

/-! # Shutting down

What `termination_handler` leaves: sessions that have ended and been reported,
and the firewall as the daemon found it. -/

namespace Nodogsplash

namespace Gateway

/-- `termination_handler`: what it writes to the state file, and the gateway
when the process exits. `writeStateFile` is set once the threads run. -/
def terminationHandler (gateway : Gateway) (fuel : Nat) (writeStateFile : Bool)
    (statefile : Option String) : Option (Option Json × Gateway) :=
  let written :=
    if writeStateFile && statefile.any fun path => !path.isEmpty then
      some (stateFileExport gateway.clients)
    else none
  let gateway := gateway.authClientDeauthAll
  (iptablesFwDestroy fuel gateway.config gateway.firewall gateway.traffic).map
    fun (firewall, traffic) => (written, { gateway with firewall, traffic })

/-! ## The sessions -/

def shutdownJudgement (marks : AcceptedMarks) (client : Client) : Judgement :=
  if client.fwConnectionState = marks.authenticated then .reset else .keep

/-- The elements of the authenticated clients. -/
def authenticatedNodes (marks : AcceptedMarks) (nodes : List Node) : List Node :=
  nodes.filter fun node => decide (node.client.fwConnectionState = marks.authenticated)

/-- The change that ends the session of a client. -/
def shutdownChange (marks : AcceptedMarks) (node : Node) : Change where
  address := node.address
  mac := node.client.mac
  state := marks.authenticated
  newState := preauthenticatedState
  reason := some "shutdown_deauth"

/-- The call that reports the end of a session. -/
def shutdownCall (node : Node) : ScriptCall where
  reason := "shutdown_deauth"
  mac := node.client.mac
  counters := node.client.counters
  sessionStart := node.client.sessionStart
  sessionEnd := node.client.sessionEnd

/-- A round of the loop of `auth_client_deauth_all`. -/
def shutdownVisit (gateway : Gateway) (node : Node) : Gateway :=
  match gateway.clients.findById node.client.id with
  | none => gateway
  | some found =>
      (gateway.authChangeState found preauthenticatedState (some "shutdown_deauth")).2

theorem authClientDeauthAll_eq (gateway : Gateway) :
    gateway.authClientDeauthAll = gateway.clients.nodes.foldl shutdownVisit gateway := rfl

section

variable {gateway : Gateway} {before ahead : List Node} {node : Node}

structure EndsSession (gateway : Gateway) (node : Node) (before ahead : List Node)
    (next : Gateway) : Prop where
  nodes : next.clients.nodes = before ++
    judgeAll (shutdownJudgement gateway.marks) (resetNode gateway.random gateway.clock)
      gateway.drawn [node] ++ ahead
  rest : ∀ rest, judgeAll (shutdownJudgement gateway.marks)
      (resetNode gateway.random gateway.clock) gateway.drawn (node :: rest) =
    judgeAll (shutdownJudgement gateway.marks) (resetNode gateway.random gateway.clock)
        gateway.drawn [node] ++
      judgeAll (shutdownJudgement gateway.marks) (resetNode gateway.random gateway.clock)
        next.drawn rest
  changes : next.changes = gateway.changes ++
    (authenticatedNodes gateway.marks [node]).map (shutdownChange gateway.marks)
  scripts : next.scripts = gateway.scripts ++
    (authenticatedNodes gateway.marks [node]).flatMap fun node =>
      gateway.config.binauth.toList.map fun _ => shutdownCall node
  config : next.config = gateway.config
  same : gateway.SamePass next

theorem leaveAuthenticated_scripts (gateway : Gateway) (node : Node) (reason : String) :
    (gateway.leaveAuthenticated node (some reason)).scripts = gateway.scripts ++
      gateway.config.binauth.toList.map fun _ => { shutdownCall node with reason } := by
  simp only [leaveAuthenticated, record, setState, clientReset, modifyClient, drawToken,
    binauthAction, iptablesFwDeauthenticate]
  rfl

theorem nodes_leaveAuthenticated (nodes : gateway.clients.nodes = before ++ node :: ahead)
    (reason : Option String) :
    (gateway.leaveAuthenticated node reason).clients.nodes =
      before ++ resetNode gateway.random gateway.clock gateway.drawn node :: ahead := by
  have distinct := gateway.clients.distinct
  rw [nodes] at distinct
  rcases KeyedList.key_ne_of_split Node.address distinct with ⟨notBefore, notAfter⟩
  let emptied (node : Node) : Node :=
    ⟨node.address, resetFields gateway.clock gateway.drawToken.1 node.client⟩
  let entered (node : Node) : Node :=
    ⟨node.address, { node.client with fwConnectionState := preauthenticatedState }⟩
  have first := KeyedList.update_split Node.address emptied node notBefore notAfter
  have second := KeyedList.update_split Node.address entered (emptied node) notBefore notAfter
  simp only [leaveAuthenticated_clients, ClientList.modify, nodes]
  exact (congrArg (KeyedList.update Node.address node.address entered) first).trans second

theorem shutdownVisit_split (nodes : gateway.clients.nodes = before ++ node :: ahead)
    (ids : gateway.clients.ids.Nodup) :
    gateway.EndsSession node before ahead (gateway.shutdownVisit node) := by
  have visited : gateway.shutdownVisit node =
      if node.client.fwConnectionState = gateway.marks.authenticated then
        gateway.leaveAuthenticated node (some "shutdown_deauth")
      else gateway := by
    simp only [shutdownVisit, findById_split nodes ids, authChangeState_preauthenticated]
  by_cases state : node.client.fwConnectionState = gateway.marks.authenticated
  · rw [if_pos state] at visited
    rw [visited]
    have judged : shutdownJudgement gateway.marks node.client = .reset := if_pos state
    have listed : authenticatedNodes gateway.marks [node] = [node] := by
      simp [authenticatedNodes, state]
    have same := leaveAuthenticated_samePass gateway node (some "shutdown_deauth")
    refine ⟨?_, ?_, ?_, ?_, leaveAuthenticated_config _ _ _, same.1⟩
    · rw [nodes_leaveAuthenticated nodes]
      simp [judgeAll, judged]
    · intro rest
      simp [judgeAll, judged, same.2]
    · rw [leaveAuthenticated_changes, listed, state]
      rfl
    · rw [leaveAuthenticated_scripts, listed, List.flatMap_cons, List.flatMap_nil,
        List.append_nil]
      rfl
  · rw [if_neg state] at visited
    rw [visited]
    have judged : shutdownJudgement gateway.marks node.client = .keep := if_neg state
    have listed : authenticatedNodes gateway.marks [node] = [] := by
      simp [authenticatedNodes, state]
    refine ⟨?_, ?_, ?_, ?_, rfl, rfl, rfl, rfl⟩
    · simp [judgeAll, judged, nodes]
    · intro rest
      simp [judgeAll, judged]
    · rw [listed, List.map_nil, List.append_nil]
    · rw [listed, List.flatMap_nil, List.append_nil]

theorem foldl_shutdownVisit (nodes : gateway.clients.nodes = before ++ ahead)
    (ids : gateway.clients.ids.Nodup) :
    let final := ahead.foldl shutdownVisit gateway
    final.clients.nodes = before ++
        judgeAll (shutdownJudgement gateway.marks) (resetNode gateway.random gateway.clock)
          gateway.drawn ahead ∧
      final.changes = gateway.changes ++
        (authenticatedNodes gateway.marks ahead).map (shutdownChange gateway.marks) ∧
      final.scripts = gateway.scripts ++
        (authenticatedNodes gateway.marks ahead).flatMap fun node =>
          gateway.config.binauth.toList.map fun _ => shutdownCall node := by
  induction ahead generalizing gateway before with
  | nil => simp [nodes, judgeAll, authenticatedNodes]
  | cons node ahead induction =>
      intro final
      have ends := shutdownVisit_split nodes ids
      have nextIds : (gateway.shutdownVisit node).clients.ids.Nodup := by
        have one := ids_judgeAll (shutdownJudgement gateway.marks) gateway.random gateway.clock
          gateway.drawn [node]
        apply List.Nodup.sublist _ ids
        rw [ClientList.ids, ClientList.ids, ends.nodes, nodes]
        simp only [List.map_append, List.map_cons, List.append_assoc]
        exact (one.append (.refl _)).append_left _
      rcases induction ends.nodes nextIds with ⟨left, changes, scripts⟩
      have split : authenticatedNodes gateway.marks (node :: ahead) =
          authenticatedNodes gateway.marks [node] ++ authenticatedNodes gateway.marks ahead := by
        rw [authenticatedNodes, authenticatedNodes, authenticatedNodes, ← List.filter_append,
          List.singleton_append]
      rw [ends.same.marks, ends.same.clock, ends.same.random, List.append_assoc,
        ← ends.rest] at left
      rw [ends.changes, ends.same.marks, List.append_assoc, ← List.map_append, ← split] at changes
      rw [ends.scripts, ends.same.marks, ends.config, List.append_assoc, ← List.flatMap_append,
        ← split] at scripts
      exact ⟨left, changes, scripts⟩

end

theorem not_authenticated_of_judgeAll {marks : AcceptedMarks} {random : Nat → BitVec 16}
    {now : Int} {drawn : Nat} {nodes : List Node} {node : Node}
    (member : node ∈ judgeAll (shutdownJudgement marks) (resetNode random now) drawn nodes) :
    node.client.fwConnectionState ≠ marks.authenticated := by
  induction nodes generalizing drawn with
  | nil => cases member
  | cons head nodes induction =>
      by_cases state : head.client.fwConnectionState = marks.authenticated
      · have judged : shutdownJudgement marks head.client = .reset := if_pos state
        simp only [judgeAll, judged] at member
        rcases List.mem_cons.mp member with rfl | rest
        · exact preauthenticated_ne_authenticated marks
        · exact induction rest
      · have judged : shutdownJudgement marks head.client = .keep := if_neg state
        simp only [judgeAll, judged] at member
        rcases List.mem_cons.mp member with rfl | rest
        · exact state
        · exact induction rest

end Gateway

/-! ## The tables -/

theorem iptablesFwDestroyMention_mono {fuel more : Nat} (enough : fuel ≤ more)
    {firewall after : Firewall} {table : Table} {chain : Chain} {mention : String}
    (returned : iptablesFwDestroyMention fuel firewall table chain mention = some after) :
    iptablesFwDestroyMention more firewall table chain mention = some after := by
  induction fuel generalizing firewall more with
  | zero => cases returned
  | succ fuel induction =>
      rcases Nat.exists_eq_add_of_le' enough with ⟨further, rfl⟩
      rw [← Nat.add_assoc, iptablesFwDestroyMention]
      rw [iptablesFwDestroyMention] at returned
      split at returned
      · exact returned
      · exact induction (Nat.le_add_left fuel further) returned

theorem iptablesFwDestroyMentions_mono {fuel more : Nat} (enough : fuel ≤ more)
    {firewall after : Firewall} {table : Table} {places : List (Chain × Chain)}
    (returned : iptablesFwDestroyMentions fuel table places firewall = some after) :
    iptablesFwDestroyMentions more table places firewall = some after := by
  induction places generalizing firewall with
  | nil => exact returned
  | cons place places induction =>
      rcases place with ⟨chain, mention⟩
      rcases Option.bind_eq_some_iff.mp returned with ⟨middle, first, rest⟩
      exact Option.bind_eq_some_iff.mpr
        ⟨middle, iptablesFwDestroyMention_mono enough first, induction rest⟩

theorem destroyTable_mono {fuel more : Nat} (enough : fuel ≤ more) {firewall after : Firewall}
    {table : Table} {mentions : List (Chain × Chain)} {chains : List Chain}
    (returned : destroyTable fuel table mentions chains firewall = some after) :
    destroyTable more table mentions chains firewall = some after := by
  rcases Option.map_eq_some_iff.mp returned with ⟨middle, mentioned, equal⟩
  exact Option.map_eq_some_iff.mpr
    ⟨middle, iptablesFwDestroyMentions_mono enough mentioned, equal⟩

theorem iptablesFwDestroy_mono {fuel more : Nat} (enough : fuel ≤ more) {config : Config}
    {firewall : Firewall} {traffic : TrafficControl} {result : Firewall × TrafficControl}
    (returned : iptablesFwDestroy fuel config firewall traffic = some result) :
    iptablesFwDestroy more config firewall traffic = some result := by
  rcases Option.bind_eq_some_iff.mp returned with ⟨mangle, first, rest⟩
  rcases Option.bind_eq_some_iff.mp rest with ⟨nat, second, rest⟩
  rcases Option.bind_eq_some_iff.mp rest with ⟨filter, third, last⟩
  apply Option.bind_eq_some_iff.mpr
  refine ⟨mangle, destroyTable_mono enough first, ?_⟩
  apply Option.bind_eq_some_iff.mpr
  refine ⟨nat, ?_, Option.bind_eq_some_iff.mpr ⟨filter, destroyTable_mono enough third, last⟩⟩
  split at second
  · next ip6 => rw [if_pos ip6, second]
  · next ip4 => rw [if_neg ip4, destroyTable_mono enough second]

namespace Tables

theorem exists_bound (tables : Tables) : ∃ bound, ∀ table, ∀ place ∈ hooks table,
    (tables.rules table place.1).length < bound := by
  have within (table : Table) : ∃ bound, ∀ place ∈ hooks table,
      (tables.rules table place.1).length < bound :=
    ⟨((hooks table).map fun place => (tables.rules table place.1).length).sum + 1,
      fun place hook => Nat.lt_succ_of_le (List.le_sum_of_mem
        (List.mem_map.mpr ⟨place, hook, rfl⟩))⟩
  rcases within .mangle with ⟨mangle, inMangle⟩
  rcases within .nat with ⟨nat, inNat⟩
  rcases within .filter with ⟨filter, inFilter⟩
  refine ⟨mangle + nat + filter, fun table place hook => ?_⟩
  cases table with
  | mangle => exact lt_of_lt_of_le (inMangle place hook) (by omega)
  | nat => exact lt_of_lt_of_le (inNat place hook) (by omega)
  | filter => exact lt_of_lt_of_le (inFilter place hook) (by omega)

variable {initial tables other : Tables}

theorem IsForeign.of_listing (foreign : initial.IsForeign)
    (same : ∀ table, tables.listing table = initial.listing table) : tables.IsForeign where
  distinct := fun table => by
    rw [same table]
    exact foreign.distinct table
  names := fun table => by
    rw [same table]
    exact foreign.names table
  rules := fun table => by
    rw [same table]
    exact foreign.rules table

theorem SetUpOver.of_listing (setUp : initial.SetUpOver tables)
    (same : ∀ table, initial.listing table = other.listing table) : other.SetUpOver tables where
  distinct := setUp.distinct
  rest := fun table => (setUp.rest table).trans (same table)
  chains := setUp.chains
  jumps := setUp.jumps

end Tables

section

variable {initial : Tables} {config : Config} {firewall after : Firewall}
  {traffic final : TrafficControl} {fuel : Nat}

theorem listing_iptablesFwDestroy (setUp : initial.SetUpOver firewall.tables)
    (exits : firewall.ExitsWell) (ip4 : config.ip6 = false)
    (returned : iptablesFwDestroy fuel config firewall traffic = some (after, final))
    (table : Table) : after.tables.listing table = initial.listing table := by
  rcases firewall.tables.exists_bound with ⟨bound, within⟩
  have enough (table : Table) (place : Chain × Chain) (hook : place ∈ hooks table) :
      (firewall.tables.rules table place.1).length < fuel + bound :=
    (within table place hook).trans_le (Nat.le_add_left bound fuel)
  rcases iptablesFwDestroy_clears setUp exits ip4 enough traffic with
    ⟨destroyed, removed, again, laid, cleared⟩
  rw [iptablesFwDestroy_mono (Nat.le_add_right fuel bound) returned] at again
  cases again
  exact laid.listing_of_cleared cleared table

theorem setUpOver_resetFirewall (foreign : initial.IsForeign)
    (setUp : initial.SetUpOver firewall.tables)
    (exits : ∀ number, firewall.kernel.exitCode number = 0) (ip4 : config.ip6 = false)
    (reset : resetFirewall fuel config firewall traffic = some (after, final)) :
    initial.SetUpOver after.tables := by
  rcases Option.bind_eq_some_iff.mp reset with ⟨⟨destroyed, removed⟩, returned, rest⟩
  have listing := listing_iptablesFwDestroy setUp (fun number _ => exits number) ip4 returned
  have kernel := iptablesFwDestroy_kernel returned
  have deletes : destroyed.DeletesProbesOfInit config := by
    intro _
    constructor
    · intro _
      rw [kernel]
      exact exits _
    · intro _
      rw [kernel]
      exact exits _
  have laid := setUpOver_iptablesFwInit (foreign.of_listing listing) deletes removed
  simp only at rest
  split at rest
  · cases rest
    exact laid.of_listing listing
  · cases rest

end

namespace Gateway

theorem setUpOver_of_started {environment : Environment} {gateway : Gateway}
    (foreign : environment.tables.IsForeign) (ip4 : environment.config.ip6 = false)
    (exits : ∀ number, environment.kernel.exitCode number = 0)
    (started : mainLoop environment = some gateway) :
    environment.tables.SetUpOver gateway.firewall.tables ∧ gateway.config.ip6 = false := by
  rcases Option.bind_eq_some_iff.mp started with ⟨initial, found, restored⟩
  rcases initialGateway_fresh found with ⟨fresh, _, config⟩
  have first : environment.tables.SetUpOver initial.firewall.tables := by
    rcases Option.bind_eq_some_iff.mp found with ⟨⟨firewall, traffic⟩, reset, rest⟩
    rcases Option.bind_eq_some_iff.mp rest with ⟨marks, _, equal⟩
    cases equal
    exact setUpOver_resetFirewall foreign (.of_foreign foreign) exits ip4 reset
  have imported := stateFileImport_transitions initial environment.stateFile
  have laid := imported.setUpOver first
  have still : (initial.stateFileImport environment.stateFile).2.config.ip6 = false := by
    rw [imported.follows.settings.ip6, config, ip4]
  rw [restoreState] at restored
  simp only at restored
  split at restored
  · rcases Option.bind_eq_some_iff.mp restored with ⟨⟨firewall, traffic⟩, reset, equal⟩
    cases equal
    have succeeds : ∀ number,
        (initial.stateFileImport environment.stateFile).2.firewall.kernel.exitCode number = 0 := by
      rw [imported.follows.firewall.kernel]
      exact (fresh.ready exits).exits
    exact ⟨setUpOver_resetFirewall foreign laid succeeds still reset, still⟩
  · cases restored
    exact ⟨laid, still⟩

end Gateway

/-- If every iptables command succeeds, then after every run of a daemon that
found tables without a trace of it, whether or not its state file could be
imported, `termination_handler` returns and leaves the tables as the daemon
found them. If ids are distinct, it ends each session once, reporting what the
client has used, and leaves nobody authenticated. -/
theorem shutdown_leaves_nothing {environment : Environment} {initial final : Gateway}
    {events : List (Int × Event)} (foreign : environment.tables.IsForeign)
    (ip4 : environment.config.ip6 = false)
    (exits : ∀ number, environment.kernel.exitCode number = 0)
    (started : mainLoop environment = some initial) (run : DaemonRun initial events final)
    (writeStateFile : Bool) (statefile : Option String) :
    ∃ enough, ∀ fuel, enough ≤ fuel → ∃ written ended,
      final.terminationHandler fuel writeStateFile statefile = some (written, ended) ∧
      (∀ table, ended.firewall.tables.listing table = environment.tables.listing table) ∧
      ((final.clients.nodes.map (·.client.id)).Nodup →
        let sessions := Gateway.authenticatedNodes final.marks final.clients.nodes
        (∀ node ∈ ended.clients.nodes,
            node.client.fwConnectionState ≠ final.marks.authenticated) ∧
          ended.changes = final.changes ++ sessions.map (Gateway.shutdownChange final.marks) ∧
          ended.scripts = final.scripts ++ sessions.flatMap fun node =>
            final.config.binauth.toList.map fun _ => Gateway.shutdownCall node) := by
  rcases Gateway.setUpOver_of_started foreign ip4 exits started with ⟨startedOver, startedIp4⟩
  have transitions := Gateway.run_transitions run
  have ready := (Gateway.rulesAgree_of_run exits started run).2
  have last : Gateway.Transitions (.all .counters) final final.authClientDeauthAll :=
    final.authClientDeauthAll_transitions
  have laid := last.setUpOver (transitions.setUpOver startedOver)
  have still : final.authClientDeauthAll.config.ip6 = false := by
    rw [last.follows.settings.ip6, transitions.follows.settings.ip6, startedIp4]
  have succeeds : final.authClientDeauthAll.firewall.ExitsWell := by
    intro number _
    rw [last.follows.firewall.kernel]
    exact ready.exits number
  rcases final.authClientDeauthAll.firewall.tables.exists_bound with ⟨enough, within⟩
  refine ⟨enough, fun fuel more => ?_⟩
  rcases iptablesFwDestroy_clears laid succeeds still
    (fun table place hook => (within table place hook).trans_le more)
    final.authClientDeauthAll.traffic with ⟨destroyed, removed, returned, destroyedOver, cleared⟩
  refine ⟨_, _, by rw [Gateway.terminationHandler, returned, Option.map_some],
    destroyedOver.listing_of_cleared cleared, ?_⟩
  intro ids sessions
  have whole : final.clients.nodes = [] ++ final.clients.nodes := rfl
  rcases Gateway.foldl_shutdownVisit whole ids with ⟨nodes, changes, scripts⟩
  rw [← Gateway.authClientDeauthAll_eq] at nodes changes scripts
  refine ⟨?_, changes, scripts⟩
  intro node member
  simp only [nodes, List.nil_append] at member
  exact Gateway.not_authenticated_of_judgeAll member

/-- A system where other programs have rules, with a script that is told of sessions. -/
def servedEnvironment : Environment :=
  { defaultEnvironment with
    config := { defaultConfig with binauth := some "/usr/bin/binauth" }
    tables := sharedTables }

theorem mainLoop_served : (mainLoop servedEnvironment).isSome = true := by decide +kernel

def servingGateway : Gateway := (mainLoop servedEnvironment).get mainLoop_served

/-- Two clients ask for the splash page and are authenticated by `ndsctl`. -/
def servedEvents : List (Int × Event) :=
  [(1000, .request (defaultRequest "/" fun _ => none)),
    (1000, .request (requestFrom "192.168.42.11" "00:16:3e:00:00:02")),
    (1001, .ndsctl true true (.auth "192.168.42.10")),
    (1002, .ndsctl true true (.auth "192.168.42.11"))]

def servedGateway : Gateway := servedEvents.foldl Gateway.step servingGateway

theorem distinct_served : (servedGateway.clients.nodes.map (·.client.id)).Nodup := by
  have ids : servedGateway.clients.nodes.map (·.client.id) = [1, 2] := by decide +kernel
  rw [ids]
  decide

theorem shutdown_leaves_nothing_served :
    let sessions := Gateway.authenticatedNodes servedGateway.marks servedGateway.clients.nodes
    sessions.map (·.client.mac) = ["00:16:3e:00:00:01", "00:16:3e:00:00:02"] ∧
    ∃ enough, ∀ fuel, enough ≤ fuel → ∃ written ended,
      servedGateway.terminationHandler fuel true (some "/tmp/ndslog.json") =
          some (written, ended) ∧
      (∀ table, ended.firewall.tables.listing table = sharedTables.listing table) ∧
      (∀ node ∈ ended.clients.nodes,
          node.client.fwConnectionState ≠ servedGateway.marks.authenticated) ∧
        ended.changes = servedGateway.changes ++
          sessions.map (Gateway.shutdownChange servedGateway.marks) ∧
        ended.scripts = servedGateway.scripts ++ sessions.flatMap fun node =>
          [Gateway.shutdownCall node] := by
  intro sessions
  have foreign : servedEnvironment.tables.IsForeign := by
    refine ⟨?_, ?_, ?_⟩ <;> intro table <;> cases table <;> decide +kernel
  have run : DaemonRun servingGateway servedEvents servedGateway :=
    (Execution.run_ofFunction_iff _ _ _ _).mpr rfl
  have binauth : servedGateway.config.binauth = some "/usr/bin/binauth" := by decide +kernel
  rcases shutdown_leaves_nothing foreign rfl (fun _ => rfl)
    (Option.some_get mainLoop_served).symm run true (some "/tmp/ndslog.json") with ⟨enough, ends⟩
  refine ⟨by decide +kernel, enough, fun fuel more => ?_⟩
  rcases ends fuel more with ⟨written, ended, returned, listing, sessionsEnd⟩
  rw [binauth] at sessionsEnd
  exact ⟨written, ended, returned, listing, sessionsEnd distinct_served⟩

end Nodogsplash
