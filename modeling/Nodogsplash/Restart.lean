import Mathlib.Data.List.TakeWhile
import Nodogsplash.AccessControl
import Nodogsplash.ClientClasses
import Nodogsplash.MaxClients
import Nodogsplash.Shutdown

/-! # A restart

What becomes of the clients when the daemon stops and is started again with the
state file it has left. -/

namespace Nodogsplash

open Relation (ReflTransGen)

/-! ## The configuration at the start -/

namespace Gateway

theorem clientListAddClient_absent {gateway next : Gateway} {mac ip : String} {node : Node}
    (absent : gateway.clients.find mac ip = none)
    (added : gateway.clientListAddClient mac ip = (some node, next)) :
    next.config = gateway.config ∧ node.client.fwConnectionState ≠ next.marks.authenticated := by
  rcases gateway.clientListAddClient_cases mac ip with
    ⟨_, found, _⟩ | ⟨_, _, _, _, _, appended, equal⟩ | equal
  · rw [absent] at found
    cases found
  · rw [added] at equal
    cases equal
    rcases clientListAppend_eq appended with ⟨_, rfl, rfl⟩
    exact ⟨rfl, classify_ne_authenticated _ _ _⟩
  · rw [added] at equal
    cases equal

/-- A client that has just been added is not authenticated, so that its entry
blocks no MAC. -/
theorem stateFileImportClient_config (gateway : Gateway) (entry : Json) :
    (gateway.stateFileImportClient entry).2.config = gateway.config := by
  rw [stateFileImportClient]
  split
  · rfl
  · rename_i mac ip id _
    split
    · rfl
    · next absent =>
        rw [Bool.not_eq_true, Option.isSome_eq_false_iff, Option.isNone_iff_eq_none] at absent
        split
        · rfl
        · split
          · next next refused =>
              rcases gateway.clientListAddClient_frame mac ip with ⟨_, _, equal, _⟩
              rw [refused] at equal
              rw [show next = _ from equal]
          · next node next added =>
              rcases clientListAddClient_absent absent added with ⟨config, state⟩
              simp only [← config, importInto]
              split
              · rfl
              · split
                · rfl
                · next value _ =>
                    have kept := (importAssignments_keeps entry id).state node.client
                    rcases (next.modifyClient node.address fun client =>
                        (importAssignments entry id client).2).authChangeState_cases
                      { node with client := (importAssignments entry id node.client).2 }
                      (BitVec.ofInt 32 value) (some "import_state_file") with
                      ⟨_, _, equal⟩ | ⟨authenticated, _⟩ | ⟨authenticated, _⟩ | equal
                    · exact (congrArg (fun result => result.2.config) equal).trans
                        (enterAuthenticated_config _ _ _)
                    · exact absurd (kept.symm.trans authenticated) state
                    · exact absurd (kept.symm.trans authenticated) state
                    · exact congrArg (fun result => result.2.config) equal

theorem stateFileImport_config (gateway : Gateway) (stateFile : StateFile) :
    (gateway.stateFileImport stateFile).2.config = gateway.config := by
  have loop (rc : Int) (entries : List Json) (gateway : Gateway) :
      (gateway.importEntries rc entries).2.config = gateway.config := by
    induction entries generalizing rc gateway with
    | nil => rfl
    | cons entry rest induction =>
        have first := gateway.stateFileImportClient_config entry
        simp only [importEntries]
        split
        · rfl
        · split
          · exact first
          · exact (induction _ _).trans first
  cases stateFile with
  | missing | inaccessible | unparsable => rfl
  | document top =>
      simp only [stateFileImport]
      split
      · rfl
      · exact loop _ _ _

theorem config_of_started {environment : Environment} {gateway : Gateway}
    (started : mainLoop environment = some gateway) :
    gateway.config = environment.config ∧ gateway.marks.toMarks = environment.config.marks := by
  rcases Option.bind_eq_some_iff.mp started with ⟨initial, found, restored⟩
  rcases initialGateway_fresh found with ⟨fresh, _, config⟩
  have imported := stateFileImport_transitions initial environment.stateFile
  have same := initial.stateFileImport_config environment.stateFile
  have marks : (initial.stateFileImport environment.stateFile).2.marks.toMarks =
      environment.config.marks := by
    rw [imported.follows.marks, fresh.marks, config]
  rw [restoreState] at restored
  simp only at restored
  split at restored
  · rcases Option.bind_eq_some_iff.mp restored with ⟨⟨firewall, traffic⟩, _, equal⟩
    cases equal
    exact ⟨same.trans config, marks⟩
  · cases restored
    exact ⟨same.trans config, marks⟩

end Gateway

/-! ## The exported list -/

/-- What is made of an exported client: its state is that of its class, unless it
was authenticated and its class leaves that open. -/
def Client.restored (config : Config) (marks : Marks) (client : Client) : Client :=
  { client with
    fwConnectionState :=
      if Gateway.classify config marks client.mac = preauthenticatedState ∧
          client.fwConnectionState = marks.authenticated then marks.authenticated
      else Gateway.classify config marks client.mac }

theorem Client.restored_of_classified {config : Config} {marks : Marks} {client : Client}
    (classified : client.Classified config marks) : client.restored config marks = client :=
  client_record classified

namespace ClientList

variable {list : ClientList}

theorem fields_export (inRange : ∀ node ∈ list.nodes, node.client.InRange) :
    List.Forall₂ (fun entry record => Json.clientRecord entry = some record)
      (list.nodes.map fun node => stateFileExportClient node.client) list.records := by
  rw [records, List.forall₂_map_left_iff, List.forall₂_map_right_iff, List.forall₂_same]
  exact fun node member => clientRecord_export (inRange node member)

theorem leadingObjects_export (inRange : ∀ node ∈ list.nodes, node.client.InRange) :
    (StateFile.document (stateFileExport list)).leadingObjects =
      list.nodes.map fun node => stateFileExportClient node.client := by
  have header := (importHeader_iff _ _).mpr (hasHeader_export list)
  rw [StateFile.leadingObjects, header, Option.getD_some, List.takeWhile_eq_self_iff]
  exact isObject_of_fields (fields_export inRange)

theorem records_of_fields (inRange : ∀ node ∈ list.nodes, node.client.InRange)
    {parsed : List ClientRecord}
    (fields : List.Forall₂ (fun entry record => Json.clientRecord entry = some record)
      (list.nodes.map fun node => stateFileExportClient node.client) parsed) :
    parsed = list.records := by
  apply List.right_unique_forall₂' _ fields (fields_export inRange)
  intro entry first second one other
  exact Option.some.inj (one.symm.trans other)

theorem stateFileImport_export_iff (inRange : ∀ node ∈ list.nodes, node.client.InRange)
    (gateway : Gateway) :
    0 ≤ (gateway.stateFileImport (.document (stateFileExport list))).1 ↔
      gateway.Fits list.records := by
  rw [← Gateway.exists_admission_iff]
  constructor
  · intro accepted
    rcases Gateway.admission_of_stateFileImport accepted with ⟨records, parsed, admission⟩
    rw [leadingObjects_export inRange] at parsed
    exact ⟨_, records_of_fields inRange parsed ▸ admission⟩
  · rintro ⟨final, admission⟩
    have looped := Gateway.importEntries_of_admission (fields_export inRange) admission
      invalidArgument []
    have header := (importHeader_iff _ _).mpr (hasHeader_export list)
    rw [List.append_nil] at looped
    simp only [Gateway.stateFileImport, header, looped]
    exact le_rfl

end ClientList

namespace Gateway

theorem written_of_terminated {gateway ended : Gateway} {fuel : Nat} {writeStateFile : Bool}
    {statefile : Option String} {document : Json}
    (terminated : gateway.terminationHandler fuel writeStateFile statefile =
      some (some document, ended)) : document = stateFileExport gateway.clients := by
  rcases Option.map_eq_some_iff.mp terminated with ⟨destroyed, _, equal⟩
  have written := congrArg Prod.fst equal
  simp only at written
  split at written
  · exact (Option.some.inj written).symm
  · cases written

theorem fits_records_iff {gateway final : Gateway} (empty : gateway.clients.nodes = [])
    (valid : final.ValidAddresses) (listFits : final.ListFits)
    (maxclients : gateway.config.maxclients = final.config.maxclients) :
    gateway.Fits final.clients.records ↔ final.clients.ids.Nodup := by
  have ids : final.clients.records.map ClientRecord.id = final.clients.ids := List.map_map
  constructor
  · intro fits
    rw [← ids]
    exact fits.ids
  · intro distinct
    refine ⟨?_, ?_, ?_, ?_, ?_, ?_⟩
    · intro record member
      rcases List.mem_map.mp member with ⟨node, inList, rfl⟩
      exact ⟨(valid node inList).1, (valid node inList).2⟩
    · rwa [ids]
    · have pairs : final.clients.records.map ClientRecord.pair = final.clients.pairs :=
        List.map_map
      rw [pairs]
      exact listFits.pairs
    · simp [ids_of_empty empty]
    · simp [pairs_of_empty empty]
    · intro nonempty
      have some : 0 < final.clients.records.length := List.length_pos_iff.mpr nonempty
      have length : final.clients.records.length = final.clients.nodes.length := List.length_map ..
      have count := listFits.count
      have room := listFits.room
      rw [clientCount_of_empty empty, maxclients, length]
      rw [length] at some
      omega

theorem classOf_congr {first second : Gateway} (config : second.config = first.config)
    (marks : second.marks = first.marks)
    (clients : second.clients.nodes.map Node.client = first.clients.nodes.map Node.client)
    (packet : Packet) : second.classOf packet = first.classOf packet := by
  have sources (gateway : Gateway) :
      gateway.AuthenticatesSource packet.macSource packet.sourceIn ↔
        ∃ client ∈ gateway.clients.nodes.map Node.client,
          client.fwConnectionState = gateway.marks.authenticated ∧
            packet.sourceIn client.ip = true ∧ etherAton client.mac = some packet.macSource := by
    simp [AuthenticatesSource]
  have authenticates : second.AuthenticatesSource packet.macSource packet.sourceIn ↔
      first.AuthenticatesSource packet.macSource packet.sourceIn := by
    rw [sources, sources, marks, clients]
  have denies : second.Denies packet.macSource ↔ first.Denies packet.macSource := by
    rw [Denies, Denies, config]
  rw [classOf, classOf, config]
  exact if_congr .rfl rfl (if_congr denies rfl (if_congr authenticates rfl rfl))

end Gateway

theorem AcceptedMarks.eq_of_toMarks {first second : AcceptedMarks}
    (same : first.toMarks = second.toMarks) : first = second := by
  cases first
  cases second
  cases same
  rfl

/-- After every run, stop and restart with the same configuration file: if the ids
of the clients are distinct, all clients come back in their order with their
tokens, sessions, limits and counters, those who were authenticated still are if
no MAC list of the file speaks of them, and if two clients share an id, nobody
comes back. Where no MAC list has changed since the start, they come back just as
they were, and every packet is of the class it was of. -/
theorem restart_restores_clients {environment later : Environment}
    {initial final ended restarted : Gateway} {events : List (Int × Event)} {fuel : Nat}
    {statefile : Option String} {document : Json}
    (started : mainLoop environment = some initial) (run : DaemonRun initial events final)
    (inRange : ∀ node ∈ final.clients.nodes, node.client.InRange)
    (terminated : final.terminationHandler fuel true statefile = some (some document, ended))
    (configuration : later.config = environment.config)
    (file : later.stateFile = .document document)
    (restarts : mainLoop later = some restarted) :
    let distinct := (final.clients.nodes.map (·.client.id)).Nodup
    (distinct → restarted.clients.nodes.map Node.client =
      final.clients.nodes.map fun node =>
        node.client.restored later.config final.marks.toMarks) ∧
      (¬ distinct → restarted.clients.nodes = []) ∧
      (distinct → (∀ event ∈ events, Gateway.unedited.Permit event.2) → final.config = later.config →
        restarted.clients.nodes.map Node.client = final.clients.nodes.map Node.client ∧
          stateFileExport restarted.clients = document ∧
          ∀ packet, restarted.classOf packet = final.classOf packet) := by
  intro distinct
  have transitions := Gateway.run_transitions run
  have valid := (validAddresses_of_started started).transitions transitions
  have listFits := (Gateway.listFits_of_started started).transitions transitions
  rcases Gateway.config_of_started started with ⟨startConfig, startMarks⟩
  rcases Gateway.config_of_started restarts with ⟨againConfig, againMarks⟩
  have marks : restarted.marks = final.marks := by
    apply AcceptedMarks.eq_of_toMarks
    rw [againMarks, transitions.follows.marks, startMarks, configuration]
  rcases mainLoop_cases restarts with ⟨fresh, found, isFresh, outcome⟩
  have freshConfig := (initialGateway_fresh found).2.2
  have maxclients : fresh.config.maxclients = final.config.maxclients := by
    rw [freshConfig, configuration, transitions.follows.settings.maxclients, startConfig]
  have imports := final.clients.stateFileImport_export_iff inRange fresh
  rw [Gateway.fits_records_iff isFresh.nodes valid listFits maxclients,
    ← Gateway.written_of_terminated terminated, ← file] at imports
  have restored (unique : distinct) : restarted.clients.nodes.map Node.client =
      final.clients.nodes.map fun node =>
        node.client.restored later.config final.marks.toMarks := by
    rcases outcome with ⟨accepted, equal⟩ | ⟨failed, _⟩
    · rcases Gateway.admission_of_stateFileImport accepted with ⟨records, parsed, admission⟩
      rw [file, Gateway.written_of_terminated terminated,
        final.clients.leadingObjects_export inRange] at parsed
      have same := final.clients.records_of_fields inRange parsed
      have clients := admission.clients
      rw [isFresh.nodes, List.map_nil, List.nil_append, same, freshConfig, ← equal,
        ← admission.counts.2.1, ← equal, marks, ClientList.records, List.map_map] at clients
      exact clients
    · exact absurd failed (not_lt.mpr (imports.mpr unique))
  refine ⟨restored, ?_, ?_⟩
  · intro shared
    rcases outcome with ⟨accepted, _⟩ | ⟨_, recovered, _⟩
    · exact absurd (imports.mp accepted) shared
    · exact recovered.nodes
  · intro unique permitted sameConfig
    have classified := (Gateway.clientsClassified_of_started started).unediteds
      (Gateway.run_permitted run permitted) (by rw [sameConfig, configuration, startConfig])
    have clients : restarted.clients.nodes.map Node.client =
        final.clients.nodes.map Node.client := by
      rw [restored unique]
      apply List.map_congr_left
      intro node member
      apply Client.restored_of_classified
      rw [← sameConfig]
      exact classified node member
    refine ⟨clients, ?_, ?_⟩
    · have entries := congrArg (List.map stateFileExportClient) clients
      rw [List.map_map, List.map_map] at entries
      rw [Gateway.written_of_terminated terminated, stateFileExport, stateFileExport]
      exact congrArg (fun entries => Json.object [("version", .int 1),
        ("name", .string "nodogsplash"), ("clients", .array entries)]) entries
    · exact Gateway.classOf_congr (againConfig.trans sameConfig.symm) marks clients

/-- The daemon is started again after it has served two clients. -/
def restartEnvironment : Environment :=
  { servedEnvironment with
    clock := 2000
    stateFile := .document (stateFileExport servedGateway.clients) }

theorem mainLoop_restart : (mainLoop restartEnvironment).isSome = true := by
  decide +kernel

def restartedGateway : Gateway := (mainLoop restartEnvironment).get mainLoop_restart

theorem terminationHandler_served :
    ∃ ended, servedGateway.terminationHandler 8 true (some "/tmp/ndslog.json") =
      some (some (stateFileExport servedGateway.clients), ended) := by
  have returns : (iptablesFwDestroy 8 servedGateway.authClientDeauthAll.config
      servedGateway.authClientDeauthAll.firewall
      servedGateway.authClientDeauthAll.traffic).isSome = true := by
    decide +kernel
  rcases Option.isSome_iff_exists.mp returns with ⟨⟨firewall, traffic⟩, destroyed⟩
  rw [Gateway.terminationHandler, destroyed]
  exact ⟨_, rfl⟩

theorem inRange_served : ∀ node ∈ servedGateway.clients.nodes, node.client.InRange := by
  have times : ∀ node ∈ servedGateway.clients.nodes, node.client.sessionStart = 0 ∧
      node.client.sessionEnd = 0 ∧ node.client.counters.incoming = 0 ∧
      node.client.counters.outgoing = 0 ∧ node.client.counters.lastUpdated = 1000 ∧
      node.client.downloadLimit = 0 ∧ node.client.uploadLimit = 0 := by
    decide +kernel
  intro node member
  rcases times node member with ⟨start, finish, incoming, outgoing, updated, download, upload⟩
  constructor <;> simp [start, finish, incoming, outgoing, updated, download, upload]

theorem restart_restores_clients_served :
    restartedGateway.clients.nodes.map Node.client = servedGateway.clients.nodes.map Node.client ∧
      (Gateway.authenticatedNodes restartedGateway.marks
        restartedGateway.clients.nodes).length = 2 ∧
      stateFileExport restartedGateway.clients = stateFileExport servedGateway.clients ∧
      ∀ packet, restartedGateway.classOf packet = servedGateway.classOf packet := by
  have run : DaemonRun servingGateway servedEvents servedGateway :=
    (Execution.run_ofFunction_iff _ _ _ _).mpr rfl
  have started : mainLoop servedEnvironment = some servingGateway :=
    (Option.some_get mainLoop_served).symm
  have restarts : mainLoop restartEnvironment = some restartedGateway :=
    (Option.some_get mainLoop_restart).symm
  have configuration : restartEnvironment.config = servedEnvironment.config := rfl
  rcases terminationHandler_served with ⟨ended, terminated⟩
  rcases restart_restores_clients started run inRange_served terminated configuration rfl restarts
    with ⟨_, _, unchanged⟩
  have unedited : ∀ event ∈ servedEvents, Gateway.unedited.Permit event.2 := by
    have requests (request : Request) : Gateway.unedited.Permit (.request request) :=
      ⟨rfl, fun _ _ => trivial⟩
    simp only [servedEvents, List.forall_mem_cons]
    exact ⟨requests _, requests _, nofun, nofun, List.forall_mem_nil _⟩
  have lists : servedGateway.config.trustedmaclist = [] ∧
      servedGateway.config.blockedmaclist = [] ∧ servedGateway.config.allowedmaclist = [] := by
    decide +kernel
  have config : servedGateway.config = restartEnvironment.config := by
    have settings := (Gateway.run_transitions run).follows.settings
    rw [Config.SameSettings, lists.1, lists.2.1, lists.2.2, (Gateway.config_of_started started).1]
      at settings
    exact settings
  rcases unchanged distinct_served unedited config with ⟨clients, file, classes⟩
  exact ⟨clients, by decide +kernel, file, classes⟩

end Nodogsplash
