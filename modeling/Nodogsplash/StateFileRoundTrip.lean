import Mathlib.Tactic.NormNum
import Nodogsplash.DocumentImport
import Nodogsplash.AuthenticationRules

/-! # Reading back the state file

What the import makes of the file that the export has written. -/

namespace Nodogsplash

open Relation (ReflTransGen)

namespace Client

/-- The fields hold values of their C types; `time_t` has 64 bits. -/
structure InRange (client : Client) : Prop where
  sessionStart : -2 ^ 63 ≤ client.sessionStart ∧ client.sessionStart < 2 ^ 63
  sessionEnd : -2 ^ 63 ≤ client.sessionEnd ∧ client.sessionEnd < 2 ^ 63
  downloadLimit : -2 ^ 31 ≤ client.downloadLimit ∧ client.downloadLimit < 2 ^ 31
  uploadLimit : -2 ^ 31 ≤ client.uploadLimit ∧ client.uploadLimit < 2 ^ 31
  incoming : client.counters.incoming < 2 ^ 64
  outgoing : client.counters.outgoing < 2 ^ 64
  lastUpdated : -2 ^ 63 ≤ client.counters.lastUpdated ∧ client.counters.lastUpdated < 2 ^ 63

def record (client : Client) : ClientRecord where
  mac := client.mac
  ip := client.ip
  id := client.id
  token := client.token
  sessionStart := client.sessionStart
  sessionEnd := client.sessionEnd
  downloadLimit := client.downloadLimit
  uploadLimit := client.uploadLimit
  counters := client.counters
  state := client.fwConnectionState

/-- The MAC lists give the client the state it has, or the state it had before it
was authenticated. -/
def Classified (config : Config) (marks : Marks) (client : Client) : Prop :=
  client.fwConnectionState = Gateway.classify config marks client.mac ∨
    client.fwConnectionState = marks.authenticated ∧
      Gateway.classify config marks client.mac = preauthenticatedState

end Client

/-! ## One client -/

theorem toUInt64_lt (value : Int) : toUInt64 value < 2 ^ 64 := by
  rw [toUInt64]
  omega

/-- A `time_t` comes back from the unsigned value it is written as. -/
theorem toTime_toUInt64 {time : Int} (lower : -2 ^ 63 ≤ time) (upper : time < 2 ^ 63) :
    toTime (toUInt64 time) = time := by
  have modulus : (2 ^ 64 : Int) = ((2 ^ 64 : Nat) : Int) := by norm_num
  unfold toTime toUInt64
  rw [Int.toNat_of_nonneg (Int.emod_nonneg _ (by norm_num)), modulus, Int.emod_bmod]
  exact Int.bmod_eq_of_le (by omega) (by omega)

theorem getUint64_of_lt {value : Nat} (small : value < 2 ^ 64) :
    (Json.int value).getUint64 = some value := by
  simp only [Json.getUint64, Option.some.injEq]
  omega

theorem getInt_of_range {value : Int} (lower : -2 ^ 31 ≤ value) (upper : value < 2 ^ 31) :
    (Json.int value).getInt = some value := by
  simp only [Json.getInt, Option.some.injEq]
  omega

theorem getInt64_of_bitVec (value : BitVec 32) :
    (Json.int value.toNat).getInt64 = some (value.toNat : Int) := by
  have bound := value.isLt
  simp only [Json.getInt64, Option.some.injEq]
  omega

theorem clientRecord_export {client : Client} (range : client.InRange) :
    (stateFileExportClient client).clientRecord = some client.record := by
  have id : (Json.int client.id.toNat).getUint64 = some client.id.toNat :=
    getUint64_of_lt (lt_of_lt_of_le client.id.isLt (by decide))
  have state := getInt64_of_bitVec client.fwConnectionState
  have times (time : Int) := getUint64_of_lt (toUInt64_lt time)
  have download := getInt_of_range range.downloadLimit.1 range.downloadLimit.2
  have upload := getInt_of_range range.uploadLimit.1 range.uploadLimit.2
  have incoming := getUint64_of_lt range.incoming
  have outgoing := getUint64_of_lt range.outgoing
  have start := toTime_toUInt64 range.sessionStart.1 range.sessionStart.2
  have finish := toTime_toUInt64 range.sessionEnd.1 range.sessionEnd.2
  have updated := toTime_toUInt64 range.lastUpdated.1 range.lastUpdated.2
  simp [stateFileExportClient, Json.clientRecord, Gateway.importIdentity, Json.getField, Json.field,
    id, state, times, download, upload, incoming, outgoing, Json.getString, Json.getObject, start,
    finish, updated, Client.record]

theorem client_record {config : Config} {marks : Marks} {client : Client}
    (classified : client.Classified config marks) : client.record.client config marks = client := by
  have mac : client.record.mac = client.mac := rfl
  have target : client.record.state = client.fwConnectionState := rfl
  have state : client.record.restoredState config marks = client.fwConnectionState := by
    rw [ClientRecord.restoredState, mac, target]
    rcases classified with same | ⟨authenticated, preauthenticated⟩
    · split
      · rename_i authenticates
        exact authenticates.2.symm
      · exact same.symm
    · rw [if_pos ⟨preauthenticated, authenticated⟩, authenticated]
  rw [ClientRecord.client, state]
  rfl

/-! ## The authentication rules -/

/-- The commands of `iptables_fw_authenticate`, run for each client in turn. -/
def authenticateAll (markop : MarkOp) (marks : Marks) (clients : List Client)
    (firewall : Firewall) : Firewall :=
  clients.foldl (fun firewall client =>
    (iptablesDoCommands firewall
      (.append .mangle .outgoing (outgoingRule markop marks client.ip client.mac) ::
        (incomingRules markop marks client.ip).map (.append .mangle .incoming))).2) firewall

/-- The clients of a list that are authenticated. -/
def authenticatedOf (marks : Marks) (clients : List Client) : List Client :=
  clients.filter fun client => decide (client.fwConnectionState = marks.authenticated)

theorem authenticateAll_append (markop : MarkOp) (marks : Marks) (first second : List Client)
    (firewall : Firewall) :
    authenticateAll markop marks (first ++ second) firewall =
      authenticateAll markop marks second (authenticateAll markop marks first firewall) :=
  List.foldl_append

namespace Gateway

theorem addRecord_transitions {gateway : Gateway} {record : ClientRecord}
    (admits : gateway.Admits record) :
    Transitions (.all .identities) gateway (gateway.addRecord record) := by
  have appended : gateway.clientListAppend record.mac record.ip = (some _, _) :=
    if_neg (not_le.mpr admits.room)
  exact ReflTransGen.tail (.single (.add admits.mac admits.ip admits.absent appended trivial))
    (.assign ⟨fun _ => rfl, fun _ => rfl, fun _ => rfl⟩ nofun nofun)

theorem enlist_transitions {gateway : Gateway} {record : ClientRecord}
    (admits : gateway.Admits record) :
    Transitions (.all .identities) gateway (gateway.enlist record) := by
  refine (addRecord_transitions admits).trans (authChangeState_transitions ?_ _ _)
  rw [nodes_addRecord]
  exact List.mem_append_right _ List.mem_cons_self

theorem enlist_firewall (gateway : Gateway) (record : ClientRecord) :
    (gateway.enlist record).firewall =
      authenticateAll gateway.firewall.markop gateway.marks.toMarks
        (authenticatedOf gateway.marks.toMarks
          [record.client gateway.config gateway.marks.toMarks])
        gateway.firewall := by
  have state : (record.client gateway.config gateway.marks.toMarks).fwConnectionState =
    record.restoredState gateway.config gateway.marks.toMarks := rfl
  rcases gateway.enlist_cases record with
    ⟨preauthenticated, target, admitted⟩ | ⟨restored, admitted⟩
  · have authenticated : record.restoredState gateway.config gateway.marks.toMarks =
      gateway.marks.authenticated := if_pos ⟨preauthenticated, target⟩
    rw [admitted, enterAuthenticated_firewall, iptablesFwAuthenticate_firewall]
    simp [authenticatedOf, authenticated, authenticateAll, addRecord, modifyClient,
      recordNode, ClientRecord.assign, newClient, resetFields, ClientRecord.client]
  · have other : record.restoredState gateway.config gateway.marks.toMarks ≠
        gateway.marks.authenticated := by
      rw [restored]
      exact classify_ne_authenticated _ _ _
    rw [admitted]
    simp [authenticatedOf, state, other, authenticateAll, addRecord, modifyClient]

/-- The import runs the commands of the authenticated clients, in their order. -/
theorem Admission.firewall {gateway final : Gateway} {records : List ClientRecord}
    (admission : Admission gateway records final) :
    final.firewall = authenticateAll gateway.firewall.markop gateway.marks.toMarks
      (authenticatedOf gateway.marks.toMarks
        (records.map (ClientRecord.client gateway.config gateway.marks.toMarks)))
      gateway.firewall := by
  induction admission with
  | nil => rfl
  | @cons current middle final record records step _ induction =>
      rcases step with ⟨admits, rfl⟩
      rcases current.enlist_counts record with ⟨config, marks, _, _⟩
      have markop := (enlist_transitions admits).follows.firewall.markop
      rw [induction, markop, marks, config, enlist_firewall, ← authenticateAll_append,
        authenticatedOf, authenticatedOf, authenticatedOf, ← List.filter_append]
      rfl

/-- Where iptables is willing, admitting a record appends the rules of its client
if it is authenticated. -/
theorem rules_enlist {gateway : Gateway} {record : ClientRecord} (ready : gateway.Ready)
    (admits : gateway.Admits record) :
    let authenticated := authenticatedOf gateway.marks.toMarks
      [record.client gateway.config gateway.marks.toMarks]
    let markop := gateway.firewall.markop
    let marks := gateway.marks.toMarks
    (gateway.enlist record).firewall.tables.rules .mangle .outgoing =
        gateway.firewall.tables.rules .mangle .outgoing ++
          authenticated.map (fun client => outgoingRule markop marks client.ip client.mac) ∧
      (gateway.enlist record).firewall.tables.rules .mangle .incoming =
        gateway.firewall.tables.rules .mangle .incoming ++
          authenticated.flatMap (fun client => incomingRules markop marks client.ip) := by
  intro authenticated markop marks
  have state : (record.client gateway.config gateway.marks.toMarks).fwConnectionState =
    record.restoredState gateway.config gateway.marks.toMarks := rfl
  rcases gateway.enlist_cases record with
    ⟨preauthenticated, target, admitted⟩ | ⟨restored, admitted⟩
  · have isAuthenticated : record.restoredState gateway.config gateway.marks.toMarks =
      gateway.marks.authenticated := if_pos ⟨preauthenticated, target⟩
    have one : authenticated = [record.client gateway.config gateway.marks.toMarks] := by
      simp [authenticated, authenticatedOf, state, isAuthenticated]
    have rules := rules_iptablesFwAuthenticate (ready.transitions (addRecord_transitions admits))
      (gateway.recordNode record).client admits.mac
    rw [admitted, enterAuthenticated_firewall, one, List.map_singleton, List.flatMap_singleton]
    exact rules
  · have other : record.restoredState gateway.config gateway.marks.toMarks ≠
        gateway.marks.authenticated := by
      rw [restored]
      exact classify_ne_authenticated _ _ _
    have none : authenticated = [] := by
      simp [authenticated, authenticatedOf, state, other]
    rw [admitted, none]
    simp [addRecord, modifyClient]

theorem Admission.rules {gateway final : Gateway} {records : List ClientRecord}
    (admission : Admission gateway records final) (ready : gateway.Ready) :
    let authenticated := authenticatedOf gateway.marks.toMarks
      (records.map (ClientRecord.client gateway.config gateway.marks.toMarks))
    let markop := gateway.firewall.markop
    let marks := gateway.marks.toMarks
    final.firewall.tables.rules .mangle .outgoing =
        gateway.firewall.tables.rules .mangle .outgoing ++
          authenticated.map (fun client => outgoingRule markop marks client.ip client.mac) ∧
      final.firewall.tables.rules .mangle .incoming =
        gateway.firewall.tables.rules .mangle .incoming ++
          authenticated.flatMap (fun client => incomingRules markop marks client.ip) := by
  induction admission with
  | nil => simp [authenticatedOf]
  | @cons current middle final record records step _ induction =>
      rcases step with ⟨admits, rfl⟩
      have transitions := enlist_transitions admits
      have first := rules_enlist ready admits
      have rest := induction (ready.transitions transitions)
      rcases current.enlist_counts record with ⟨config, marks, _, _⟩
      have markop := transitions.follows.firewall.markop
      simp only [markop, marks, config] at first rest
      have split : authenticatedOf current.marks.toMarks ((record :: records).map
          (ClientRecord.client current.config current.marks.toMarks)) =
          authenticatedOf current.marks.toMarks
              [record.client current.config current.marks.toMarks] ++
            authenticatedOf current.marks.toMarks
              (records.map (ClientRecord.client current.config current.marks.toMarks)) := by
        rw [authenticatedOf, authenticatedOf, authenticatedOf, ← List.filter_append]
        rfl
      intro authenticated
      simp only [authenticated, split, List.map_append, List.flatMap_append]
      rw [rest.1, rest.2, first.1, first.2, List.append_assoc, List.append_assoc]
      exact ⟨rfl, rfl⟩

end Gateway

/-! ## The whole file -/

/-- What a list must be for its file to be read back with the MAC lists of a
configuration. -/
structure ClientList.Restorable (list : ClientList) (config : Config) (marks : Marks) : Prop where
  inRange : ∀ node ∈ list.nodes, node.client.InRange
  macs : ∀ node ∈ list.nodes, checkMacFormat node.client.mac = true
  ips : ∀ node ∈ list.nodes, checkIpFormat node.client.ip = true
  ids : list.ids.Nodup
  pairs : list.pairs.Nodup
  room : (list.nodes.length : Int) ≤ config.maxclients
  classified : ∀ node ∈ list.nodes, node.client.Classified config marks

def ClientList.records (list : ClientList) : List ClientRecord :=
  list.nodes.map fun node => node.client.record

theorem hasHeader_export (list : ClientList) :
    (stateFileExport list).HasHeader
      (list.nodes.map fun node => stateFileExportClient node.client) := by
  refine ⟨?_, ?_, ?_⟩ <;> simp [stateFileExport, Json.field]

theorem describe_export {list : ClientList} {config : Config} {marks : Marks}
    (restorable : list.Restorable config marks) :
    Describe config.maxclients
      (list.nodes.map fun node => stateFileExportClient node.client) list.records where
  fields := by
    rw [ClientList.records, List.forall₂_map_left_iff, List.forall₂_map_right_iff,
      List.forall₂_same]
    exact fun node member => clientRecord_export (restorable.inRange node member)
  addresses := by
    intro record member
    rcases List.mem_map.mp member with ⟨node, inList, rfl⟩
    exact ⟨restorable.macs node inList, restorable.ips node inList⟩
  ids := by
    have ids : list.records.map ClientRecord.id = list.ids := List.map_map
    rw [ids]
    exact restorable.ids
  pairs := by
    have pairs : list.records.map ClientRecord.pair = list.pairs := List.map_map
    rw [pairs]
    exact restorable.pairs
  room := by
    rw [List.length_map]
    exact restorable.room

theorem clients_of_records {list : ClientList} {config : Config} {marks : Marks}
    (restorable : list.Restorable config marks) :
    list.records.map (ClientRecord.client config marks) = list.nodes.map Node.client := by
  rw [ClientList.records, List.map_map]
  apply List.map_congr_left
  intro node member
  exact client_record (restorable.classified node member)

/-- Round trip: into an empty list, the file written for a restorable list brings
back its clients in their order with all their fields, runs the authentication
commands of exactly the authenticated ones, and is what is written again. -/
theorem import_export {list : ClientList} {gateway : Gateway}
    (empty : gateway.clients.nodes = [])
    (restorable : list.Restorable gateway.config gateway.marks.toMarks) :
    let imported := gateway.stateFileImport (.document (stateFileExport list))
    let authenticated := authenticatedOf gateway.marks.toMarks (list.nodes.map Node.client)
    let markop := gateway.firewall.markop
    let marks := gateway.marks.toMarks
    imported.1 = 0 ∧
      imported.2.clients.nodes.map Node.client = list.nodes.map Node.client ∧
      imported.2.firewall = authenticateAll markop marks authenticated gateway.firewall ∧
      (gateway.Ready →
        imported.2.firewall.tables.rules .mangle .outgoing =
            gateway.firewall.tables.rules .mangle .outgoing ++
              authenticated.map (fun client => outgoingRule markop marks client.ip client.mac) ∧
          imported.2.firewall.tables.rules .mangle .incoming =
            gateway.firewall.tables.rules .mangle .incoming ++
              authenticated.flatMap (fun client => incomingRules markop marks client.ip)) ∧
      stateFileExport imported.2.clients = stateFileExport list := by
  intro imported authenticated markop marks
  have describe := describe_export restorable
  have read := Gateway.clients_of_describe empty (hasHeader_export list) describe
  rw [clients_of_records restorable] at read
  have admission : Gateway.Admission gateway list.records imported.2 := by
    rcases (Gateway.exists_admission_iff list.records gateway).mpr
      (Gateway.fits_of_describe empty describe) with ⟨final, admission⟩
    have looped := Gateway.importEntries_of_admission describe.fields admission
      invalidArgument []
    have result : imported.2 = final := by
      simp only [imported, Gateway.stateFileImport,
        (importHeader_iff _ _).mpr (hasHeader_export list)]
      rw [List.append_nil] at looped
      rw [looped]
      rfl
    rwa [result]
  have clients := clients_of_records restorable
  refine ⟨read.1, read.2, ?_, ?_, ?_⟩
  · have firewall := admission.firewall
    rwa [clients] at firewall
  · intro ready
    have rules := admission.rules ready
    rwa [clients] at rules
  · have entries := congrArg (List.map stateFileExportClient) read.2
    rw [List.map_map, List.map_map] at entries
    rw [stateFileExport, stateFileExport]
    exact congrArg (fun entries => Json.object [("version", .int 1),
      ("name", .string "nodogsplash"), ("clients", .array entries)]) entries

/-- A preauthenticated and an authenticated client. -/
def savedList : ClientList :=
  let first := defaultClient 1 "00:16:3e:00:00:01" "192.168.42.11"
  let second := defaultClient 2 "00:16:3e:00:00:02" "192.168.42.12"
  (ClientList.init.push first).push
    { second with fwConnectionState := 0x30000, sessionStart := 1000, sessionEnd := 4600 }

theorem savedList_restorable :
    savedList.Restorable defaultGateway.config defaultGateway.marks.toMarks where
  inRange := by
    intro node member
    simp only [savedList, ClientList.push, ClientList.init, List.nil_append, List.cons_append,
      List.mem_cons, List.not_mem_nil, or_false] at member
    rcases member with rfl | rfl <;> constructor <;> decide
  macs := by decide +kernel
  ips := by decide +kernel
  ids := by decide +kernel
  pairs := by decide +kernel
  room := by decide +kernel
  classified := by
    have classified : ∀ node ∈ savedList.nodes,
        node.client.fwConnectionState = 0 ∨ node.client.fwConnectionState = 0x30000 := by
      decide +kernel
    have lists : Gateway.classify defaultGateway.config defaultGateway.marks.toMarks = fun _ =>
        preauthenticatedState := rfl
    have mark : defaultGateway.marks.authenticated = 0x30000 := by decide +kernel
    intro node member
    rw [Client.Classified, lists, mark]
    rcases classified node member with state | state
    · exact .inl state
    · exact .inr ⟨state, rfl⟩

theorem import_export_default :
    let imported := defaultGateway.stateFileImport (.document (stateFileExport savedList))
    let authenticated :=
      authenticatedOf defaultGateway.marks.toMarks (savedList.nodes.map Node.client)
    let markop := defaultGateway.firewall.markop
    let marks := defaultGateway.marks.toMarks
    imported.1 = 0 ∧
      imported.2.clients.nodes.map Node.client = savedList.nodes.map Node.client ∧
      imported.2.firewall =
        authenticateAll markop marks authenticated defaultGateway.firewall ∧
      (defaultGateway.Ready →
        imported.2.firewall.tables.rules .mangle .outgoing =
            defaultGateway.firewall.tables.rules .mangle .outgoing ++
              authenticated.map (fun client => outgoingRule markop marks client.ip client.mac) ∧
          imported.2.firewall.tables.rules .mangle .incoming =
            defaultGateway.firewall.tables.rules .mangle .incoming ++
              authenticated.flatMap (fun client => incomingRules markop marks client.ip)) ∧
      stateFileExport imported.2.clients = stateFileExport savedList :=
  import_export rfl savedList_restorable

end Nodogsplash
