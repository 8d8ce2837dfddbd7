import Nodogsplash.Transition

/-! # What the import makes of its entries

An entry of the state file read as one record, when `state_file_import_client`
admits it, and the client list after any number of entries. -/

namespace Nodogsplash

open Gateway (importIdentity classify)

structure ClientRecord where
  mac : String
  ip : String
  id : BitVec 32
  token : String
  sessionStart : Int
  sessionEnd : Int
  downloadLimit : Int
  uploadLimit : Int
  counters : Counters
  state : BitVec 32
  deriving DecidableEq

def Json.clientRecord (entry : Json) : Option ClientRecord := do
  let (mac, ip, id) ← importIdentity entry
  let token ← entry.getField "token" getString
  let sessionStart ← entry.getField "session_start" getUint64
  let sessionEnd ← entry.getField "session_end" getUint64
  let downloadLimit ← entry.getField "download_limit" getInt
  let uploadLimit ← entry.getField "upload_limit" getInt
  let counters ← entry.getField "counters" getObject
  let incoming ← counters.getField "incoming" getUint64
  let outgoing ← counters.getField "outgoing" getUint64
  let lastUpdated ← counters.getField "last_updated" getUint64
  let state ← entry.getField "fw_connection_state" getInt64
  return {
    mac, ip, id, token, downloadLimit, uploadLimit
    sessionStart := toTime sessionStart
    sessionEnd := toTime sessionEnd
    counters := ⟨incoming, outgoing, toTime lastUpdated⟩
    state := BitVec.ofInt 32 state }

namespace ClientRecord

def assign (record : ClientRecord) (client : Client) : Client :=
  { client with
    token := record.token
    id := record.id
    sessionStart := record.sessionStart
    sessionEnd := record.sessionEnd
    downloadLimit := record.downloadLimit
    uploadLimit := record.uploadLimit
    counters := record.counters }

/-- The state of the client in the end: `auth_change_state` only authenticates
those that are preauthenticated. -/
def restoredState (config : Config) (marks : Marks) (record : ClientRecord) : BitVec 32 :=
  if classify config marks record.mac = preauthenticatedState ∧
      record.state = marks.authenticated then
    marks.authenticated
  else classify config marks record.mac

def client (config : Config) (marks : Marks) (record : ClientRecord) : Client where
  ip := record.ip
  mac := record.mac
  token := record.token
  fwConnectionState := record.restoredState config marks
  sessionStart := record.sessionStart
  sessionEnd := record.sessionEnd
  counters := record.counters
  downloadLimit := record.downloadLimit
  uploadLimit := record.uploadLimit
  id := record.id

end ClientRecord

/-- The entries of the client array before the first that is not an object. -/
def StateFile.leadingObjects : StateFile → List Json
  | .document top => ((importHeader top).getD []).takeWhile Json.isObject
  | _ => []

/-! ## One entry -/

theorem importIdentity_of_clientRecord {entry : Json} {record : ClientRecord}
    (read : entry.clientRecord = some record) :
    importIdentity entry = some (record.mac, record.ip, record.id) := by
  cases identity : importIdentity entry with
  | none => simp [Json.clientRecord, identity] at read
  | some fields =>
      simp only [Json.clientRecord, identity, Option.bind_eq_bind, Option.bind_some,
        Option.bind_eq_some_iff, Option.pure_def, Option.some.injEq] at read
      rcases read with ⟨_, _, _, _, _, _, _, _, _, _, _, _, _, _, _, _, _, _, _, _, rfl⟩
      rfl

theorem importAssignments_of_clientRecord {entry : Json} {record : ClientRecord}
    (read : entry.clientRecord = some record) (client : Client) :
    importAssignments entry record.id client = (true, record.assign client) := by
  cases identity : importIdentity entry with
  | none => simp [Json.clientRecord, identity] at read
  | some fields =>
      simp only [Json.clientRecord, identity, Option.bind_eq_bind, Option.bind_some,
        Option.bind_eq_some_iff, Option.pure_def, Option.some.injEq] at read
      rcases read with ⟨_, token, _, sessionStart, _, sessionEnd, _, downloadLimit, _,
        uploadLimit, _, counters, _, incoming, _, outgoing, _, lastUpdated, _, _, rfl⟩
      simp [importAssignments, importFields, clientFields, counterFields, token, sessionStart,
        sessionEnd, downloadLimit, uploadLimit, counters, incoming, outgoing, lastUpdated,
        ClientRecord.assign]

theorem state_of_clientRecord {entry : Json} {record : ClientRecord}
    (read : entry.clientRecord = some record) :
    ∃ value, entry.getField "fw_connection_state" Json.getInt64 = some value ∧
      BitVec.ofInt 32 value = record.state := by
  cases identity : importIdentity entry with
  | none => simp [Json.clientRecord, identity] at read
  | some fields =>
      simp only [Json.clientRecord, identity, Option.bind_eq_bind, Option.bind_some,
        Option.bind_eq_some_iff, Option.pure_def, Option.some.injEq] at read
      rcases read with ⟨_, _, _, _, _, _, _, _, _, _, _, _, _, _, _, _, _, _, value, state, rfl⟩
      exact ⟨value, state, rfl⟩

theorem importFields_complete_iff (entry : Json) (fields : List FieldImport) (client : Client) :
    (importFields entry fields client).1 = true ↔
      ∀ read ∈ fields, (read entry).isSome = true := by
  induction fields generalizing client with
  | nil => simp [importFields]
  | cons read rest induction =>
      cases assigned : read entry with
      | none => simp [importFields, assigned]
      | some assign => simp [importFields, assigned, induction]

theorem clientRecord_of_complete {entry : Json} {mac ip : String} {id : BitVec 32}
    {client : Client} {value : Int} (identity : importIdentity entry = some (mac, ip, id))
    (complete : (importAssignments entry id client).1 = true)
    (state : entry.getField "fw_connection_state" Json.getInt64 = some value) :
    ∃ record, entry.clientRecord = some record := by
  simp only [importAssignments] at complete
  split at complete
  · cases complete
  · rename_i first
    cases counters : entry.getField "counters" Json.getObject with
    | none => simp [counters] at complete
    | some object =>
        simp only [counters, importFields_complete_iff] at complete
        simp only [Bool.not_eq_true, Bool.not_eq_false', importFields_complete_iff] at first
        simp only [clientFields, counterFields, List.forall_mem_cons, List.not_mem_nil,
          Option.isSome_map, IsEmpty.forall_iff, implies_true, and_true] at first complete
        simp only [Option.isSome_iff_exists] at first complete
        rcases first with ⟨⟨_, token⟩, ⟨_, sessionStart⟩, ⟨_, sessionEnd⟩, ⟨_, downloadLimit⟩,
          ⟨_, uploadLimit⟩⟩
        rcases complete with ⟨⟨_, incoming⟩, ⟨_, outgoing⟩, ⟨_, lastUpdated⟩⟩
        simp [Json.clientRecord, identity, token, sessionStart, sessionEnd, downloadLimit,
          uploadLimit, counters, incoming, outgoing, lastUpdated, state]

namespace Gateway

/-- A client can be made of the record: addresses that are valid, not on the
list and for which there is room, and an id that is not on the list. -/
structure Admits (gateway : Gateway) (record : ClientRecord) : Prop where
  mac : checkMacFormat record.mac = true
  ip : checkIpFormat record.ip = true
  absent : gateway.clients.find record.mac record.ip = none
  unused : gateway.clients.findById record.id = none
  room : gateway.clients.clientCount < gateway.config.maxclients

/-- The list element of a record once all fields but the state are assigned. -/
def recordNode (gateway : Gateway) (record : ClientRecord) : Node where
  address := gateway.clients.created
  client := record.assign (gateway.newClient record.mac record.ip gateway.drawToken.1)

def addRecord (gateway : Gateway) (record : ClientRecord) : Gateway :=
  let client := gateway.newClient record.mac record.ip gateway.drawToken.1
  let added : Gateway :=
    { gateway with drawn := gateway.drawn + 2, clients := gateway.clients.push client }
  added.modifyClient gateway.clients.created record.assign

def enlist (gateway : Gateway) (record : ClientRecord) : Gateway :=
  ((gateway.addRecord record).authChangeState (gateway.recordNode record) record.state
    (some "import_state_file")).2

theorem stateFileImportClient_of_admits {gateway : Gateway} {entry : Json}
    {record : ClientRecord} (read : entry.clientRecord = some record)
    (admits : gateway.Admits record) :
    gateway.stateFileImportClient entry = (0, gateway.enlist record) := by
  rcases state_of_clientRecord read with ⟨value, state, equal⟩
  have appended : ¬ gateway.clients.clientCount ≥ gateway.config.maxclients :=
    not_le.mpr admits.room
  simp only [stateFileImportClient, importIdentity_of_clientRecord read, admits.absent,
    admits.unused, Option.isSome_none, clientListAddClient, admits.mac, admits.ip,
    clientListAppend, if_neg appended, importInto, importAssignments_of_clientRecord read, state,
    equal]
  rfl

theorem admits_of_stateFileImportClient {gateway : Gateway} {entry : Json}
    (imported : (gateway.stateFileImportClient entry).1 = 0) :
    ∃ record, entry.clientRecord = some record ∧ gateway.Admits record := by
  cases identity : importIdentity entry with
  | none => simp [stateFileImportClient, identity] at imported
  | some fields =>
      rcases fields with ⟨mac, ip, id⟩
      cases found : gateway.clients.find mac ip with
      | some node => simp [stateFileImportClient, identity, found] at imported
      | none =>
          cases used : gateway.clients.findById id with
          | some node => simp [stateFileImportClient, identity, found, used] at imported
          | none =>
              rcases gateway.clientListAddClient_cases mac ip with
                ⟨_, present, _⟩ | ⟨node, next, validMac, validIp, _, appended, added⟩ | refused
              · rw [found] at present
                cases present
              · simp only [stateFileImportClient, identity, found, used, added,
                  Option.isSome_none, Bool.false_eq_true, if_false] at imported
                rcases clientListAppend_eq appended with ⟨room, _, _⟩
                simp only [importInto] at imported
                split at imported
                · simp at imported
                · rename_i complete
                  simp only [Bool.not_eq_true, Bool.not_eq_false'] at complete
                  split at imported
                  · simp at imported
                  · rename_i value state
                    rcases clientRecord_of_complete identity complete state with ⟨record, read⟩
                    have same := importIdentity_of_clientRecord read
                    rw [identity] at same
                    cases same
                    exact ⟨record, read, validMac, validIp, found, used, room⟩
              · simp [stateFileImportClient, identity, found, used, refused] at imported

/-! ## The gateway with a client more -/

theorem nodes_addRecord (gateway : Gateway) (record : ClientRecord) :
    (gateway.addRecord record).clients.nodes =
      gateway.clients.nodes ++ [gateway.recordNode record] := by
  have old : ∀ node ∈ gateway.clients.nodes, node.address ≠ gateway.clients.created :=
    fun node member => Nat.ne_of_lt (gateway.clients.allocated node member)
  exact KeyedList.update_split Node.address _
    ⟨gateway.clients.created, gateway.newClient record.mac record.ip _⟩ old
    (List.forall_mem_nil _)

/-- Admitting a record authenticates the client, or leaves its state as it was
when the client was added. -/
theorem enlist_cases (gateway : Gateway) (record : ClientRecord) :
    (classify gateway.config gateway.marks.toMarks record.mac = preauthenticatedState ∧
      record.state = gateway.marks.authenticated ∧
      gateway.enlist record = (gateway.addRecord record).enterAuthenticated
        (gateway.recordNode record) (some "import_state_file")) ∨
    (record.restoredState gateway.config gateway.marks.toMarks =
        classify gateway.config gateway.marks.toMarks record.mac ∧
      gateway.enlist record = gateway.addRecord record) := by
  have never := classify_ne_authenticated gateway.config gateway.marks record.mac
  by_cases authenticates :
      classify gateway.config gateway.marks.toMarks record.mac = preauthenticatedState ∧
        record.state = gateway.marks.authenticated
  · left
    rcases authenticates with ⟨preauthenticated, target⟩
    refine ⟨preauthenticated, target, ?_⟩
    rw [enlist, target]
    exact congrArg Prod.snd
      (authChangeState_of_preauthenticated (gateway.addRecord record) _ preauthenticated)
  · right
    refine ⟨if_neg authenticates, ?_⟩
    rcases (gateway.addRecord record).authChangeState_cases (gateway.recordNode record)
        record.state (some "import_state_file") with
      ⟨preauthenticated, target, _⟩ | ⟨authenticated, _⟩ | ⟨authenticated, _⟩ | unchanged
    · exact absurd ⟨preauthenticated, target⟩ authenticates
    · exact absurd authenticated never
    · exact absurd authenticated never
    · rw [enlist, unchanged]

theorem nodes_enlist (gateway : Gateway) (record : ClientRecord) :
    (gateway.enlist record).clients.nodes = gateway.clients.nodes ++
      [⟨gateway.clients.created, record.client gateway.config gateway.marks.toMarks⟩] := by
  rcases gateway.enlist_cases record with
    ⟨preauthenticated, target, admitted⟩ | ⟨restored, admitted⟩
  · have old : ∀ node ∈ gateway.clients.nodes, node.address ≠ gateway.clients.created :=
      fun node member => Nat.ne_of_lt (gateway.clients.allocated node member)
    have restored : record.restoredState gateway.config gateway.marks.toMarks =
      gateway.marks.authenticated := if_pos ⟨preauthenticated, target⟩
    have updated := KeyedList.update_split Node.address
      (fun node => { node with client :=
        { node.client with fwConnectionState := gateway.marks.authenticated } })
      (gateway.recordNode record) old (fun _ member => List.not_mem_nil.elim member)
    rw [admitted, enterAuthenticated_clients, ClientList.modify]
    simp only [nodes_addRecord]
    refine updated.trans ?_
    simp [recordNode, ClientRecord.client, restored, ClientRecord.assign, newClient, resetFields]
  · rw [admitted, nodes_addRecord]
    simp [recordNode, ClientRecord.client, restored, ClientRecord.assign, newClient, resetFields]

theorem enlist_counts (gateway : Gateway) (record : ClientRecord) :
    (gateway.enlist record).config = gateway.config ∧
      (gateway.enlist record).marks = gateway.marks ∧
      (gateway.enlist record).clients.created = gateway.clients.created + 1 ∧
      (gateway.enlist record).clients.clientId = gateway.clients.clientId + 1 := by
  rcases gateway.enlist_cases record with ⟨_, _, admitted⟩ | ⟨_, admitted⟩
  · rw [admitted, enterAuthenticated_config, enterAuthenticated_marks,
      enterAuthenticated_clients]
    exact ⟨rfl, rfl, rfl, rfl⟩
  · rw [admitted]
    exact ⟨rfl, rfl, rfl, rfl⟩

/-! ## All entries -/

abbrev Admission : Gateway → List ClientRecord → Gateway → Prop :=
  Execution.Run fun gateway record next => gateway.Admits record ∧ next = gateway.enlist record

theorem Admission.clients {gateway final : Gateway} {records : List ClientRecord}
    (admission : Admission gateway records final) :
    final.clients.nodes.map Node.client = gateway.clients.nodes.map Node.client ++
      records.map (ClientRecord.client gateway.config gateway.marks.toMarks) := by
  induction admission with
  | nil => simp
  | @cons current middle final record records step _ induction =>
      rcases step with ⟨_, rfl⟩
      rcases current.enlist_counts record with ⟨config, marks, _, _⟩
      rw [induction, nodes_enlist, config, marks]
      simp

theorem Admission.counts {gateway final : Gateway} {records : List ClientRecord}
    (admission : Admission gateway records final) :
    final.config = gateway.config ∧ final.marks = gateway.marks ∧
      final.clients.created = gateway.clients.created + records.length ∧
      final.clients.clientId = gateway.clients.clientId + BitVec.ofNat 32 records.length := by
  induction admission with
  | nil => simp
  | @cons current middle final record records step _ induction =>
      rcases step with ⟨_, rfl⟩
      rcases current.enlist_counts record with ⟨config, marks, created, clientId⟩
      rcases induction with ⟨finalConfig, finalMarks, finalCreated, finalId⟩
      refine ⟨finalConfig.trans config, finalMarks.trans marks, ?_, ?_⟩
      · rw [finalCreated, created, List.length_cons]
        omega
      · rw [finalId, clientId, List.length_cons, BitVec.ofNat_add]
        bv_omega

/-- The loop admits the records of its leading objects, or it fails with -3.
When another entry follows these, `rc` decides. -/
theorem importEntries_cases (rc : Int) (entries : List Json) (gateway : Gateway) :
    (∃ records final,
      List.Forall₂ (fun entry record => Json.clientRecord entry = some record)
        (entries.takeWhile Json.isObject) records ∧
      Admission gateway records final ∧
      gateway.importEntries rc entries =
        (if entries.dropWhile Json.isObject = [] ∨ records ≠ [] then 0 else rc, final)) ∨
    (gateway.importEntries rc entries).1 = -3 := by
  induction entries generalizing rc gateway with
  | nil => exact .inl ⟨[], gateway, .nil, .nil gateway, rfl⟩
  | cons entry rest induction =>
      cases object : entry.isObject with
      | false =>
          left
          exact ⟨[], gateway, by simp [object], .nil gateway, by simp [importEntries, object]⟩
      | true =>
          by_cases imported : (gateway.stateFileImportClient entry).1 = 0
          · rcases admits_of_stateFileImportClient imported with ⟨record, read, admits⟩
            have first := stateFileImportClient_of_admits read admits
            rcases induction 0 (gateway.enlist record) with
              ⟨records, final, parsed, admission, equal⟩ | failed
            · left
              refine ⟨record :: records, final, ?_, .cons ⟨admits, rfl⟩ admission, ?_⟩
              · simpa [object] using ⟨read, parsed⟩
              · simpa [importEntries, object, first] using equal
            · right
              simpa [importEntries, object, first] using failed
          · right
            simp [importEntries, object, imported]

/-- Whenever the import does not fail, it has admitted the records of the
leading objects of the document. -/
theorem admission_of_stateFileImport {gateway : Gateway} {stateFile : StateFile}
    (accepted : 0 ≤ (gateway.stateFileImport stateFile).1) :
    ∃ records,
      List.Forall₂ (fun entry record => Json.clientRecord entry = some record)
        stateFile.leadingObjects records ∧
      Admission gateway records (gateway.stateFileImport stateFile).2 := by
  cases stateFile with
  | missing | inaccessible | unparsable => exact ⟨[], .nil, .nil gateway⟩
  | document top =>
      cases header : importHeader top with
      | none => simp [stateFileImport, header, invalidArgument] at accepted
      | some entries =>
          simp only [stateFileImport, header] at accepted ⊢
          rcases importEntries_cases invalidArgument entries gateway with
            ⟨records, final, parsed, admission, equal⟩ | failed
          · rw [equal]
            exact ⟨records, by simpa [StateFile.leadingObjects, header] using parsed, admission⟩
          · rw [failed] at accepted
            exact absurd accepted (by decide)

end Gateway

end Nodogsplash
