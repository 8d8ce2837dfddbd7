import Nodogsplash.ClientIds

/-! # Which documents are imported

What makes a document valid, said without the import, and for which documents
the import agrees. -/

namespace Nodogsplash

namespace ClientList

def pairs (list : ClientList) : List (String × String) :=
  list.nodes.map fun node => (node.client.mac, node.client.ip)

theorem find_eq_none_iff (list : ClientList) (mac ip : String) :
    list.find mac ip = none ↔ (mac, ip) ∉ list.pairs := by
  simp only [find, pairs, List.find?_eq_none, List.mem_map, not_exists, not_and, Bool.and_eq_true,
    decide_eq_true_eq, Prod.mk.injEq]

theorem findById_eq_none_iff (list : ClientList) (id : BitVec 32) :
    list.findById id = none ↔ id ∉ list.ids := by
  simp only [findById, ids, List.find?_eq_none, List.mem_map, not_exists, not_and,
    decide_eq_true_eq]

end ClientList

def ClientRecord.pair (record : ClientRecord) : String × String := (record.mac, record.ip)

structure ClientRecord.ValidAddresses (record : ClientRecord) : Prop where
  mac : checkMacFormat record.mac = true
  ip : checkIpFormat record.ip = true

/-- Entries that describe clients: all fields with their types, valid
addresses, no id and no pair of addresses twice, and not too many. The id of
an entry is the 32-bit number that `state_file_import_client` reads. -/
structure Describe (maxclients : Int) (entries : List Json) (records : List ClientRecord) :
    Prop where
  fields : List.Forall₂ (fun entry record => Json.clientRecord entry = some record) entries records
  addresses : ∀ record ∈ records, record.ValidAddresses
  ids : (records.map ClientRecord.id).Nodup
  pairs : (records.map ClientRecord.pair).Nodup
  room : (entries.length : Int) ≤ maxclients

structure Json.HasHeader (top : Json) (entries : List Json) : Prop where
  version : top.field "version" = some (.int 1)
  name : top.field "name" = some (.string "nodogsplash")
  clients : top.field "clients" = some (.array entries)

def Json.ValidDocument (maxclients : Int) (top : Json) : Prop :=
  ∃ entries records, top.HasHeader entries ∧ Describe maxclients entries records

/-- An empty list of clients is not too long, and no entry that is not an object
stands right behind entries that describe clients. -/
def Json.WithoutStray (maxclients : Int) (top : Json) : Prop :=
  ∀ entries, top.HasHeader entries → (entries = [] → 0 ≤ maxclients) ∧
    ∀ leading records entry rest, entries = leading ++ entry :: rest → leading ≠ [] →
      Describe maxclients leading records → entry.isObject = true

/-! ## The header -/

theorem Json.getInt64_eq_one (value : Json) : value.getInt64 = some 1 ↔ value = .int 1 := by
  cases value with
  | int number =>
      simp only [getInt64, Option.some.injEq, Json.int.injEq]
      omega
  | _ => simp [getInt64]

theorem Json.getString_eq_some (value : Json) (text : String) :
    value.getString = some text ↔ value = .string text := by
  cases value <;> simp [getString]

theorem Json.getArray_eq_some (value : Json) (entries : List Json) :
    value.getArray = some entries ↔ value = .array entries := by
  cases value <;> simp [getArray]

theorem Json.getField_eq_some {α : Type} (object : Json) (name : String) (read : Json → Option α)
    (value : α) :
    object.getField name read = some value ↔
      ∃ found, object.field name = some found ∧ read found = some value :=
  Option.bind_eq_some_iff

theorem importHeader_iff (top : Json) (entries : List Json) :
    importHeader top = some entries ↔ top.HasHeader entries := by
  constructor
  · intro header
    rcases Option.bind_eq_some_iff.mp header with ⟨version, readVersion, rest⟩
    by_cases one : version = 1
    · subst one
      simp only [ne_eq, not_true_eq_false, if_false] at rest
      rcases Option.bind_eq_some_iff.mp rest with ⟨name, readName, rest⟩
      by_cases own : name = "nodogsplash"
      · subst own
        simp only [Json.getField_eq_some, Json.getInt64_eq_one, Json.getString_eq_some,
          exists_eq_right] at readVersion readName
        simp only [not_true_eq_false, if_false, Json.getField_eq_some, Json.getArray_eq_some,
          exists_eq_right] at rest
        exact ⟨readVersion, readName, rest⟩
      · simp [own] at rest
    · simp [one] at rest
  · rintro ⟨version, name, clients⟩
    simp [importHeader, Json.getField, version, name, clients, Json.getInt64, Json.getString,
      Json.getArray]

/-! ## The entries -/

theorem isObject_of_clientRecord {entry : Json} {record : ClientRecord}
    (read : entry.clientRecord = some record) : entry.isObject = true := by
  have identity := importIdentity_of_clientRecord read
  cases entry with
  | object fields => rfl
  | _ => simp [Gateway.importIdentity, Json.getField, Json.field] at identity

theorem isObject_of_fields {entries : List Json} {records : List ClientRecord}
    (fields : List.Forall₂ (fun entry record => Json.clientRecord entry = some record)
      entries records) : ∀ entry ∈ entries, entry.isObject = true := by
  induction fields with
  | nil => exact fun _ member => nomatch member
  | cons read _ induction =>
      exact List.forall_mem_cons.mpr ⟨isObject_of_clientRecord read, induction⟩

namespace Gateway

structure Fits (gateway : Gateway) (records : List ClientRecord) : Prop where
  addresses : ∀ record ∈ records, record.ValidAddresses
  ids : (records.map ClientRecord.id).Nodup
  pairs : (records.map ClientRecord.pair).Nodup
  newIds : ∀ record ∈ records, record.id ∉ gateway.clients.ids
  newPairs : ∀ record ∈ records, record.pair ∉ gateway.clients.pairs
  room : records ≠ [] →
    gateway.clients.clientCount + records.length ≤ gateway.config.maxclients

theorem admits_iff (gateway : Gateway) (record : ClientRecord) :
    gateway.Admits record ↔ record.ValidAddresses ∧ record.pair ∉ gateway.clients.pairs ∧
      record.id ∉ gateway.clients.ids ∧
      gateway.clients.clientCount < gateway.config.maxclients := by
  rw [← ClientList.findById_eq_none_iff, ClientRecord.pair, ← ClientList.find_eq_none_iff]
  constructor
  · rintro ⟨mac, ip, absent, unused, room⟩
    exact ⟨⟨mac, ip⟩, absent, unused, room⟩
  · rintro ⟨⟨mac, ip⟩, absent, unused, room⟩
    exact ⟨mac, ip, absent, unused, room⟩

theorem pairs_enlist (gateway : Gateway) (record : ClientRecord) :
    (gateway.enlist record).clients.pairs = gateway.clients.pairs ++ [record.pair] := by
  simp [ClientList.pairs, nodes_enlist, ClientRecord.client, ClientRecord.pair]

theorem ids_enlist (gateway : Gateway) (record : ClientRecord) :
    (gateway.enlist record).clients.ids = gateway.clients.ids ++ [record.id] := by
  simp [ClientList.ids, nodes_enlist, ClientRecord.client]

theorem clientCount_enlist (gateway : Gateway) (record : ClientRecord) :
    (gateway.enlist record).clients.clientCount = gateway.clients.clientCount + 1 := by
  rw [ClientList.counted, ClientList.counted, nodes_enlist]
  simp

theorem exists_admission_iff (records : List ClientRecord) (gateway : Gateway) :
    (∃ final, Admission gateway records final) ↔ gateway.Fits records := by
  induction records generalizing gateway with
  | nil =>
      constructor
      · intro _
        exact ⟨by simp, .nil, .nil, by simp, by simp, fun nonempty => absurd rfl nonempty⟩
      · intro _
        exact ⟨gateway, .nil gateway⟩
  | cons record records induction =>
      have config := (gateway.enlist_counts record).1
      constructor
      · rintro ⟨final, admission⟩
        cases admission with
        | cons step rest =>
            rcases step with ⟨admits, rfl⟩
            rcases (gateway.admits_iff record).mp admits with ⟨valid, newPair, newId, room⟩
            have fits := (induction (gateway.enlist record)).mp ⟨final, rest⟩
            have counted := fits.room
            have ids := fits.newIds
            have pairs := fits.newPairs
            rw [clientCount_enlist, config] at counted
            simp only [ids_enlist, List.mem_append, List.mem_singleton, not_or] at ids
            simp only [pairs_enlist, List.mem_append, List.mem_singleton, not_or] at pairs
            refine ⟨List.forall_mem_cons.mpr ⟨valid, fits.addresses⟩, ?_, ?_,
              List.forall_mem_cons.mpr ⟨newId, fun other member => (ids other member).1⟩,
              List.forall_mem_cons.mpr ⟨newPair, fun other member => (pairs other member).1⟩, ?_⟩
            · rw [List.map_cons, List.nodup_cons]
              refine ⟨fun member => ?_, fits.ids⟩
              rcases List.mem_map.mp member with ⟨other, inRest, equal⟩
              exact (ids other inRest).2 equal
            · rw [List.map_cons, List.nodup_cons]
              refine ⟨fun member => ?_, fits.pairs⟩
              rcases List.mem_map.mp member with ⟨other, inRest, equal⟩
              exact (pairs other inRest).2 equal
            · intro _
              rw [List.length_cons]
              by_cases last : records = []
              · rw [last, List.length_nil]
                omega
              · have rest := counted last
                omega
      · intro fits
        have admits : gateway.Admits record := by
          have room := fits.room (List.cons_ne_nil record records)
          rw [List.length_cons] at room
          exact (gateway.admits_iff record).mpr ⟨fits.addresses record List.mem_cons_self,
            fits.newPairs record List.mem_cons_self, fits.newIds record List.mem_cons_self,
            by omega⟩
        have ids := List.nodup_cons.mp fits.ids
        have pairs := List.nodup_cons.mp fits.pairs
        have rest : (gateway.enlist record).Fits records := by
          refine ⟨fun other member => fits.addresses other (List.mem_cons_of_mem _ member),
            ids.2, pairs.2, ?_, ?_, ?_⟩
          · intro other member
            rw [ids_enlist, List.mem_append, List.mem_singleton, not_or]
            exact ⟨fits.newIds other (List.mem_cons_of_mem _ member),
              fun equal => ids.1 (equal ▸ List.mem_map_of_mem member)⟩
          · intro other member
            rw [pairs_enlist, List.mem_append, List.mem_singleton, not_or]
            exact ⟨fits.newPairs other (List.mem_cons_of_mem _ member),
              fun equal => pairs.1 (equal ▸ List.mem_map_of_mem member)⟩
          · intro _
            have room := fits.room (List.cons_ne_nil record records)
            rw [List.length_cons] at room
            rw [clientCount_enlist, config]
            omega
        rcases (induction (gateway.enlist record)).mpr rest with ⟨final, admission⟩
        exact ⟨final, .cons ⟨admits, rfl⟩ admission⟩

theorem importEntries_of_admission {gateway final : Gateway} {entries : List Json}
    {records : List ClientRecord}
    (fields : List.Forall₂ (fun entry record => Json.clientRecord entry = some record)
      entries records)
    (admission : Admission gateway records final) (rc : Int) (rest : List Json) :
    gateway.importEntries rc (entries ++ rest) =
      final.importEntries (if records = [] then rc else 0) rest := by
  induction fields generalizing gateway rc with
  | nil =>
      cases admission
      rfl
  | @cons entry record entries records read _ induction =>
      cases admission with
      | cons step admission =>
          rcases step with ⟨admits, rfl⟩
          have first := stateFileImportClient_of_admits read admits
          have tail := induction admission 0
          rw [ite_self] at tail
          simpa [importEntries, isObject_of_clientRecord read, first] using tail

section

variable {gateway : Gateway} (empty : gateway.clients.nodes = [])

include empty

theorem ids_of_empty : gateway.clients.ids = [] := by
  rw [ClientList.ids, empty]
  rfl

theorem pairs_of_empty : gateway.clients.pairs = [] := by
  rw [ClientList.pairs, empty]
  rfl

theorem clientCount_of_empty : gateway.clients.clientCount = 0 := by
  rw [gateway.clients.counted, empty]
  rfl

theorem fits_of_describe {entries : List Json} {records : List ClientRecord}
    (describe : Describe gateway.config.maxclients entries records) : gateway.Fits records where
  addresses := describe.addresses
  ids := describe.ids
  pairs := describe.pairs
  newIds := by simp [ids_of_empty empty]
  newPairs := by simp [pairs_of_empty empty]
  room := by
    intro _
    rw [clientCount_of_empty empty, ← describe.fields.length_eq, zero_add]
    exact describe.room

theorem describe_of_fits {entries : List Json} {records : List ClientRecord}
    (fields : List.Forall₂ (fun entry record => Json.clientRecord entry = some record)
      entries records)
    (nonempty : records ≠ []) (fits : gateway.Fits records) :
    Describe gateway.config.maxclients entries records where
  fields := fields
  addresses := fits.addresses
  ids := fits.ids
  pairs := fits.pairs
  room := by
    have room := fits.room nonempty
    rwa [clientCount_of_empty empty, zero_add, ← fields.length_eq] at room

theorem importEntries_of_describe {entries : List Json} {records : List ClientRecord}
    (describe : Describe gateway.config.maxclients entries records) (rc : Int) :
    (gateway.importEntries rc entries).1 = 0 ∧
      (gateway.importEntries rc entries).2.clients.nodes.map Node.client =
        records.map (ClientRecord.client gateway.config gateway.marks.toMarks) := by
  rcases (exists_admission_iff records gateway).mpr (fits_of_describe empty describe) with
    ⟨final, admission⟩
  have imported := importEntries_of_admission describe.fields admission rc []
  rw [List.append_nil] at imported
  rw [imported]
  refine ⟨rfl, ?_⟩
  have clients := admission.clients
  rw [empty] at clients
  exact clients

end

/-- What the import has to return, and to leave on an empty list. -/
structure ImportsValid (gateway : Gateway) (top : Json) : Prop where
  accepts : (gateway.stateFileImport (.document top)).1 = 0 ↔
    top.ValidDocument gateway.config.maxclients
  clients : ∀ entries records, top.HasHeader entries →
    Describe gateway.config.maxclients entries records →
      (gateway.stateFileImport (.document top)).2.clients.nodes.map Node.client =
        records.map (ClientRecord.client gateway.config gateway.marks.toMarks)
  rejects : ¬ top.ValidDocument gateway.config.maxclients →
    (gateway.stateFileImport (.document top)).1 < 0

theorem clients_of_describe {gateway : Gateway} (empty : gateway.clients.nodes = []) {top : Json}
    {entries : List Json} {records : List ClientRecord} (header : top.HasHeader entries)
    (describe : Describe gateway.config.maxclients entries records) :
    (gateway.stateFileImport (.document top)).1 = 0 ∧
      (gateway.stateFileImport (.document top)).2.clients.nodes.map Node.client =
        records.map (ClientRecord.client gateway.config gateway.marks.toMarks) := by
  simp only [stateFileImport, (importHeader_iff top entries).mpr header]
  exact importEntries_of_describe empty describe _

theorem stateFileImport_document_le (gateway : Gateway) (top : Json) :
    (gateway.stateFileImport (.document top)).1 ≤ 0 := by
  cases header : importHeader top with
  | none => simp [stateFileImport, header, invalidArgument]
  | some entries =>
      simp only [stateFileImport, header]
      rcases importEntries_cases invalidArgument entries gateway with
        ⟨records, final, _, _, equal⟩ | failed
      · rw [equal]
        split <;> simp [invalidArgument]
      · rw [failed]
        decide

theorem validDocument_of_accepted {gateway : Gateway} (empty : gateway.clients.nodes = [])
    {top : Json} (clean : top.WithoutStray gateway.config.maxclients)
    (accepted : (gateway.stateFileImport (.document top)).1 = 0) :
    top.ValidDocument gateway.config.maxclients := by
  cases header : importHeader top with
  | none => simp [stateFileImport, header, invalidArgument] at accepted
  | some entries =>
      simp only [stateFileImport, header] at accepted
      have hasHeader := (importHeader_iff top entries).mp header
      rcases clean entries hasHeader with ⟨emptyFits, noStray⟩
      rcases importEntries_cases invalidArgument entries gateway with
        ⟨records, final, fields, admission, equal⟩ | failed
      · have fits := (exists_admission_iff records gateway).mp ⟨final, admission⟩
        have whole := List.takeWhile_append_dropWhile (p := Json.isObject) (l := entries)
        cases rest : entries.dropWhile Json.isObject with
        | nil =>
            rw [rest, List.append_nil] at whole
            rw [whole] at fields
            refine ⟨entries, records, hasHeader, ?_⟩
            by_cases none : records = []
            · subst none
              cases fields
              exact ⟨.nil, by simp, .nil, .nil, emptyFits rfl⟩
            · exact describe_of_fits empty fields none fits
        | cons entry rest' =>
            -- The loop has stopped at an entry that is no object, with `rc` still 0.
            have stray : entry.isObject = false := by
              have head := List.head?_dropWhile_not Json.isObject entries
              simpa [rest] using head
            by_cases none : records = []
            · rw [equal] at accepted
              simp [rest, none, invalidArgument] at accepted
            · rw [rest] at whole
              have leading : entries.takeWhile Json.isObject ≠ [] := by
                intro nothing
                rw [nothing] at fields
                cases fields
                exact none rfl
              have object := noStray _ records entry rest' whole.symm leading
                (describe_of_fits empty fields none fits)
              rw [stray] at object
              cases object
      · rw [failed] at accepted
        exact absurd accepted (by decide)

end Gateway

/-- A state file with the entries of two clients and what follows them. -/
def twoClientsFile (rest : List Json) : Json :=
  let first := defaultClient 1 "00:16:3e:00:00:01" "192.168.42.11"
  let second := defaultClient 2 "00:16:3e:00:00:02" "192.168.42.12"
  .object [("version", .int 1), ("name", .string "nodogsplash"),
    ("clients", .array ([first, second].map stateFileExportClient ++ rest))]

end Nodogsplash
