import Nodogsplash.Import
import Nodogsplash.Start

/-! # The ids of the clients

Ids come from the counter of `_client_list_append` and, for imported clients,
from the state file. As long as the two do not meet, every id stands for one
client. -/

namespace Nodogsplash

namespace ClientList

def ids (list : ClientList) : List (BitVec 32) := list.nodes.map fun node => node.client.id

/-- Every id on the list stands for one client. -/
structure Identified (list : ClientList) : Prop where
  nonzero : ∀ id ∈ list.ids, id ≠ 0
  distinct : list.ids.Nodup

theorem Identified.findById_self {list : ClientList} (identified : list.Identified) {node : Node}
    (member : node ∈ list.nodes) : list.findById node.client.id = some node :=
  KeyedList.find?_key (fun node : Node => node.client.id) identified.distinct member

/-- The counter has counted the elements created so far. The ids on the list
are out of its way: it has passed them, never gets to them, or there is no room
for another client next to theirs. -/
structure Numbered (maxclients : Int) (list : ClientList) : Prop extends Identified list where
  counter : list.clientId = BitVec.ofNat 32 (list.created + 1)
  apart : ∀ id ∈ list.ids, id.toNat ≤ list.created ∨ 2 ^ 31 ≤ id.toNat ∨ maxclients ≤ 1

theorem ids_push (list : ClientList) (client : Client) :
    (list.push client).ids = list.ids ++ [client.id] :=
  List.map_append

theorem ids_modify (list : ClientList) (address : Nat) {change : Client → Client}
    (keepsId : ∀ client, (change client).id = client.id) :
    (list.modify address change).ids = list.ids := by
  simp only [ids, modify, KeyedList.update, List.map_map]
  apply List.map_congr_left
  intro node _
  by_cases same : node.address = address <;> simp [same, keepsId]

theorem ids_delete_sublist (list : ClientList) (address : Nat) :
    (list.delete address).ids.Sublist list.ids := by
  rw [ids, nodes_delete]
  exact (KeyedList.remove_sublist _ _ _).map _

namespace Numbered

variable {maxclients : Int} {list : ClientList}

theorem push (numbered : list.Numbered maxclients) {client : Client}
    (id : client.id = list.clientId) (few : list.created + 1 < 2 ^ 31)
    (room : list.clientCount < maxclients) : (list.push client).Numbered maxclients := by
  have fresh : client.id.toNat = list.created + 1 := by
    rw [id, numbered.counter, BitVec.toNat_ofNat]
    omega
  have unused : client.id ∉ list.ids := by
    intro member
    rcases numbered.apart _ member with passed | never | single
    · omega
    · omega
    · have counted := list.counted
      have nonempty : 0 < list.nodes.length := by
        rw [← List.length_map (f := fun node : Node => node.client.id)]
        exact List.length_pos_of_mem member
      omega
  refine ⟨⟨?_, ?_⟩, ?_, ?_⟩
  · intro other member
    rw [ids_push] at member
    rcases List.mem_append.mp member with old | new
    · exact numbered.nonzero other old
    · rw [List.mem_singleton.mp new]
      intro zero
      rw [zero] at fresh
      simp at fresh
  · rw [ids_push]
    exact List.nodup_append.mpr ⟨numbered.distinct, by simp, fun other member last inLast =>
      fun equal => unused (List.mem_singleton.mp inLast ▸ equal ▸ member)⟩
  · have counter : (list.push client).clientId = list.clientId + 1 := rfl
    rw [counter, numbered.counter]
    simp [ClientList.push, BitVec.ofNat_add]
  · intro other member
    have created : (list.push client).created = list.created + 1 := rfl
    rw [ids_push] at member
    rcases List.mem_append.mp member with old | new
    · have apart := numbered.apart other old
      omega
    · rw [List.mem_singleton.mp new]
      omega

theorem delete (numbered : list.Numbered maxclients) (address : Nat) :
    (list.delete address).Numbered maxclients where
  nonzero := fun id member => numbered.nonzero id ((ids_delete_sublist list address).subset member)
  distinct := numbered.distinct.sublist (ids_delete_sublist list address)
  counter := by simpa using numbered.counter
  apart := by
    intro id member
    simpa using numbered.apart id ((ids_delete_sublist list address).subset member)

theorem modify (numbered : list.Numbered maxclients) (address : Nat) (change : Client → Client)
    (keepsId : ∀ client, (change client).id = client.id) :
    (list.modify address change).Numbered maxclients where
  nonzero := by
    rw [ids_modify list address keepsId]
    exact numbered.nonzero
  distinct := by
    rw [ids_modify list address keepsId]
    exact numbered.distinct
  counter := numbered.counter
  apart := by
    rw [ids_modify list address keepsId]
    exact numbered.apart

theorem init : ClientList.init.Numbered maxclients where
  nonzero := fun _ member => nomatch member
  distinct := List.nodup_nil
  counter := rfl
  apart := fun _ member => nomatch member

end Numbered

end ClientList

namespace Gateway

/-! ## Ids through the transitions -/

theorem Transition.created_le {permits : Permissions} {gateway next : Gateway}
    (transition : Transition permits gateway next) :
    gateway.clients.created ≤ next.clients.created := by
  cases transition with
  | clock | authentications | bytes | count | assign => exact le_rfl
  | add _ _ _ added =>
      rcases clientListAppend_eq added with ⟨_, _, rfl⟩
      exact Nat.le_succ _
  | delete => simp [clientListDelete]
  | authenticate => simp [enterAuthenticated_clients]
  | deauthenticate => simp [leaveAuthenticated_clients]
  | block => simp [leaveBlocked_clients]
  | editMacs => simp [editMacs_clients]

/-- What holds of the list outside the import: it has to survive that a client with the
next id is appended, that a client is deleted, and that one is changed but for its id. -/
theorem Transition.keeps_clients {P : ClientList → Prop} {gateway next : Gateway}
    (transition : Transition (.all .sessions) gateway next)
    (push : ∀ client, client.id = gateway.clients.clientId →
      gateway.clients.clientCount < gateway.config.maxclients →
      next.clients = gateway.clients.push client → P (gateway.clients.push client))
    (delete : ∀ list address, P list → P (ClientList.delete list address))
    (modify : ∀ list address (change : Client → Client),
      (∀ client, (change client).id = client.id) → P list →
        P (ClientList.modify list address change))
    (holds : P gateway.clients) : P next.clients := by
  cases transition with
  | clock | authentications | bytes => exact holds
  | add _ _ _ added =>
      rcases clientListAppend_eq added with ⟨room, _, rfl⟩
      exact push _ rfl room rfl
  | delete => exact delete _ _ holds
  | count raise =>
      exact modify _ _ (fun client => { client with counters := raise client.counters })
        (fun _ => rfl) holds
  | assign _ _ keepsId => exact modify _ _ _ (keepsId rfl) holds
  | authenticate =>
      rw [enterAuthenticated_clients]
      exact modify _ _ _ (fun _ => rfl) holds
  | deauthenticate =>
      rw [leaveAuthenticated_clients]
      exact modify _ _ _ (fun _ => rfl) (modify _ _ _ (fun _ => rfl) holds)
  | block =>
      rw [leaveBlocked_clients]
      exact delete _ _ holds
  | editMacs =>
      rw [editMacs_clients]
      exact holds

theorem Transition.numbered {gateway next : Gateway}
    (transition : Transition (.all .sessions) gateway next)
    (few : next.clients.created < 2 ^ 31)
    (numbered : gateway.clients.Numbered gateway.config.maxclients) :
    next.clients.Numbered gateway.config.maxclients := by
  apply transition.keeps_clients
  · intro client id room appended
    rw [appended] at few
    exact numbered.push id few room
  · intro list address numbered
    exact numbered.delete address
  · intro list address change keepsId numbered
    exact numbered.modify address change keepsId
  · exact numbered

/-! ## Ids through the import -/

theorem Admission.ids {gateway final : Gateway} {records : List ClientRecord}
    (admission : Admission gateway records final) :
    final.clients.ids = gateway.clients.ids ++ records.map ClientRecord.id := by
  have clients := congrArg (List.map Client.id) admission.clients
  rw [List.map_append, List.map_map, List.map_map, List.map_map] at clients
  exact clients

theorem Admission.distinct {gateway final : Gateway} {records : List ClientRecord}
    (admission : Admission gateway records final) (distinct : gateway.clients.ids.Nodup) :
    final.clients.ids.Nodup := by
  induction admission with
  | nil => exact distinct
  | @cons current middle final record records step rest induction =>
      rcases step with ⟨admits, rfl⟩
      apply induction
      have unused : record.id ∉ current.clients.ids := by
        intro member
        rcases List.mem_map.mp member with ⟨node, inList, equal⟩
        have none := List.find?_eq_none.mp admits.unused node inList
        simp [equal] at none
      have one : (current.enlist record).clients.ids = current.clients.ids ++ [record.id] :=
        Admission.ids (.single ⟨admits, rfl⟩)
      rw [one]
      exact List.nodup_append.mpr ⟨distinct, by simp, fun id member last inLast equal =>
        unused (List.mem_singleton.mp inLast ▸ equal ▸ member)⟩

end Gateway

def StateFile.ids (stateFile : StateFile) : List (BitVec 32) :=
  stateFile.leadingObjects.filterMap fun entry =>
    (Gateway.importIdentity entry).map fun identity => identity.2.2

/-- The ids of the file are nonzero, and the counter, which starts after as many
elements as the file has, does not get to them. -/
def StateFile.LeavesCounterAlone (stateFile : StateFile) (maxclients : Int) : Prop :=
  ∀ id ∈ stateFile.ids, id ≠ 0 ∧
    (id.toNat ≤ stateFile.ids.length ∨ 2 ^ 31 ≤ id.toNat ∨ maxclients ≤ 1)

namespace Gateway

theorem ids_of_leadingObjects {stateFile : StateFile} {records : List ClientRecord}
    (parsed : List.Forall₂ (fun entry record => Json.clientRecord entry = some record)
      stateFile.leadingObjects records) :
    stateFile.ids = records.map ClientRecord.id := by
  rw [StateFile.ids]
  generalize stateFile.leadingObjects = entries at parsed
  induction parsed with
  | nil => rfl
  | cons read _ induction => simp [importIdentity_of_clientRecord read, induction]

theorem numbered_of_stateFileImport {gateway : Gateway} {stateFile : StateFile}
    (empty : gateway.clients = .init) (accepted : 0 ≤ (gateway.stateFileImport stateFile).1)
    (safe : stateFile.LeavesCounterAlone gateway.config.maxclients) :
    (gateway.stateFileImport stateFile).2.clients.Numbered gateway.config.maxclients := by
  rcases admission_of_stateFileImport accepted with ⟨records, parsed, admission⟩
  have fileIds := ids_of_leadingObjects parsed
  have start : gateway.clients.ids = [] := by
    rw [empty]
    rfl
  have ids := admission.ids
  rw [start, List.nil_append, ← fileIds] at ids
  have created : (gateway.stateFileImport stateFile).2.clients.created =
      stateFile.ids.length := by
    rw [admission.counts.2.2.1, empty, fileIds, List.length_map]
    exact Nat.zero_add _
  refine ⟨⟨?_, ?_⟩, ?_, ?_⟩
  · rw [ids]
    exact fun id member => (safe id member).1
  · exact admission.distinct (by rw [start]; exact List.nodup_nil)
  · rw [admission.counts.2.2.2, created, fileIds, List.length_map, empty, BitVec.ofNat_add]
    exact BitVec.add_comm _ _
  · rw [ids, created]
    exact fun id member => (safe id member).2

/-! ## Ids in runs -/

/-- An operation on the clients. -/
inductive ClientOperation
  | add (mac ip : String)
  | delete (address : Nat)
  | authenticate (id : BitVec 32) (reason : Option String)
  | deauthenticate (id : BitVec 32) (reason : Option String)

def operate (gateway : Gateway) : ClientOperation → Gateway
  | .add mac ip => (gateway.clientListAddClient mac ip).2
  | .delete address => gateway.clientListDelete address
  | .authenticate id reason => (gateway.authClientAuth id reason).2
  | .deauthenticate id reason => (gateway.authClientDeauth id reason).2

/-- Runs of operations on the clients. -/
abbrev ClientRun : Gateway → List ClientOperation → Gateway → Prop :=
  Execution.Run (Execution.ofFunction operate)

/-- What the operations keep, as long as few clients have been created. -/
structure KeepsIds (before after : Gateway) : Prop where
  created : before.clients.created ≤ after.clients.created
  maxclients : after.config.maxclients = before.config.maxclients
  numbered : after.clients.created < 2 ^ 31 →
    before.clients.Numbered before.config.maxclients →
      after.clients.Numbered before.config.maxclients

theorem KeepsIds.refl (gateway : Gateway) : gateway.KeepsIds gateway :=
  ⟨le_rfl, rfl, fun _ numbered => numbered⟩

theorem KeepsIds.trans {first second third : Gateway} (left : first.KeepsIds second)
    (right : second.KeepsIds third) : first.KeepsIds third where
  created := left.created.trans right.created
  maxclients := right.maxclients.trans left.maxclients
  numbered := fun few numbered => by
    have middle := left.numbered (lt_of_le_of_lt right.created few) numbered
    rw [← left.maxclients] at middle ⊢
    exact right.numbered few middle

theorem Transitions.keepsIds {gateway next : Gateway}
    (transitions : Transitions (.all .sessions) gateway next) : gateway.KeepsIds next := by
  induction transitions with
  | refl => exact .refl _
  | tail _ transition induction =>
      exact induction.trans
        ⟨transition.created_le, transition.follows.settings.maxclients, transition.numbered⟩

theorem operate_keepsIds (gateway : Gateway) (operation : ClientOperation) :
    gateway.KeepsIds (gateway.operate operation) := by
  cases operation with
  | add mac ip => exact (clientListAddClient_transitions gateway trivial ip).keepsIds
  | delete address =>
      exact ⟨by simp [operate, clientListDelete], rfl, fun _ numbered => numbered.delete address⟩
  | authenticate id reason => exact (authClientAuth_transitions gateway id reason).keepsIds
  | deauthenticate id reason => exact (authClientDeauth_transitions gateway id reason).keepsIds

theorem ClientRun.keepsIds {initial final : Gateway} {operations : List ClientOperation}
    (run : ClientRun initial operations final) : initial.KeepsIds final :=
  run.relation (fun _ => True) (fun _ _ _ _ _ => trivial) .refl
    (fun _ _ _ => .trans)
    (fun current operation _ _ step => by rw [step]; exact operate_keepsIds current operation)
    trivial

end Gateway

theorem Gateway.numbered_of_run {environment : Environment} {initial final : Gateway}
    {events : List (Int × Event)} (noFile : environment.stateFile = .missing)
    (started : mainLoop environment = some initial) (run : DaemonRun initial events final) :
    initial.KeepsIds final ∧ initial.clients.Numbered initial.config.maxclients := by
  rcases mainLoop_cases started with ⟨fresh, found, _, ⟨_, rfl⟩ | ⟨failed, _⟩⟩
  · rw [noFile] at run ⊢
    have empty : fresh.clients = .init := (initialGateway_fresh found).2.1
    refine ⟨(run_transitions run).keepsIds, ?_⟩
    simp only [stateFileImport]
    rw [empty]
    exact .init
  · simp [noFile, stateFileImport] at failed

/-- Ids identify clients: in every run of operations after an import that the
counter does not run into, ids are nonzero and each of them finds its client. -/
theorem ids_identify_clients {initial final : Gateway} {stateFile : StateFile}
    {operations : List Gateway.ClientOperation} (empty : initial.clients = .init)
    (accepted : 0 ≤ (initial.stateFileImport stateFile).1)
    (safe : stateFile.LeavesCounterAlone initial.config.maxclients)
    (run : Gateway.ClientRun (initial.stateFileImport stateFile).2 operations final)
    (few : final.clients.created < 2 ^ 31) :
    (∀ node ∈ final.clients.nodes, node.client.id ≠ 0) ∧
      (final.clients.nodes.map fun node => node.client.id).Nodup ∧
      ∀ node ∈ final.clients.nodes, final.clients.findById node.client.id = some node := by
  have imported := Gateway.numbered_of_stateFileImport empty accepted safe
  have follows := (Gateway.stateFileImport_transitions initial stateFile).follows
  rw [← follows.settings.maxclients] at imported
  have numbered := run.keepsIds.numbered few imported
  exact ⟨fun node member => numbered.nonzero _ (List.mem_map_of_mem member), numbered.distinct,
    fun node member => numbered.findById_self member⟩

/-- The state file that a daemon with two clients writes after the first of
them is gone, or after the second. -/
def survivorFile (gone : Nat) : StateFile :=
  let first := defaultClient 1 "00:16:3e:00:00:01" "192.168.42.11"
  let second := defaultClient 2 "00:16:3e:00:00:02" "192.168.42.12"
  .document (stateFileExport (((ClientList.init.push first).push second).delete gone))

theorem survivorFile_ids : (survivorFile 1).ids = [1] := by
  decide +kernel

/-- The first client keeps its id when another is added. -/
theorem ids_identify_clients_default :
    let final := (defaultGateway.stateFileImport (survivorFile 1)).2.operate
      (.add "00:16:3e:00:00:03" "192.168.42.13")
    (∀ node ∈ final.clients.nodes, node.client.id ≠ 0) ∧
      (final.clients.nodes.map fun node => node.client.id).Nodup ∧
      ∀ node ∈ final.clients.nodes, final.clients.findById node.client.id = some node :=
  have empty : defaultGateway.clients = .init := rfl
  ids_identify_clients empty
    (by decide +kernel) (by simp [StateFile.LeavesCounterAlone, survivorFile_ids])
    (.single rfl) (by decide +kernel)

/-- The second client has the id that the next client gets, so both have id 2. -/
theorem ids_collide :
    ∃ final, defaultGateway.clients = .init ∧
      (defaultGateway.stateFileImport (survivorFile 0)).1 = 0 ∧
      Gateway.ClientRun (defaultGateway.stateFileImport (survivorFile 0)).2
        [.add "00:16:3e:00:00:03" "192.168.42.13"] final ∧
      final.clients.created < 2 ^ 31 ∧
      ¬ (final.clients.nodes.map fun node => node.client.id).Nodup ∧
      ∃ node ∈ final.clients.nodes, final.clients.findById node.client.id ≠ some node := by
  refine ⟨_, rfl, ?_, .single rfl, ?_, ?_, ?_⟩
  · decide +kernel
  · decide +kernel
  · decide +kernel
  · decide +kernel

end Nodogsplash
