import Nodogsplash.DocumentImport
import Nodogsplash.SessionTimes

/-! # The client list along a run

Whatever the threads do, they edit the list in four ways. Each of them keeps the
list well formed and its clients what they are. -/

namespace Nodogsplash

open Relation (ReflTransGen)

namespace ClientList

inductive Edit (maxclients : Int) : ClientList → ClientList → Prop
  | modify {list : ClientList} (address : Nat) {change : Client → Client}
      (mac : ∀ client, (change client).mac = client.mac)
      (ip : ∀ client, (change client).ip = client.ip) :
      Edit maxclients list (list.modify address change)
  | push {list : ClientList} {client : Client} (validMac : checkMacFormat client.mac = true)
      (validIp : checkIpFormat client.ip = true)
      (absent : list.find client.mac client.ip = none) (room : list.clientCount < maxclients) :
      Edit maxclients list (list.push client)
  | delete (list : ClientList) (address : Nat) : Edit maxclients list (list.delete address)
  | flush (list : ClientList) : Edit maxclients list list.flush

abbrev Edits (maxclients : Int) : ClientList → ClientList → Prop :=
  ReflTransGen (Edit maxclients)

/-- What holds of the list at all times. -/
structure WellFormed (maxclients : Int) (list : ClientList) : Prop where
  count : list.clientCount = list.nodes.length
  room : list.clientCount ≤ maxclients
  pairs : list.pairs.Nodup
  macs : ∀ node ∈ list.nodes, checkMacFormat node.client.mac = true
  ips : ∀ node ∈ list.nodes, checkIpFormat node.client.ip = true

/-- The clients of the later list that are as old as the earlier list were on
it, with the same MAC and IP address. -/
structure Lasts (before after : ClientList) : Prop where
  created : before.created ≤ after.created
  source : ∀ node ∈ after.nodes, node.address < before.created →
    ∃ source ∈ before.nodes, source.address = node.address ∧
      source.client.mac = node.client.mac ∧ source.client.ip = node.client.ip

theorem wellFormed_of_empty {maxclients : Int} (valid : 0 ≤ maxclients) {list : ClientList}
    (empty : list.nodes = []) : list.WellFormed maxclients where
  count := list.counted
  room := by
    rw [list.counted, empty]
    exact valid
  pairs := by
    rw [pairs, empty]
    exact List.nodup_nil
  macs := by
    rw [empty]
    exact List.forall_mem_nil _
  ips := by
    rw [empty]
    exact List.forall_mem_nil _

theorem pairs_modify (list : ClientList) (address : Nat) {change : Client → Client}
    (mac : ∀ client, (change client).mac = client.mac)
    (ip : ∀ client, (change client).ip = client.ip) :
    (list.modify address change).pairs = list.pairs := by
  simp only [pairs, modify, KeyedList.update, List.map_map]
  apply List.map_congr_left
  intro node _
  by_cases same : node.address = address <;> simp [same, mac, ip]

section

variable {maxclients : Int} {before after : ClientList}

theorem Edit.wellFormed (valid : 0 ≤ maxclients) (edit : Edit maxclients before after)
    (formed : before.WellFormed maxclients) : after.WellFormed maxclients := by
  cases edit with
  | modify address mac ip =>
      refine ⟨counted _, formed.room, ?_, ?_, ?_⟩
      · rw [pairs_modify before address mac ip]
        exact formed.pairs
      · intro node member
        rcases Gateway.source_of_mem_modify mac ip member with ⟨source, inList, _, sameMac, _⟩
        rw [← sameMac]
        exact formed.macs source inList
      · intro node member
        rcases Gateway.source_of_mem_modify mac ip member with ⟨source, inList, _, _, sameIp⟩
        rw [← sameIp]
        exact formed.ips source inList
  | @push client validMac validIp absent room =>
      refine ⟨counted _, ?_, ?_, ?_, ?_⟩
      · change before.clientCount + 1 ≤ maxclients
        omega
      · have extended : (before.push client).pairs = before.pairs ++ [(client.mac, client.ip)] :=
          List.map_append
        rw [extended]
        refine List.nodup_append.mpr ⟨formed.pairs, List.nodup_singleton _, ?_⟩
        intro pair member last inLast equal
        rw [List.mem_singleton] at inLast
        exact (find_eq_none_iff before _ _).mp absent (inLast ▸ equal ▸ member)
      · intro node member
        rcases mem_push.mp member with old | rfl
        · exact formed.macs node old
        · exact validMac
      · intro node member
        rcases mem_push.mp member with old | rfl
        · exact formed.ips node old
        · exact validIp
  | delete address =>
      refine ⟨counted _, ?_, ?_, ?_, ?_⟩
      · have shorter := (KeyedList.remove_sublist Node.address address before.nodes).length_le
        rw [counted, nodes_delete]
        have room := formed.room
        rw [counted] at room
        omega
      · rw [pairs, nodes_delete]
        exact formed.pairs.sublist ((KeyedList.remove_sublist _ _ _).map _)
      · exact fun node member => formed.macs node (mem_of_mem_delete member)
      · exact fun node member => formed.ips node (mem_of_mem_delete member)
  | flush => exact wellFormed_of_empty valid (nodes_flush before)

theorem Edit.lasts (edit : Edit maxclients before after) : before.Lasts after := by
  cases edit with
  | modify address mac ip =>
      refine ⟨le_rfl, ?_⟩
      intro node member _
      exact Gateway.source_of_mem_modify mac ip member
  | push =>
      refine ⟨Nat.le_succ _, ?_⟩
      intro node member old
      rcases mem_push.mp member with inList | rfl
      · exact ⟨node, inList, rfl, rfl, rfl⟩
      · exact absurd old (lt_irrefl _)
  | delete address =>
      refine ⟨by simp, ?_⟩
      intro node member _
      exact ⟨node, mem_of_mem_delete member, rfl, rfl, rfl⟩
  | flush =>
      refine ⟨?_, ?_⟩
      · rw [ClientList.flush]
        split <;> exact le_rfl
      · intro node member
        rw [nodes_flush] at member
        cases member

theorem Lasts.refl (list : ClientList) : list.Lasts list :=
  ⟨le_rfl, fun node member _ => ⟨node, member, rfl, rfl, rfl⟩⟩

theorem Lasts.trans {middle : ClientList} (left : before.Lasts middle)
    (right : middle.Lasts after) : before.Lasts after where
  created := left.created.trans right.created
  source := by
    intro node member old
    rcases right.source node member (old.trans_le left.created) with
      ⟨between, inMiddle, address, mac, ip⟩
    rcases left.source between inMiddle (address ▸ old) with
      ⟨source, inList, sourceAddress, sourceMac, sourceIp⟩
    exact ⟨source, inList, sourceAddress.trans address, sourceMac.trans mac, sourceIp.trans ip⟩

theorem Lasts.same (lasts : before.Lasts after) {earlier later : Node}
    (inBefore : earlier ∈ before.nodes) (inAfter : later ∈ after.nodes)
    (address : earlier.address = later.address) :
    earlier.client.mac = later.client.mac ∧ earlier.client.ip = later.client.ip := by
  have old : later.address < before.created := address ▸ before.allocated earlier inBefore
  rcases lasts.source later inAfter old with ⟨source, inList, same, mac, ip⟩
  rw [eq_of_address inBefore inList (address.trans same.symm)]
  exact ⟨mac, ip⟩

theorem Edits.wellFormed (valid : 0 ≤ maxclients) (edits : Edits maxclients before after)
    (formed : before.WellFormed maxclients) : after.WellFormed maxclients := by
  induction edits with
  | refl => exact formed
  | tail _ edit induction => exact edit.wellFormed valid induction

theorem Edits.lasts (edits : Edits maxclients before after) : before.Lasts after := by
  induction edits with
  | refl => exact .refl _
  | tail _ edit induction => exact induction.trans edit.lasts

end

theorem nodes_delete_eq_filter (list : ClientList) (address : Nat) :
    (list.delete address).nodes =
      list.nodes.filter fun node => decide (node.address ≠ address) := by
  rw [nodes_delete]
  exact KeyedList.remove_eq_filter Node.address list.distinct address

end ClientList

namespace Gateway

open ClientList

theorem Transition.edits {permits : Permissions} {gateway next : Gateway}
    (transition : Transition permits gateway next) :
    Edits gateway.config.maxclients gateway.clients next.clients := by
  have modified (list : ClientList) (address : Nat) {change : Client → Client}
      (mac : ∀ client, (change client).mac = client.mac)
      (ip : ∀ client, (change client).ip = client.ip) :
      Edits gateway.config.maxclients list (list.modify address change) :=
    .single (.modify address mac ip)
  cases transition with
  | clock | authentications | bytes => exact .refl
  | add validMac validIp absent added =>
      rcases clientListAppend_eq added with ⟨room, _, rfl⟩
      exact .single (.push validMac validIp absent room)
  | delete => exact .single (.delete _ _)
  | count raise =>
      have mac (client : Client) :
          { client with counters := raise client.counters }.mac = client.mac := rfl
      have ip (client : Client) :
          { client with counters := raise client.counters }.ip = client.ip := rfl
      exact modified _ _ mac ip
  | assign keeps => exact modified _ _ keeps.mac keeps.ip
  | authenticate =>
      rw [enterAuthenticated_clients]
      exact modified _ _ (by intro; rfl) (by intro; rfl)
  | deauthenticate =>
      rw [leaveAuthenticated_clients]
      exact (modified _ _ (by intro; rfl) (by intro; rfl)).trans
        (modified _ _ (by intro; rfl) (by intro; rfl))
  | block =>
      rw [leaveBlocked_clients]
      exact .single (.delete _ _)
  | editMacs =>
      rw [editMacs_clients]

theorem Transitions.edits {permits : Permissions} {gateway next : Gateway}
    (transitions : Transitions permits gateway next) :
    Edits gateway.config.maxclients gateway.clients next.clients := by
  induction transitions with
  | refl => exact .refl
  | tail before transition induction =>
      have settings := (Transitions.follows before).settings.maxclients
      rw [← settings] at induction ⊢
      exact induction.trans transition.edits

/-- A client that is added comes after the others, which stay as they are. -/
theorem nodes_clientListAddClient (gateway : Gateway) (mac ip : String) :
    (gateway.clientListAddClient mac ip).2.clients.nodes = gateway.clients.nodes ∨
      ∃ node, node.client.mac = mac ∧ node.client.ip = ip ∧
        (gateway.clientListAddClient mac ip).2.clients.nodes =
          gateway.clients.nodes ++ [node] := by
  rcases gateway.clientListAddClient_cases mac ip with
    ⟨_, _, equal⟩ | ⟨node, next, _, _, _, added, equal⟩ | equal
  · rw [equal]
    exact .inl rfl
  · rcases clientListAppend_eq added with ⟨_, rfl, rfl⟩
    rw [equal]
    exact .inr ⟨_, rfl, rfl, rfl⟩
  · rw [equal]
    exact .inl rfl

end Gateway

/-! ## Runs -/

/-- A critical section of a thread, or an operation on the list by itself. -/
inductive ListOperation
  | take (taken : Section)
  | clientListAddClient (mac ip : String)
  | clientListDelete (address : Nat)
  | clientListFlush
  | stateFileImport (stateFile : StateFile)
  | authChangeState (address : Nat) (newState : BitVec 32) (reason : Option String)
  | authClientDeauthAll

/-- Deletions and flushes free clients in any state. -/
def ListOperation.Keeps : ListOperation → Prop
  | .clientListDelete _ => False
  | .clientListFlush => False
  | _ => True

namespace Threads

open ClientList

def operate (threads : Threads) : ListOperation → Threads
  | .take taken => threads.take taken
  | .clientListAddClient mac ip =>
      { threads with gateway := (threads.gateway.clientListAddClient mac ip).2 }
  | .clientListDelete address =>
      { threads with gateway := threads.gateway.clientListDelete address }
  | .clientListFlush =>
      { threads with gateway.clients := threads.gateway.clients.flush }
  | .stateFileImport stateFile =>
      { threads with gateway := (threads.gateway.stateFileImport stateFile).2 }
  | .authChangeState address newState reason =>
      match threads.gateway.clients.nodes.find? fun node => decide (node.address = address) with
      | some node =>
          { threads with gateway := (threads.gateway.authChangeState node newState reason).2 }
      | none => threads
  | .authClientDeauthAll =>
      { threads with gateway := Gateway.authClientDeauthAll threads.gateway }

/-- Runs of such operations. -/
abbrev OperationRun : Threads → List ListOperation → Threads → Prop :=
  Execution.Run (Execution.ofFunction operate)

/-- What an operation may do to the daemon, as far as the list is concerned. -/
structure Edited (before after : Threads) : Prop where
  maxclients : after.gateway.config.maxclients = before.gateway.config.maxclients
  edits : Edits before.gateway.config.maxclients before.gateway.clients after.gateway.clients

theorem Edited.refl (threads : Threads) : threads.Edited threads := ⟨rfl, .refl⟩

theorem Edited.trans {first second third : Threads} (left : first.Edited second)
    (right : second.Edited third) : first.Edited third where
  maxclients := right.maxclients.trans left.maxclients
  edits := by
    have edits := right.edits
    rw [left.maxclients] at edits
    exact left.edits.trans edits

theorem Edited.of_transitions {permits : Permissions} {before after : Threads}
    (transitions : Gateway.Transitions permits before.gateway after.gateway) :
    before.Edited after :=
  ⟨(Gateway.Transitions.follows transitions).settings.maxclients,
    Gateway.Transitions.edits transitions⟩

/-- What the daemon does by itself, without a deletion or a flush from outside
its functions, is a sequence of transitions. -/
theorem operate_transitions (threads : Threads) {operation : ListOperation}
    (kept : operation.Keeps) : ∃ permits,
      Gateway.Transitions permits threads.gateway (threads.operate operation).gateway := by
  cases operation with
  | take taken =>
      have writes : taken = .webWrite → Assigns.sessions ≠ .counters := fun _ => nofun
      exact ⟨_, threads.take_all_transitions writes⟩
  | clientListAddClient mac ip =>
      have allowed : (Permissions.all .counters).adds mac := trivial
      exact ⟨_, Gateway.clientListAddClient_transitions threads.gateway allowed ip⟩
  | clientListDelete => exact kept.elim
  | clientListFlush => exact kept.elim
  | stateFileImport stateFile =>
      exact ⟨_, Gateway.stateFileImport_transitions threads.gateway stateFile⟩
  | authChangeState address newState reason =>
      refine ⟨.all .counters, ?_⟩
      simp only [operate]
      split
      · next node found =>
          exact Gateway.authChangeState_transitions (List.mem_of_find?_eq_some found) newState
            reason
      · exact .refl
  | authClientDeauthAll =>
      exact ⟨.all .counters, Gateway.authClientDeauthAll_transitions threads.gateway⟩

theorem operate_edited (threads : Threads) (operation : ListOperation) :
    threads.Edited (threads.operate operation) := by
  by_cases kept : operation.Keeps
  · rcases operate_transitions threads kept with ⟨permits, transitions⟩
    exact .of_transitions transitions
  · cases operation with
    | clientListDelete address => exact ⟨rfl, .single (.delete _ address)⟩
    | clientListFlush => exact ⟨rfl, .single (.flush _)⟩
    | _ => exact absurd trivial kept

theorem OperationRun.edited {initial final : Threads} {operations : List ListOperation}
    (run : OperationRun initial operations final) : initial.Edited final := by
  refine run.relation (fun _ => True) (fun _ _ _ _ _ => trivial) Edited.refl
    (fun _ _ _ => Edited.trans) ?_ trivial
  intro current operation next _ step
  rw [step]
  exact operate_edited current operation

end Threads

/-- In every state of every run from an empty list, the list is well formed; a
client keeps its MAC and IP address from one state to any later one; and adding
or deleting one client leaves the others as they are and in their order. -/
theorem client_list_well_formed (gateway : Gateway) (valid : 1 ≤ gateway.config.maxclients)
    (empty : gateway.clients = .init) {current final : Threads}
    {earlier later : List ListOperation}
    (run : Threads.OperationRun (.start gateway) earlier current)
    (rest : Threads.OperationRun current later final) :
    final.gateway.clients.WellFormed gateway.config.maxclients ∧
      (∀ before ∈ current.gateway.clients.nodes, ∀ after ∈ final.gateway.clients.nodes,
        before.address = after.address →
          before.client.mac = after.client.mac ∧ before.client.ip = after.client.ip) ∧
      (∀ mac ip, (final.gateway.clientListAddClient mac ip).2.clients.nodes =
          final.gateway.clients.nodes ∨
        ∃ node, node.client.mac = mac ∧ node.client.ip = ip ∧
          (final.gateway.clientListAddClient mac ip).2.clients.nodes =
            final.gateway.clients.nodes ++ [node]) ∧
      ∀ address, (final.gateway.clientListDelete address).clients.nodes =
        final.gateway.clients.nodes.filter fun node => decide (node.address ≠ address) := by
  have positive : 0 ≤ gateway.config.maxclients := by omega
  have formed : gateway.clients.WellFormed gateway.config.maxclients :=
    ClientList.wellFormed_of_empty positive (by rw [empty]; rfl)
  have edits : ClientList.Edits gateway.config.maxclients gateway.clients final.gateway.clients :=
    (Threads.OperationRun.edited (run.append rest)).edits
  refine ⟨edits.wellFormed positive formed, ?_, ?_, ?_⟩
  · intro before inCurrent after inFinal address
    exact rest.edited.edits.lasts.same inCurrent inFinal address
  · exact final.gateway.nodes_clientListAddClient
  · exact final.gateway.clients.nodes_delete_eq_filter

/-- Two clients are added, then a third one, and the first is deleted. -/
def addTwo : List ListOperation :=
  [.clientListAddClient "00:16:3e:00:00:01" "192.168.42.10",
    .clientListAddClient "00:16:3e:00:00:02" "192.168.42.11"]

def addAndDelete : List ListOperation :=
  [.clientListAddClient "00:16:3e:00:00:03" "192.168.42.12", .clientListDelete 0]

theorem client_list_well_formed_default :
    let start := Threads.start { defaultGateway with clients := .init }
    let current := addTwo.foldl Threads.operate start
    let final := addAndDelete.foldl Threads.operate current
    final.gateway.clients.nodes.map (·.client.mac) = ["00:16:3e:00:00:02", "00:16:3e:00:00:03"] ∧
      final.gateway.clients.WellFormed defaultGateway.config.maxclients ∧
      (∀ before ∈ current.gateway.clients.nodes, ∀ after ∈ final.gateway.clients.nodes,
        before.address = after.address →
          before.client.mac = after.client.mac ∧ before.client.ip = after.client.ip) ∧
      (∀ mac ip, (final.gateway.clientListAddClient mac ip).2.clients.nodes =
          final.gateway.clients.nodes ∨
        ∃ node, node.client.mac = mac ∧ node.client.ip = ip ∧
          (final.gateway.clientListAddClient mac ip).2.clients.nodes =
            final.gateway.clients.nodes ++ [node]) ∧
      ∀ address, (final.gateway.clientListDelete address).clients.nodes =
        final.gateway.clients.nodes.filter fun node => decide (node.address ≠ address) := by
  intro start current final
  have valid : 1 ≤ defaultGateway.config.maxclients := by decide +kernel
  have earlier : Threads.OperationRun start addTwo current :=
    (Execution.run_ofFunction_iff _ _ _ _).mpr rfl
  have later : Threads.OperationRun current addAndDelete final :=
    (Execution.run_ofFunction_iff _ _ _ _).mpr rfl
  refine ⟨by decide +kernel, ?_⟩
  exact client_list_well_formed { defaultGateway with clients := .init } valid rfl earlier later

end Nodogsplash
