import Nodogsplash.Foundation.KeyedList
import Nodogsplash.Firewall

/-! # The client list

Clients, the linked list that holds them and its operations. A node is a list
element in memory: its address is the client's identity while it lives, and no
address is used twice. -/

namespace Nodogsplash

/-- `FW_MARK_PREAUTHENTICATED`. -/
def preauthenticatedState : BitVec 32 := 0

/-- `t_counters`. -/
structure Counters where
  incoming : Nat
  outgoing : Nat
  lastUpdated : Int
  deriving DecidableEq

/-- `t_client`; `fwConnectionState` is 0 or one of the marks. -/
structure Client where
  ip : String
  mac : String
  token : String
  fwConnectionState : BitVec 32
  sessionStart : Int
  sessionEnd : Int
  counters : Counters
  downloadLimit : Int
  uploadLimit : Int
  id : BitVec 32
  deriving DecidableEq

/-- An allocated list element. -/
structure Node where
  address : Nat
  client : Client
  deriving DecidableEq

/-- The variables of `client_list.c`. `created` counts the elements ever
allocated and is the next address; `clientCount` counts the linked ones. -/
structure ClientList where
  nodes : List Node
  clientCount : Int
  clientId : BitVec 32
  created : Nat
  distinct : (nodes.map Node.address).Nodup
  allocated : ∀ node ∈ nodes, node.address < created
  counted : clientCount = nodes.length

namespace ClientList

/-- `client_list_init`. -/
def init : ClientList where
  nodes := []
  clientCount := 0
  clientId := 1
  created := 0
  distinct := List.nodup_nil
  allocated := fun _ member => nomatch member
  counted := rfl

def modify (list : ClientList) (address : Nat) (change : Client → Client) : ClientList where
  nodes := KeyedList.update Node.address address
    (fun node => { node with client := change node.client }) list.nodes
  clientCount := list.clientCount
  clientId := list.clientId
  created := list.created
  distinct := by
    rw [KeyedList.map_key_update]
    · exact list.distinct
    · intro node
      rfl
  allocated := by
    intro node member
    rcases (KeyedList.mem_update _).mp member with ⟨source, sourceMember, _, rfl⟩ | ⟨member, _⟩
    · exact list.allocated source sourceMember
    · exact list.allocated node member
  counted := by
    rw [list.counted, KeyedList.update, List.length_map]

def push (list : ClientList) (client : Client) : ClientList where
  nodes := list.nodes ++ [⟨list.created, client⟩]
  clientCount := list.clientCount + 1
  clientId := list.clientId + 1
  created := list.created + 1
  distinct := by
    rw [List.map_append, List.nodup_append]
    refine ⟨list.distinct, by simp, ?_⟩
    intro address member other otherMember
    rcases List.mem_map.mp member with ⟨node, nodeMember, rfl⟩
    have below := list.allocated node nodeMember
    simp only [List.map_cons, List.map_nil, List.mem_singleton] at otherMember
    omega
  allocated := by
    intro node member
    rcases List.mem_append.mp member with member | member
    · exact Nat.lt_succ_of_lt (list.allocated node member)
    · rw [List.mem_singleton.mp member]
      exact Nat.lt_succ_self _
  counted := by
    rw [list.counted]
    simp

/-- `client_list_flush`. -/
def flush (list : ClientList) : ClientList :=
  if list.clientCount = 0 then list
  else
    { nodes := []
      clientCount := 0
      clientId := 1
      created := list.created
      distinct := List.nodup_nil
      allocated := fun _ member => nomatch member
      counted := rfl }

/-- `client_list_delete`. -/
def delete (list : ClientList) (address : Nat) : ClientList :=
  if present : ∃ node ∈ list.nodes, node.address = address then
    { nodes := KeyedList.remove Node.address address list.nodes
      clientCount := list.clientCount - 1
      clientId := list.clientId
      created := list.created
      distinct := list.distinct.sublist ((KeyedList.remove_sublist _ _ _).map _)
      allocated := fun node member => list.allocated node (KeyedList.mem_of_mem_remove _ member)
      counted := by
        rcases present with ⟨node, member, equal⟩
        have nonempty := List.length_pos_of_mem member
        rw [← equal, KeyedList.length_remove Node.address member, list.counted]
        omega }
  else list

/-- `client_list_find`. -/
def find (list : ClientList) (mac ip : String) : Option Node :=
  list.nodes.find? fun node => node.client.mac = mac && node.client.ip = ip

/-- `client_list_find_by_id`. -/
def findById (list : ClientList) (id : BitVec 32) : Option Node :=
  list.nodes.find? fun node => decide (node.client.id = id)

/-- `client_list_find_by_ip`. -/
def findByIp (list : ClientList) (ip : String) : Option Node :=
  list.nodes.find? fun node => decide (node.client.ip = ip)

/-- `client_list_find_by_mac`. -/
def findByMac (list : ClientList) (mac : String) : Option Node :=
  list.nodes.find? fun node => decide (node.client.mac = mac)

/-- `client_list_find_by_token`. -/
def findByToken (list : ClientList) (token : String) : Option Node :=
  list.nodes.find? fun node => decide (node.client.token = token)

/-- `client_list_find_by_any`. -/
def findByAny (list : ClientList) (mac ip token : String) : Option Node :=
  list.findByToken token <|> list.findByIp ip <|> list.findByMac mac

/-! ## What the operations do to the nodes -/

@[simp] theorem modify_clientId (list : ClientList) (address : Nat) (change : Client → Client) :
    (list.modify address change).clientId = list.clientId := rfl

@[simp] theorem modify_created (list : ClientList) (address : Nat) (change : Client → Client) :
    (list.modify address change).created = list.created := rfl

theorem mem_modify {list : ClientList} {address : Nat} {change : Client → Client} {node : Node} :
    node ∈ (list.modify address change).nodes ↔
      (∃ source ∈ list.nodes, source.address = address ∧
        node = { source with client := change source.client }) ∨
      (node ∈ list.nodes ∧ node.address ≠ address) :=
  KeyedList.mem_update _

theorem nodes_delete (list : ClientList) (address : Nat) :
    (list.delete address).nodes = KeyedList.remove Node.address address list.nodes := by
  rw [delete]
  split
  · rfl
  · rename_i absent
    rw [KeyedList.remove, List.eraseP_of_forall_not]
    intro node member equal
    exact absent ⟨node, member, by simpa using equal⟩

@[simp] theorem delete_clientId (list : ClientList) (address : Nat) :
    (list.delete address).clientId = list.clientId := by
  rw [delete]
  split <;> rfl

@[simp] theorem delete_created (list : ClientList) (address : Nat) :
    (list.delete address).created = list.created := by
  rw [delete]
  split <;> rfl

theorem mem_of_mem_delete {list : ClientList} {address : Nat} {node : Node}
    (member : node ∈ (list.delete address).nodes) : node ∈ list.nodes := by
  rw [nodes_delete] at member
  exact KeyedList.mem_of_mem_remove _ member

theorem mem_delete_iff {list : ClientList} {address : Nat} {node : Node} :
    node ∈ (list.delete address).nodes ↔ node ∈ list.nodes ∧ node.address ≠ address := by
  rw [nodes_delete]
  constructor
  · intro member
    exact ⟨KeyedList.mem_of_mem_remove _ member,
      KeyedList.key_ne_of_mem_remove _ list.distinct member⟩
  · rintro ⟨member, different⟩
    exact KeyedList.mem_remove_of_ne _ member different

theorem mem_push {list : ClientList} {client : Client} {node : Node} :
    node ∈ (list.push client).nodes ↔
      node ∈ list.nodes ∨ node = ⟨list.created, client⟩ := by
  simp [push]

theorem mem_of_findById {list : ClientList} {id : BitVec 32} {node : Node}
    (found : list.findById id = some node) : node ∈ list.nodes ∧ node.client.id = id := by
  refine ⟨List.mem_of_find?_eq_some found, ?_⟩
  simpa using List.find?_some found

theorem mem_of_find {list : ClientList} {mac ip : String} {node : Node}
    (found : list.find mac ip = some node) :
    node ∈ list.nodes ∧ node.client.mac = mac ∧ node.client.ip = ip := by
  refine ⟨List.mem_of_find?_eq_some found, ?_⟩
  simpa using List.find?_some found

theorem nodes_flush (list : ClientList) : list.flush.nodes = [] := by
  rw [flush]
  split
  · rename_i empty
    have length := list.counted
    rw [empty] at length
    exact List.length_eq_zero_iff.mp (by omega)
  · rfl

theorem eq_of_address {list : ClientList} {first second : Node} (left : first ∈ list.nodes)
    (right : second ∈ list.nodes) (equal : first.address = second.address) : first = second :=
  List.inj_on_of_nodup_map list.distinct left right equal

end ClientList

end Nodogsplash
