import Mathlib.Data.Fintype.EquivFin
import Mathlib.Data.Nat.Find
import Nodogsplash.Foundation.LinkedLists
import Nodogsplash.ClientListRuns

/-! # The client list in memory

The linked list of `client_list.c` with its pointers. What it does with memory
that is given out and taken back in any way is what `ClientList` does with
elements that are numbered one after the other. -/

namespace Nodogsplash

open LinkedLists

/-- The variables of `client_list.c` and the list elements that are allocated.
Pointers are numbers. -/
structure ClientMemory where
  heap : Heap Nat Client
  firstclient : Option Nat
  clientCount : Int
  clientId : BitVec 32

namespace ClientMemory

def init : ClientMemory where
  heap := ∅
  firstclient := none
  clientCount := 0
  clientId := 1

/-- `_client_list_append`, to which `safe_malloc` returns `pointer`. It returns
this pointer, or `NULL` if there are too many clients. -/
def clientListAppend (memory : ClientMemory) (maxclients : Int) (pointer : Nat)
    (client : Client) : Option (Option Nat × ClientMemory) :=
  if memory.clientCount ≥ maxclients then some (none, memory)
  else do
    let (heap, first) ← appendCell memory.heap memory.firstclient pointer
      { client with id := memory.clientId }
    return (some pointer,
      { heap := heap
        firstclient := first
        clientCount := memory.clientCount + 1
        clientId := memory.clientId + 1 })

/-- `client_list_delete`. -/
def clientListDelete (memory : ClientMemory) (pointer : Nat) : Option ClientMemory := do
  let (heap, first, found) ← deleteCell memory.heap memory.firstclient pointer
  return { memory with
    heap := heap
    firstclient := first
    clientCount := if found then memory.clientCount - 1 else memory.clientCount }

/-- The functions `client_list_find_*`, which differ in their test. -/
def clientListFind (memory : ClientMemory) (test : Client → Bool) : Option (Option Nat) :=
  findCell memory.heap test memory.heap.keys.card memory.firstclient

/-- `client_list_flush`. -/
def clientListFlush (memory : ClientMemory) : Option ClientMemory :=
  if memory.clientCount = 0 then some memory
  else (freeCells memory.heap.keys.card memory.heap memory.firstclient).map fun heap =>
    { heap := heap, firstclient := none, clientCount := 0, clientId := 1 }

def assign (memory : ClientMemory) (pointer : Nat) (change : Client → Client) :
    Option ClientMemory :=
  let store := LinkedLists.store memory.heap pointer fun cell =>
    { cell with content := change cell.content }
  store.map fun heap => { memory with heap := heap }

end ClientMemory

/-! ## Calls -/

/-- The calls of the functions of `client_list.c` and assignments to clients. The
client of an earlier call of `_client_list_append` is named by the number of
clients that were allocated before it. -/
inductive ListCall
  | append (maxclients : Int) (client : Client)
  | assign (number : Nat) (change : Client → Client)
  | delete (number : Nat)
  | find (test : Client → Bool)
  | flush

def ClientList.call (list : ClientList) : ListCall → Option Nat × ClientList
  | .append maxclients client =>
      if list.clientCount ≥ maxclients then (none, list)
      else (some list.created, list.push { client with id := list.clientId })
  | .assign number change => (none, list.modify number change)
  | .delete number => (none, list.delete number)
  | .find test => ((list.nodes.find? fun node => test node.client).map Node.address, list)
  | .flush => (none, list.flush)

/-- Calls one after the other, with the clients that they return. -/
def ClientList.calls (list : ClientList) : List ListCall → List (Option Nat) × ClientList
  | [] => ([], list)
  | call :: rest =>
      let (result, next) := list.call call
      let (results, final) := next.calls rest
      (result :: results, final)

def ListCall.Valid (list : ClientList) : ListCall → Prop
  | .assign number _ => ∃ node ∈ list.nodes, node.address = number
  | .delete number => ∃ node ∈ list.nodes, node.address = number
  | _ => True

/-- Each call is valid when it is made. -/
def ClientList.ValidCalls (list : ClientList) : List ListCall → Prop
  | [] => True
  | call :: rest => call.Valid list ∧ (list.call call).2.ValidCalls rest

/-- `safe_malloc`: it returns a pointer that is not in use, which may depend on
all that it returned before and may have been in use earlier. -/
structure Allocator where
  malloc : List Nat → Heap Nat Client → Nat
  fresh : ∀ earlier heap, malloc earlier heap ∉ heap

/-- The list in memory, and the pointers that `_client_list_append` has returned. -/
structure ListUser where
  memory : ClientMemory
  pointers : List Nat

namespace ListUser

def start : ListUser := ⟨.init, []⟩

/-- A call and the pointer that it returns; nothing if memory is used that is not
allocated. -/
def call (allocator : Allocator) (user : ListUser) : ListCall → Option (Option Nat × ListUser)
  | .append maxclients client => do
      let pointer := allocator.malloc user.pointers user.memory.heap
      let (result, memory) ← user.memory.clientListAppend maxclients pointer client
      return (result, ⟨memory, user.pointers ++ result.toList⟩)
  | .assign number change => do
      let pointer ← user.pointers[number]?
      let memory ← user.memory.assign pointer change
      return (none, ⟨memory, user.pointers⟩)
  | .delete number => do
      let pointer ← user.pointers[number]?
      let memory ← user.memory.clientListDelete pointer
      return (none, ⟨memory, user.pointers⟩)
  | .find test => do
      let result ← user.memory.clientListFind test
      return (result, user)
  | .flush => do
      let memory ← user.memory.clientListFlush
      return (none, ⟨memory, user.pointers⟩)

/-- Calls one after the other, with the pointers that they return. -/
def calls (allocator : Allocator) (user : ListUser) :
    List ListCall → Option (List (Option Nat) × ListUser)
  | [] => some ([], user)
  | call :: rest => do
      let (result, next) ← user.call allocator call
      let (results, final) ← next.calls allocator rest
      return (result :: results, final)

def pointer (user : ListUser) (number : Nat) : Nat := user.pointers[number]?.getD 0

def cells (user : ListUser) (nodes : List Node) : List (Nat × Client) :=
  nodes.map fun node => (user.pointer node.address, node.client)

/-- The elements of the list are linked in their order, and nothing else is
allocated. -/
structure Stands (user : ListUser) (list : ClientList) : Prop where
  created : user.pointers.length = list.created
  holds : Holds user.memory.heap user.memory.firstclient (user.cells list.nodes)
  count : user.memory.clientCount = list.clientCount
  id : user.memory.clientId = list.clientId

theorem start_stands : start.Stands .init where
  created := rfl
  holds := .empty
  count := rfl
  id := rfl

/-! ## One call -/

section

variable {user : ListUser} {list : ClientList}

theorem cells_append (left right : List Node) :
    user.cells (left ++ right) = user.cells left ++ user.cells right :=
  List.map_append

theorem Stands.pointer_eq (stands : user.Stands list) {node : Node} (member : node ∈ list.nodes) :
    user.pointers[node.address]? = some (user.pointer node.address) := by
  have below : node.address < user.pointers.length := by
    rw [stands.created]
    exact list.allocated node member
  rw [pointer, List.getElem?_eq_getElem below, Option.getD_some]

/-- Pointers that are returned later leave those of the list alone. -/
theorem cells_extend (nodes : List Node) (memory : ClientMemory) (more : List Nat)
    (old : ∀ node ∈ nodes, node.address < user.pointers.length) :
    (ListUser.mk memory (user.pointers ++ more)).cells nodes = user.cells nodes := by
  apply List.map_congr_left
  intro node member
  rw [pointer, pointer, List.getElem?_append_left (old node member)]

theorem Stands.append (stands : user.Stands list) (allocator : Allocator) (maxclients : Int)
    (client : Client) :
    ∃ result next, user.call allocator (.append maxclients client) = some (result, next) ∧
      next.Stands (list.call (.append maxclients client)).2 ∧
      result = (list.call (.append maxclients client)).1.map next.pointer := by
  by_cases full : list.clientCount ≥ maxclients
  · have refused : user.memory.clientCount ≥ maxclients := stands.count ▸ full
    refine ⟨none, user, ?_, ?_, ?_⟩
    · simp [call, ClientMemory.clientListAppend, refused]
    · simpa [ClientList.call, full] using stands
    · simp [ClientList.call, full]
  · have accepted : ¬ user.memory.clientCount ≥ maxclients := stands.count ▸ full
    let pointer := allocator.malloc user.pointers user.memory.heap
    let added : Client := { client with id := user.memory.clientId }
    have unused : pointer ∉ user.memory.heap := allocator.fresh _ _
    rcases stands.holds.append unused added with ⟨heap, first, appended, holds⟩
    let next : ListUser :=
      ⟨⟨heap, first, user.memory.clientCount + 1, user.memory.clientId + 1⟩,
        user.pointers ++ [pointer]⟩
    have newest : next.pointer list.created = pointer := by
      rw [ListUser.pointer, ← stands.created]
      simp [next]
    refine ⟨some pointer, next, ?_, ?_, ?_⟩
    · simp only [call, ClientMemory.clientListAppend, if_neg accepted]
      rw [appended]
      rfl
    · simp only [ClientList.call, if_neg full]
      refine ⟨?_, ?_, ?_, ?_⟩
      · simp [next, ClientList.push, stands.created]
      · have old (node : Node) (member : node ∈ list.nodes) :
            node.address < user.pointers.length := by
          rw [stands.created]
          exact list.allocated node member
        rw [ClientList.push, cells_append, cells_extend _ _ _ old]
        have last : next.cells [⟨list.created, { client with id := list.clientId }⟩] =
            [(pointer, added)] := by
          simp only [cells, List.map_cons, List.map_nil, newest, added, stands.id]
        rw [last]
        exact holds
      · simp [next, ClientList.push, stands.count]
      · simp [next, ClientList.push, stands.id]
    · simp only [ClientList.call, if_neg full, Option.map_some, newest]

theorem Stands.split (stands : user.Stands list) {number : Nat}
    (valid : ∃ node ∈ list.nodes, node.address = number) :
    ∃ before node after, list.nodes = before ++ node :: after ∧ node.address = number ∧
      (∀ other ∈ before, other.address ≠ number) ∧ (∀ other ∈ after, other.address ≠ number) ∧
      user.pointers[number]? = some (user.pointer number) ∧
      Holds user.memory.heap user.memory.firstclient
        (user.cells before ++ (user.pointer number, node.client) :: user.cells after) := by
  rcases valid with ⟨node, member, rfl⟩
  rcases KeyedList.exists_split Node.address list.distinct member with
    ⟨before, after, nodes, notBefore, notAfter⟩
  refine ⟨before, node, after, nodes, rfl, notBefore, notAfter, stands.pointer_eq member, ?_⟩
  have holds := stands.holds
  rw [nodes] at holds
  simpa [cells] using holds

theorem Stands.assign (stands : user.Stands list) (allocator : Allocator) {number : Nat}
    (valid : ∃ node ∈ list.nodes, node.address = number) (change : Client → Client) :
    ∃ next, user.call allocator (.assign number change) = some (none, next) ∧
      next.Stands (list.modify number change) := by
  rcases stands.split valid with
    ⟨before, node, after, nodes, rfl, notBefore, notAfter, known, holds⟩
  rcases holds.assign change with ⟨heap, stored, changed⟩
  refine ⟨⟨{ user.memory with heap := heap }, user.pointers⟩, ?_, stands.created, ?_,
    stands.count, stands.id⟩
  · simp [call, known, ClientMemory.assign, stored]
  · have updated : (list.modify node.address change).nodes =
        before ++ { node with client := change node.client } :: after := by
      have split := KeyedList.update_split Node.address
        (fun node => { node with client := change node.client }) node notBefore notAfter
      rw [← nodes] at split
      exact split
    rw [updated, cells_append]
    exact changed

theorem Stands.delete (stands : user.Stands list) (allocator : Allocator) {number : Nat}
    (valid : ∃ node ∈ list.nodes, node.address = number) :
    ∃ next, user.call allocator (.delete number) = some (none, next) ∧
      next.Stands (list.delete number) := by
  have counted : (list.delete number).clientCount = list.clientCount - 1 := by
    rw [ClientList.delete, dif_pos valid]
  rcases stands.split valid with
    ⟨before, node, after, nodes, rfl, notBefore, _, known, holds⟩
  rcases holds.delete with ⟨heap, first, deleted, rest⟩
  refine ⟨⟨{ user.memory with
      heap := heap, firstclient := first, clientCount := user.memory.clientCount - 1 },
    user.pointers⟩, ?_, ?_, ?_, ?_, ?_⟩
  · simp [call, known, ClientMemory.clientListDelete, deleted]
  · rw [ClientList.delete_created]
    exact stands.created
  · rw [ClientList.nodes_delete, nodes, KeyedList.remove_split Node.address notBefore,
      cells_append]
    exact rest
  · rw [counted, ← stands.count]
  · rw [ClientList.delete_clientId]
    exact stands.id

theorem Stands.find (stands : user.Stands list) (allocator : Allocator) (test : Client → Bool) :
    user.call allocator (.find test) =
      some (((list.nodes.find? fun node => test node.client).map Node.address).map user.pointer,
        user) := by
  have found := stands.holds.findCell_eq test
  simp only [call, ClientMemory.clientListFind, found, cells, List.find?_map, Option.map_map]
  rfl

theorem Stands.flush (stands : user.Stands list) (allocator : Allocator) :
    ∃ next, user.call allocator .flush = some (none, next) ∧ next.Stands list.flush := by
  by_cases empty : list.clientCount = 0
  · have none : user.memory.clientCount = 0 := stands.count ▸ empty
    refine ⟨user, ?_, ?_⟩
    · simp [call, ClientMemory.clientListFlush, none]
    · rw [ClientList.flush, if_pos empty]
      exact stands
  · have some : ¬ user.memory.clientCount = 0 := stands.count ▸ empty
    have freed := stands.holds.free_all stands.holds.card_keys.ge
    refine ⟨⟨.init, user.pointers⟩, ?_, ?_⟩
    · simp [call, ClientMemory.clientListFlush, some, freed, ClientMemory.init]
    · rw [ClientList.flush, if_neg empty]
      exact ⟨stands.created, .empty, rfl, rfl⟩

theorem Stands.call (stands : user.Stands list) (allocator : Allocator) {call : ListCall}
    (valid : call.Valid list) :
    ∃ next, user.call allocator call = some ((list.call call).1.map next.pointer, next) ∧
      next.Stands (list.call call).2 := by
  cases call with
  | append maxclients client =>
      rcases stands.append allocator maxclients client with ⟨_, next, called, holds, rfl⟩
      exact ⟨next, called, holds⟩
  | assign number change => exact stands.assign allocator valid change
  | delete number => exact stands.delete allocator valid
  | find test => exact ⟨user, stands.find allocator test, stands⟩
  | flush => exact stands.flush allocator

/-! ## All calls -/

theorem call_pointers {allocator : Allocator} {call : ListCall} {next : ListUser}
    {result : Option Nat} (called : user.call allocator call = some (result, next)) :
    user.pointers <+: next.pointers := by
  cases call with
  | append =>
      simp only [ListUser.call, Option.bind_eq_bind, Option.bind_eq_some_iff] at called
      rcases called with ⟨⟨_, _⟩, _, equal⟩
      cases equal
      exact List.prefix_append _ _
  | find =>
      simp only [ListUser.call, Option.bind_eq_bind, Option.bind_eq_some_iff] at called
      rcases called with ⟨_, _, equal⟩
      cases equal
      exact List.prefix_rfl
  | flush =>
      simp only [ListUser.call, Option.bind_eq_bind, Option.bind_eq_some_iff] at called
      rcases called with ⟨_, _, equal⟩
      cases equal
      exact List.prefix_rfl
  | _ =>
      simp only [ListUser.call, Option.bind_eq_bind, Option.bind_eq_some_iff] at called
      rcases called with ⟨_, _, _, _, equal⟩
      cases equal
      exact List.prefix_rfl

theorem pointer_of_prefix {next : ListUser} (longer : user.pointers <+: next.pointers)
    {number : Nat} (old : number < user.pointers.length) :
    next.pointer number = user.pointer number := by
  rcases longer with ⟨more, equal⟩
  rw [pointer, pointer, ← equal, List.getElem?_append_left old]

theorem result_below {call : ListCall} {number : Nat}
    (returned : (list.call call).1 = some number) :
    number < (list.call call).2.created := by
  cases call with
  | append maxclients client =>
      simp only [ClientList.call] at returned ⊢
      split at returned
      · cases returned
      · cases returned
        rename_i accepted
        rw [if_neg accepted]
        exact Nat.lt_succ_self _
  | find test =>
      simp only [ClientList.call, Option.map_eq_some_iff] at returned ⊢
      rcases returned with ⟨node, found, rfl⟩
      exact list.allocated node (List.mem_of_find?_eq_some found)
  | _ => cases returned

end

theorem calls_pointers {allocator : Allocator} {calls : List ListCall} {user final : ListUser}
    {results : List (Option Nat)} (called : user.calls allocator calls = some (results, final)) :
    user.pointers <+: final.pointers := by
  induction calls generalizing user results with
  | nil =>
      cases called
      exact List.prefix_rfl
  | cons call rest induction =>
      simp only [ListUser.calls, Option.bind_eq_bind, Option.bind_eq_some_iff] at called
      rcases called with ⟨⟨_, _⟩, first, ⟨_, _⟩, others, equal⟩
      cases equal
      exact (call_pointers first).trans (induction others)

theorem Stands.calls {allocator : Allocator} {calls : List ListCall} {user : ListUser}
    {list : ClientList} (stands : user.Stands list) (valid : list.ValidCalls calls) :
    ∃ final, user.calls allocator calls =
        some ((list.calls calls).1.map (Option.map final.pointer), final) ∧
      final.Stands (list.calls calls).2 := by
  induction calls generalizing user list with
  | nil => exact ⟨user, rfl, stands⟩
  | cons call rest induction =>
      rcases stands.call allocator valid.1 with ⟨next, called, standsNext⟩
      rcases induction standsNext valid.2 with ⟨final, others, standsFinal⟩
      refine ⟨final, ?_, standsFinal⟩
      have kept : (list.call call).1.map next.pointer = (list.call call).1.map final.pointer := by
        cases returned : (list.call call).1 with
        | none => rfl
        | some number =>
            have below := result_below returned
            rw [← standsNext.created] at below
            rw [Option.map_some, Option.map_some, pointer_of_prefix (calls_pointers others) below]
      simp only [ListUser.calls, ClientList.calls, called, Option.bind_eq_bind, Option.bind_some,
        others, List.map_cons, kept]
      rfl

end ListUser

/-! ## The calls of the daemon -/

namespace ClientList

theorem calls_append (list : ClientList) (first second : List ListCall) :
    (list.calls (first ++ second)).2 = ((list.calls first).2.calls second).2 := by
  induction first generalizing list with
  | nil => rfl
  | cons call rest induction => exact induction (list.call call).2

theorem ValidCalls.append {list : ClientList} {first second : List ListCall}
    (left : list.ValidCalls first) (right : (list.calls first).2.ValidCalls second) :
    list.ValidCalls (first ++ second) := by
  induction first generalizing list with
  | nil => exact right
  | cons call rest induction => exact ⟨left.1, induction left.2 right⟩

def Calls (list next : ClientList) : Prop :=
  ∃ calls, list.ValidCalls calls ∧ (list.calls calls).2 = next

theorem Calls.refl (list : ClientList) : list.Calls list := ⟨[], trivial, rfl⟩

theorem Calls.trans {first second third : ClientList} (left : first.Calls second)
    (right : second.Calls third) : first.Calls third := by
  rcases left with ⟨before, valid, rfl⟩
  rcases right with ⟨after, validAfter, rfl⟩
  exact ⟨before ++ after, valid.append validAfter, calls_append first before after⟩

theorem Calls.single {list : ClientList} (call : ListCall) (valid : call.Valid list) :
    list.Calls (list.call call).2 :=
  ⟨[call], ⟨valid, trivial⟩, rfl⟩

theorem Calls.modify (list : ClientList) (address : Nat) (change : Client → Client) :
    list.Calls (list.modify address change) := by
  by_cases listed : ∃ node ∈ list.nodes, node.address = address
  · exact .single (.assign address change) listed
  · have same : list.modify address change = list := by
      have nodes : (list.modify address change).nodes = list.nodes :=
        KeyedList.update_of_absent Node.address _ fun node member equal =>
          listed ⟨node, member, equal⟩
      rcases list with ⟨_, _, _, _⟩
      simp only [ClientList.modify, ClientList.mk.injEq, and_true] at nodes ⊢
      exact nodes
    rw [same]
    exact .refl list

end ClientList

namespace Gateway

open ClientList

theorem Transition.listCalls {permits : Permissions} {gateway next : Gateway}
    (transition : Transition permits gateway next) : gateway.clients.Calls next.clients := by
  cases transition with
  | clock | authentications | bytes => exact .refl _
  | @add _ mac ip _ _ _ _ added =>
      rcases clientListAppend_eq added with ⟨room, _, rfl⟩
      let client := gateway.newClient mac ip gateway.drawToken.1
      have pushed : (gateway.clients.call (.append gateway.config.maxclients client)).2 =
          gateway.clients.push client := by
        rw [ClientList.call, if_neg (not_le.mpr room)]
        rfl
      rw [← pushed]
      exact .single (.append gateway.config.maxclients client) trivial
  | @delete node member => exact .single (.delete node.address) ⟨node, member, rfl⟩
  | @count address raise =>
      exact Calls.modify gateway.clients address fun client =>
        { client with counters := raise client.counters }
  | assign keeps => exact Calls.modify gateway.clients _ _
  | authenticate =>
      rw [enterAuthenticated_clients]
      exact Calls.modify gateway.clients _ _
  | deauthenticate =>
      rw [leaveAuthenticated_clients]
      exact (Calls.modify gateway.clients _ _).trans (Calls.modify _ _ _)
  | @block node _ member =>
      rw [leaveBlocked_clients]
      exact .single (.delete node.address) ⟨node, member, rfl⟩
  | editMacs =>
      rw [editMacs_clients]
      exact .refl _

theorem Transitions.listCalls {permits : Permissions} {gateway next : Gateway}
    (transitions : Transitions permits gateway next) : gateway.clients.Calls next.clients := by
  induction transitions with
  | refl => exact .refl _
  | tail _ transition induction => exact induction.trans transition.listCalls

end Gateway

theorem DaemonRun.listCalls {initial final : Gateway} {events : List (Int × Event)}
    (run : DaemonRun initial events final) : initial.clients.Calls final.clients :=
  (Gateway.run_transitions run).listCalls

/-! ## The list in memory -/

/-- Whatever pointers `safe_malloc` returns, valid calls use no memory that is
not allocated, every loop ends, and each call returns the pointer to the client
that it returns on the level of `ClientList`. In the end the elements of the list
are linked in their order, and no other element is left in memory. -/
theorem client_list_in_memory (allocator : Allocator) {calls : List ListCall}
    (valid : ClientList.init.ValidCalls calls) :
    ∃ final, ListUser.start.calls allocator calls =
        some ((ClientList.init.calls calls).1.map (Option.map final.pointer), final) ∧
      final.Stands (ClientList.init.calls calls).2 ∧
      final.memory.heap.keys.card = (ClientList.init.calls calls).2.nodes.length := by
  rcases ListUser.start_stands.calls valid with ⟨final, called, stands⟩
  refine ⟨final, called, stands, ?_⟩
  rw [stands.holds.card_keys, ListUser.cells, List.length_map]

/-- An allocator that gives memory out again. -/
def reusingAllocator : Allocator where
  malloc := fun _ heap => Nat.find (Infinite.exists_notMem_finset heap.keys)
  fresh := by
    intro _ heap member
    exact Nat.find_spec (Infinite.exists_notMem_finset heap.keys) (Finmap.mem_keys.mpr member)

/-- Two clients are added; the second is deleted, and a third gets its memory. -/
def reusingCalls : List ListCall :=
  [.append 20 (defaultClient 0 "00:16:3e:00:00:01" "192.168.42.10"),
    .append 20 (defaultClient 0 "00:16:3e:00:00:02" "192.168.42.11"), .delete 1,
    .append 20 (defaultClient 0 "00:16:3e:00:00:03" "192.168.42.12"),
    .find fun client => client.ip = "192.168.42.12"]

theorem client_list_in_memory_reused :
    ∃ final, ListUser.start.calls reusingAllocator reusingCalls =
        some ((ClientList.init.calls reusingCalls).1.map (Option.map final.pointer), final) ∧
      final.Stands (ClientList.init.calls reusingCalls).2 ∧
      final.memory.heap.keys.card = (ClientList.init.calls reusingCalls).2.nodes.length := by
  apply client_list_in_memory reusingAllocator
  refine ⟨trivial, trivial, ?_, trivial, trivial, trivial⟩
  exact ⟨_, List.mem_cons_of_mem _ List.mem_cons_self, rfl⟩

theorem daemon_list_in_memory (allocator : Allocator) {initial final : Gateway}
    {events : List (Int × Event)} (empty : initial.clients = .init)
    (run : DaemonRun initial events final) :
    ∃ calls user, ClientList.init.ValidCalls calls ∧
      (∃ results, ListUser.start.calls allocator calls = some (results, user)) ∧
      user.Stands final.clients := by
  have made := run.listCalls
  rw [empty] at made
  rcases made with ⟨calls, valid, reached⟩
  rcases client_list_in_memory allocator valid with ⟨user, called, stands, _⟩
  rw [reached] at stands
  exact ⟨calls, user, valid, ⟨_, called⟩, stands⟩

end Nodogsplash
