import Nodogsplash.ClientMemory
import Nodogsplash.RefreshPass

/-! # Passes that follow the links

The loops of `fw_refresh_client_list` and `auth_client_deauth_all` read the link
of an element before a visit that may free an element. Whatever the ids are, the
element that they go on with has not been freed. -/

namespace Nodogsplash

namespace ClientList

def keys (list : ClientList) : List (Nat × BitVec 32) :=
  list.nodes.map fun node => (node.address, node.client.id)

theorem keys_modify (list : ClientList) (address : Nat) {change : Client → Client}
    (keepsId : ∀ client, (change client).id = client.id) :
    (list.modify address change).keys = list.keys := by
  simp only [keys, modify, KeyedList.update, List.map_map]
  apply List.map_congr_left
  intro node _
  by_cases same : node.address = address <;> simp [same, keepsId]

theorem keys_delete (list : ClientList) (address : Nat) :
    (list.delete address).keys = KeyedList.remove Prod.fst address list.keys := by
  rw [keys, keys, nodes_delete, KeyedList.remove, KeyedList.remove, List.eraseP_map]
  rfl

theorem keys_distinct (list : ClientList) : (list.keys.map Prod.fst).Nodup := by
  have distinct := list.distinct
  rw [keys, List.map_map]
  exact distinct

section

variable {list : ClientList} {before after : List (Nat × BitVec 32)} {address : Nat}
  {id : BitVec 32}

theorem exists_nodes_split (keys : list.keys = before ++ (address, id) :: after) :
    ∃ left node right, list.nodes = left ++ node :: right ∧ node.address = address ∧
      node.client.id = id ∧ (left.map fun node => (node.address, node.client.id)) = before ∧
      (right.map fun node => (node.address, node.client.id)) = after := by
  rcases List.map_eq_append_iff.mp keys with ⟨left, rest, nodes, lefts, rests⟩
  rcases List.map_eq_cons_iff.mp rests with ⟨node, right, rfl, key, rights⟩
  cases key
  exact ⟨left, node, right, nodes, rfl, rfl, lefts, rights⟩

/-- A lookup by the id of an element finds this element or one before it. -/
theorem findById_not_after (keys : list.keys = before ++ (address, id) :: after) :
    ∃ found front back, list.findById id = some found ∧ found ∈ list.nodes ∧
      before ++ [(address, id)] = front ++ (found.address, found.client.id) :: back := by
  rcases exists_nodes_split keys with ⟨left, node, right, nodes, rfl, rfl, rfl, _⟩
  rw [findById, nodes, List.find?_append]
  cases search : left.find? fun other => decide (other.client.id = node.client.id) with
  | none =>
      refine ⟨node, _, [], ?_, by simp, rfl⟩
      rw [Option.none_or, List.find?_cons_of_pos (by simp)]
  | some found =>
      have member := List.mem_of_find?_eq_some search
      rcases List.append_of_mem member with ⟨front, back, rfl⟩
      refine ⟨found, front.map fun node => (node.address, node.client.id),
        (back.map fun node => (node.address, node.client.id)) ++
          [(node.address, node.client.id)], rfl, by simp, ?_⟩
      simp

end

end ClientList

namespace Gateway

/-- The loops, with `cp1` at the address `cursor`: nothing if they read an element
that is not on the list, or if `fuel` rounds are not enough. -/
def followLinks (visit : Gateway → Node → Gateway) : Nat → Gateway → Option Nat → Option Gateway
  | _, gateway, none => some gateway
  | 0, _, some _ => none
  | fuel + 1, gateway, some cursor =>
      match gateway.clients.nodes.find? fun node => decide (node.address = cursor) with
      | none => none
      | some node =>
          let cp2 := nextAddress gateway.clients cursor
          match gateway.clients.findById node.client.id with
          | none => followLinks visit fuel gateway cp2
          | some found => followLinks visit fuel (visit gateway found) cp2

theorem refreshLoop_eq_followLinks : refreshLoop = followLinks refreshClient := by
  funext fuel gateway cursor
  induction fuel generalizing gateway cursor with
  | zero => cases cursor <;> rfl
  | succ fuel induction =>
      cases cursor with
      | none => rfl
      | some cursor =>
          cases read : gateway.clients.nodes.find? fun node => decide (node.address = cursor) with
          | none => simp only [refreshLoop, followLinks, read]
          | some node =>
              cases looked : gateway.clients.findById node.client.id with
              | none => simp only [refreshLoop, followLinks, read, looked, induction]
              | some found => simp only [refreshLoop, followLinks, read, looked, induction]

/-- The loop of `auth_client_deauth_all`. -/
def deauthAllLoop : Nat → Gateway → Option Nat → Option Gateway :=
  followLinks fun gateway node =>
    (gateway.authChangeState node preauthenticatedState (some "shutdown_deauth")).2

def FreesOnlyVisited (visit : Gateway → Node → Gateway) : Prop :=
  ∀ gateway : Gateway, ∀ node ∈ gateway.clients.nodes,
    (visit gateway node).clients.keys = gateway.clients.keys ∨
      (visit gateway node).clients.keys =
        KeyedList.remove Prod.fst node.address gateway.clients.keys

theorem authChangeState_frees (newState : BitVec 32) (reason : Option String) :
    FreesOnlyVisited fun gateway node => (gateway.authChangeState node newState reason).2 := by
  intro gateway node _
  beta_reduce
  rcases gateway.authChangeState_cases node newState reason with
    ⟨_, _, equal⟩ | ⟨_, _, equal⟩ | ⟨_, _, equal⟩ | equal
  · left
    rw [equal, enterAuthenticated_clients]
    exact ClientList.keys_modify _ _ fun _ => rfl
  · left
    rw [equal, leaveAuthenticated_clients, ClientList.keys_modify, ClientList.keys_modify]
    · exact fun _ => rfl
    · exact fun _ => rfl
  · right
    rw [equal, leaveBlocked_clients]
    exact ClientList.keys_delete _ _
  · left
    rw [equal]

theorem refreshClient_frees : FreesOnlyVisited refreshClient := by
  intro gateway node member
  have changes (newState : BitVec 32) (reason : Option String) :=
    authChangeState_frees newState reason gateway node member
  simp only [refreshClient]
  split
  · split <;> exact changes _ _
  · split
    · exact changes _ _
    · split
      · right
        exact ClientList.keys_delete _ _
      · split
        · exact changes _ _
        · exact .inl rfl

theorem nextAddress_keys {gateway : Gateway} {before after : List (Nat × BitVec 32)}
    {address : Nat} {id : BitVec 32}
    (keys : gateway.clients.keys = before ++ (address, id) :: after) :
    nextAddress gateway.clients address = after.head?.map Prod.fst := by
  rcases ClientList.exists_nodes_split keys with ⟨left, node, right, nodes, rfl, _, _, rfl⟩
  rw [nextAddress_split nodes]
  cases right <;> rfl

/-- The rest of a loop, when the elements that are ahead have not been touched. -/
theorem followLinks_ahead {visit : Gateway → Node → Gateway} (frees : FreesOnlyVisited visit)
    {gateway : Gateway} (before : List (Nat × BitVec 32)) {ahead : List Node}
    (keys : gateway.clients.keys =
      before ++ ahead.map fun node => (node.address, node.client.id)) :
    followLinks visit ahead.length gateway (ahead.head?.map Node.address) =
      some (ahead.foldl (fun gateway node =>
        match gateway.clients.findById node.client.id with
        | none => gateway
        | some found => visit gateway found) gateway) := by
  induction ahead generalizing gateway before with
  | nil => rfl
  | cons node ahead induction =>
      rw [List.map_cons] at keys
      have next := nextAddress_keys keys
      have cursor : (ahead.map fun node => (node.address, node.client.id)).head?.map Prod.fst =
          ahead.head?.map Node.address := by
        cases ahead <;> rfl
      rcases ClientList.exists_nodes_split keys with ⟨left, current, right, nodes, address, id, _⟩
      have member : current ∈ gateway.clients.nodes := by
        rw [nodes]
        exact List.mem_append_right _ List.mem_cons_self
      have read := KeyedList.find?_key Node.address gateway.clients.distinct member
      rcases ClientList.findById_not_after keys with ⟨found, front, back, looked, listed, split⟩
      -- the elements ahead are behind the one that the visit is about
      have divided : gateway.clients.keys = front ++ (found.address, found.client.id) ::
          (back ++ ahead.map fun node => (node.address, node.client.id)) := by
        rw [keys, ← List.singleton_append, ← List.append_assoc, split, List.append_assoc,
          List.cons_append]
      have kept : ∃ before, (visit gateway found).clients.keys =
          before ++ ahead.map fun node => (node.address, node.client.id) := by
        rcases frees gateway found listed with same | removed
        · rw [same, keys]
          exact ⟨before ++ [(node.address, node.client.id)], by simp⟩
        · have distinct := gateway.clients.keys_distinct
          rw [divided] at removed distinct
          rw [removed, KeyedList.remove_split Prod.fst
            (KeyedList.key_ne_of_split Prod.fst distinct).1]
          exact ⟨front ++ back, by simp⟩
      rcases kept with ⟨before, keysNext⟩
      rw [address] at read
      rw [← id] at looked
      rw [List.length_cons, List.head?_cons, Option.map_some, followLinks]
      simp only [read, looked, next, cursor, List.foldl_cons, ← id]
      exact induction before keysNext

theorem followLinks_eq {visit : Gateway → Node → Gateway} (frees : FreesOnlyVisited visit)
    (gateway : Gateway) :
    followLinks visit gateway.clients.nodes.length gateway
      (gateway.clients.nodes.head?.map Node.address) = some (forEachClient visit gateway) :=
  followLinks_ahead frees [] rfl

end Gateway

/-- Whatever the ids of the clients are, the loops of `fw_refresh_client_list` and
`auth_client_deauth_all` read no element that has been freed, end after one round
for each client, and do what `forEachClient` does. -/
theorem passes_read_no_freed_client (gateway : Gateway) :
    let rounds := gateway.clients.nodes.length
    let first := gateway.clients.nodes.head?.map Node.address
    Gateway.refreshLoop rounds gateway first =
        some (Gateway.forEachClient Gateway.refreshClient gateway) ∧
      Gateway.deauthAllLoop rounds gateway first = some (Gateway.authClientDeauthAll gateway) := by
  intro rounds first
  rw [Gateway.refreshLoop_eq_followLinks]
  exact ⟨Gateway.followLinks_eq Gateway.refreshClient_frees gateway,
    Gateway.followLinks_eq (Gateway.authChangeState_frees _ _) gateway⟩

end Nodogsplash
