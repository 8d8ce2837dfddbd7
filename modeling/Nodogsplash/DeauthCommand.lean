import Nodogsplash.ClientIds
import Nodogsplash.Daemon

/-! # The command deauth

`ndsctl deauth` takes the first client that has the argument as its token, else as its
IP, else as its MAC, and deauthenticates no other. -/

namespace Nodogsplash

/-- An entry that `client_list_find_by_any` can find. -/
def Client.Answers (client : Client) (target : String) : Prop :=
  client.token = target ∨ client.ip = target ∨ client.mac = target

def Client.Reached (client : Client) (target : String) : Prop :=
  client.mac = target ∨ client.ip = target

theorem ClientList.Identified.of_ids {list : ClientList} {ids : List (BitVec 32)}
    (equal : list.ids = ids) (nonzero : 0 ∉ ids) (distinct : ids.Nodup) : list.Identified where
  nonzero id member zero := by
    rw [equal, zero] at member
    exact nonzero member
  distinct := by rwa [equal]

theorem ClientList.findByAny_isSome_iff (list : ClientList) (target : String) :
    (list.findByAny target target target).isSome = true ↔
      ∃ node ∈ list.nodes, node.client.Answers target := by
  have first : (list.findByToken target).isSome = true ↔
      ∃ node ∈ list.nodes, node.client.token = target := by
    simp [findByToken]
  have second : (list.findByIp target).isSome = true ↔
      ∃ node ∈ list.nodes, node.client.ip = target := by
    simp [findByIp]
  have third : (list.findByMac target).isSome = true ↔
      ∃ node ∈ list.nodes, node.client.mac = target := by
    simp [findByMac]
  have any : (list.findByAny target target target).isSome = true ↔
      (list.findByToken target).isSome = true ∨ (list.findByIp target).isSome = true ∨
        (list.findByMac target).isSome = true := by
    simp [findByAny]
  rw [any, first, second, third]
  constructor
  · rintro (⟨node, member, own⟩ | ⟨node, member, own⟩ | ⟨node, member, own⟩)
    · exact ⟨node, member, .inl own⟩
    · exact ⟨node, member, .inr (.inl own)⟩
    · exact ⟨node, member, .inr (.inr own)⟩
  · rintro ⟨node, member, own | own | own⟩
    · exact .inl ⟨node, member, own⟩
    · exact .inr (.inl ⟨node, member, own⟩)
    · exact .inr (.inr ⟨node, member, own⟩)

theorem ClientList.mem_of_findByAny {list : ClientList} {mac ip token : String} {node : Node}
    (found : list.findByAny mac ip token = some node) : node ∈ list.nodes := by
  rw [findByAny, Option.orElse_eq_some, Option.orElse_eq_some] at found
  rcases found with found | ⟨_, found | ⟨_, found⟩⟩
  · exact List.mem_of_find?_eq_some found
  · exact List.mem_of_find?_eq_some found
  · exact List.mem_of_find?_eq_some found

namespace Gateway

def Authenticates (gateway : Gateway) (node : Node) : Prop :=
  node.client.fwConnectionState = gateway.marks.authenticated

instance (gateway : Gateway) (node : Node) : Decidable (gateway.Authenticates node) :=
  inferInstanceAs (Decidable (_ = _))

/-- If some entry with the argument is authenticated, the command answers `Yes` and none
is left at the MAC or the IP. -/
def DeauthLeavesNone (gateway : Gateway) (target : String) : Prop :=
  (∃ node ∈ gateway.clients.nodes, node.client.Answers target ∧ gateway.Authenticates node) →
    (gateway.ndsctlDeauth target).1 = 0 ∧
      ∀ node ∈ (gateway.ndsctlDeauth target).2.clients.nodes, node.client.Reached target →
        ¬ (gateway.ndsctlDeauth target).2.Authenticates node

/-- If some entry with the argument is authenticated, the one that is found is, and no
other at the MAC or the IP. -/
def FoundAlone (gateway : Gateway) (target : String) : Prop :=
  (∃ node ∈ gateway.clients.nodes, node.client.Answers target ∧ gateway.Authenticates node) →
    ∃ found, gateway.clients.findByAny target target target = some found ∧
      gateway.Authenticates found ∧
      ∀ node ∈ gateway.clients.nodes, node.client.Reached target →
        gateway.Authenticates node → node = found

variable {gateway : Gateway} {target : String} {found : Node}

theorem ndsctlDeauth_found (identified : gateway.clients.Identified)
    (finds : gateway.clients.findByAny target target target = some found) :
    gateway.ndsctlDeauth target =
      gateway.authChangeState found preauthenticatedState (some "ndsctl_deauth") := by
  have member := ClientList.mem_of_findByAny finds
  have id : gateway.ndsctlId target = found.client.id := by
    rw [ndsctlId, finds]
  have nonzero : gateway.ndsctlId target ≠ 0 := by
    rw [id]
    exact identified.nonzero _ (List.mem_map_of_mem member)
  have self := identified.findById_self member
  rw [ndsctlDeauth, if_pos nonzero, id, authClientDeauth, self]

theorem authChangeState_leave (gateway : Gateway) (node : Node)
    (reason : Option String) :
    gateway.authChangeState node preauthenticatedState reason =
      if gateway.Authenticates node then (0, gateway.leaveAuthenticated node reason)
      else (-1, gateway) := by
  by_cases state : gateway.Authenticates node
  · rw [authChangeState_of_authenticated gateway reason state, if_pos state]
  · have different := preauthenticated_ne_authenticated gateway.marks
    rw [authChangeState_of_ne gateway reason state different, if_neg state]

theorem authenticates_leaveAuthenticated {reason : Option String}
    (member : found ∈ gateway.clients.nodes) {node : Node} :
    (node ∈ (gateway.leaveAuthenticated found reason).clients.nodes ∧
        (gateway.leaveAuthenticated found reason).Authenticates node) ↔
      node ∈ gateway.clients.nodes ∧ gateway.Authenticates node ∧ node ≠ found := by
  have different : gateway.marks.authenticated ≠ preauthenticatedState :=
    gateway.marks.authenticated_ne_zero
  rw [Authenticates, leaveAuthenticated_clients, leaveAuthenticated_marks]
  constructor
  · rintro ⟨inList, authenticated⟩
    rcases ClientList.mem_modify.mp inList with ⟨source, _, _, rfl⟩ | ⟨inReset, other⟩
    · exact absurd authenticated.symm different
    · rcases ClientList.mem_modify.mp inReset with ⟨source, _, own, rfl⟩ | ⟨original, _⟩
      · exact absurd own other
      · exact ⟨original, authenticated, fun equal => other (congrArg Node.address equal)⟩
  · rintro ⟨original, authenticated, unequal⟩
    have other : node.address ≠ found.address := fun equal =>
      unequal (ClientList.eq_of_address original member equal)
    refine ⟨?_, authenticated⟩
    apply ClientList.mem_modify.mpr
    exact .inr ⟨ClientList.mem_modify.mpr (.inr ⟨original, other⟩), other⟩

end Gateway

/-- The command leaves none authenticated exactly if the entry that is found is the only
one. -/
theorem deauth_leaves_none_iff {gateway : Gateway} (identified : gateway.clients.Identified)
    (target : String) : gateway.DeauthLeavesNone target ↔ gateway.FoundAlone target := by
  rw [Gateway.DeauthLeavesNone, Gateway.FoundAlone]
  apply imp_congr_right
  rintro ⟨some, someMember, answers, _⟩
  have isSome : (gateway.clients.findByAny target target target).isSome = true :=
    (ClientList.findByAny_isSome_iff _ _).mpr ⟨some, someMember, answers⟩
  rcases Option.isSome_iff_exists.mp isSome with ⟨found, finds⟩
  have member := ClientList.mem_of_findByAny finds
  rw [Gateway.ndsctlDeauth_found identified finds, Gateway.authChangeState_leave]
  by_cases authenticated : gateway.Authenticates found
  · rw [if_pos authenticated]
    constructor
    · rintro ⟨_, none⟩
      refine ⟨found, finds, authenticated, ?_⟩
      intro node original reached state
      by_contra unequal
      rcases (Gateway.authenticates_leaveAuthenticated member).mpr ⟨original, state, unequal⟩ with
        ⟨inList, still⟩
      exact none node inList reached still
    · rintro ⟨other, findsOther, _, alone⟩
      rw [finds] at findsOther
      cases findsOther
      refine ⟨rfl, ?_⟩
      intro node inList reached still
      rcases (Gateway.authenticates_leaveAuthenticated member).mp ⟨inList, still⟩ with
        ⟨original, state, unequal⟩
      exact unequal (alone node original reached state)
  · rw [if_neg authenticated]
    constructor
    · rintro ⟨yes, _⟩
      cases yes
    · rintro ⟨other, findsOther, state, _⟩
      rw [finds] at findsOther
      cases findsOther
      exact absurd state authenticated

/-- The default installation after some operations. -/
def operatedGateway (operations : List Gateway.ClientOperation) : Gateway :=
  operations.foldl Gateway.operate defaultGateway

def oneClient : List Gateway.ClientOperation :=
  [.add "00:16:3e:00:00:01" "192.168.42.10", .authenticate 1 (some "ndsctl_auth")]

def firstAuthenticated : List Gateway.ClientOperation :=
  oneClient ++ [.add "00:16:3e:00:00:01" "192.168.42.11"]

theorem deauth_leaves_none_iff_first :
    (operatedGateway firstAuthenticated).clients.nodes.map (·.client.mac) =
        ["00:16:3e:00:00:01", "00:16:3e:00:00:01"] ∧
      (operatedGateway firstAuthenticated).DeauthLeavesNone "00:16:3e:00:00:01" := by
  have identified : (operatedGateway firstAuthenticated).clients.Identified :=
    .of_ids (show _ = [1, 2] by decide +kernel) (by decide) (by decide)
  refine ⟨by decide +kernel, (deauth_leaves_none_iff identified _).mpr fun _ => ?_⟩
  have first : ∃ found, (operatedGateway firstAuthenticated).clients.findByAny
      "00:16:3e:00:00:01" "00:16:3e:00:00:01" "00:16:3e:00:00:01" = some found ∧
        found.address = 0 ∧ (operatedGateway firstAuthenticated).Authenticates found :=
    ⟨(operatedGateway firstAuthenticated).clients.nodes.head (by decide +kernel), by decide +kernel,
      by decide +kernel, by decide +kernel⟩
  have others : ((operatedGateway firstAuthenticated).clients.nodes.all fun node =>
      !decide ((operatedGateway firstAuthenticated).Authenticates node) ||
        decide (node.address = 0)) = true := by decide +kernel
  rcases first with ⟨found, finds, address, authenticated⟩
  refine ⟨found, finds, authenticated, fun node member _ state => ?_⟩
  have zero := List.all_eq_true.mp others node member
  rw [decide_eq_true state, Bool.not_true, Bool.false_or, decide_eq_true_eq] at zero
  exact ClientList.eq_of_address member (ClientList.mem_of_findByAny finds) (zero.trans address.symm)

def sharedMac : List Gateway.ClientOperation :=
  oneClient ++ [.add "00:16:3e:00:00:01" "192.168.42.11", .authenticate 2 (some "ndsctl_auth")]

/-- The command answers `Yes` and leaves the second client of the MAC authenticated. -/
theorem deauth_leaves_other :
    Gateway.ClientRun defaultGateway sharedMac (operatedGateway sharedMac) ∧
      (operatedGateway sharedMac).clients.Identified ∧
      ((operatedGateway sharedMac).ndsctlDeauth "00:16:3e:00:00:01").1 = 0 ∧
      ¬ (operatedGateway sharedMac).DeauthLeavesNone "00:16:3e:00:00:01" := by
  have identified : (operatedGateway sharedMac).clients.Identified :=
    .of_ids (show _ = [1, 2] by decide +kernel) (by decide) (by decide)
  refine ⟨(Execution.run_ofFunction_iff _ _ _ _).mpr rfl, identified, by decide +kernel, ?_⟩
  intro leavesNone
  have left : (((operatedGateway sharedMac).ndsctlDeauth
      "00:16:3e:00:00:01").2.clients.nodes.any fun node =>
        decide (node.client.mac = "00:16:3e:00:00:01") &&
          decide (((operatedGateway sharedMac).ndsctlDeauth
            "00:16:3e:00:00:01").2.Authenticates node)) = true := by decide +kernel
  have before : ((operatedGateway sharedMac).clients.nodes.any fun node =>
      decide (node.client.mac = "00:16:3e:00:00:01") &&
        decide ((operatedGateway sharedMac).Authenticates node)) = true := by decide +kernel
  rcases List.any_eq_true.mp before with ⟨some, someMember, both⟩
  rw [Bool.and_eq_true, decide_eq_true_eq, decide_eq_true_eq] at both
  rcases List.any_eq_true.mp left with ⟨node, member, still⟩
  rw [Bool.and_eq_true, decide_eq_true_eq, decide_eq_true_eq] at still
  exact (leavesNone ⟨some, someMember, .inr (.inr both.1), both.2⟩).2 node member
    (.inl still.1) still.2

end Nodogsplash
