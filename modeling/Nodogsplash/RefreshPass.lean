import Nodogsplash.BlockedSessions
import Nodogsplash.ClientIds

/-! # One pass over the client list

`fw_refresh_client_list` follows the links of a list from which it deletes. What
it leaves is what a decision about each client by its own fields leaves. -/

namespace Nodogsplash

/-! ## The decision -/

inductive Judgement
  | keep
  | delete
  | block
  | reset
  deriving DecidableEq

/-- The decision about a client by its own fields. -/
def judge (config : Config) (marks : AcceptedMarks) (now : Int) (client : Client) : Judgement :=
  let authenticated := client.fwConnectionState = marks.authenticated
  let idle := now - client.counters.lastUpdated
  if client.sessionEnd > 0 ∧ client.sessionEnd ≤ now then
    if ¬ authenticated then .keep
    else if config.sessionTimeoutBlock > 0 then .block
    else .reset
  else if config.sessionLimitBlock > 0 ∧
      (client.counters.incoming / 1000 : Nat) > config.sessionLimitBlock * 1000 then
    if authenticated then .block else .keep
  else if client.fwConnectionState = preauthenticatedState ∧ 60 * config.preauthIdleTimeout > 0 ∧
      idle ≥ 60 * config.preauthIdleTimeout then .delete
  else if authenticated ∧ 60 * config.authIdleTimeout > 0 ∧
      idle ≥ 60 * config.authIdleTimeout then .reset
  else .keep

/-- A client whose session has ended, with a token of the values that `rand16`
returns after `drawn` calls. -/
def resetNode (random : Nat → BitVec 16) (now : Int) (drawn : Nat) (node : Node) : Node :=
  let token := Gateway.hex16 (random drawn) ++ Gateway.hex16 (random (drawn + 1))
  { node with client :=
      { Gateway.resetFields now token node.client with
        fwConnectionState := preauthenticatedState } }

/-- The clients that are left of a list when each is judged once, in order;
`drawn` counts the calls of `rand16` for new tokens. -/
def judgeAll (judgement : Client → Judgement) (reset : Nat → Node → Node) (drawn : Nat) :
    List Node → List Node
  | [] => []
  | node :: rest =>
      match judgement node.client with
      | .keep => node :: judgeAll judgement reset drawn rest
      | .delete => judgeAll judgement reset drawn rest
      | .block => judgeAll judgement reset drawn rest
      | .reset => reset drawn node :: judgeAll judgement reset (drawn + 2) rest

def judgedMacs (judgement : Client → Judgement) (nodes : List Node) : List String :=
  (nodes.filter fun node => decide (judgement node.client = .block)).map (·.client.mac)

/-- The seconds and kilobytes of the configuration are in the range of `int`. -/
structure Config.ProductsFit (config : Config) : Prop where
  preauthIdle : toInt32 (60 * config.preauthIdleTimeout) = 60 * config.preauthIdleTimeout
  authIdle : toInt32 (60 * config.authIdleTimeout) = 60 * config.authIdleTimeout
  limit : toInt32 (config.sessionLimitBlock * 1000) = config.sessionLimitBlock * 1000

namespace Gateway

/-! ## One visit -/

theorem authChangeState_blocked (gateway : Gateway) (node : Node) (reason : Option String) :
    (gateway.authChangeState node gateway.marks.blocked reason).2 =
      if node.client.fwConnectionState = gateway.marks.authenticated then
        gateway.leaveBlocked node reason
      else gateway := by
  by_cases state : node.client.fwConnectionState = gateway.marks.authenticated
  · rw [authChangeState_of_blocking gateway reason state, if_pos state]
  · have different := gateway.marks.authenticated_ne_blocked.symm
    rw [authChangeState_of_ne gateway reason state different, if_neg state]

theorem authChangeState_preauthenticated (gateway : Gateway) (node : Node)
    (reason : Option String) :
    (gateway.authChangeState node preauthenticatedState reason).2 =
      if node.client.fwConnectionState = gateway.marks.authenticated then
        gateway.leaveAuthenticated node reason
      else gateway := by
  by_cases state : node.client.fwConnectionState = gateway.marks.authenticated
  · rw [authChangeState_of_authenticated gateway reason state, if_pos state]
  · have different := preauthenticated_ne_authenticated gateway.marks
    rw [authChangeState_of_ne gateway reason state different, if_neg state]

/-- The comparison of `unsigned long long` values is that of the numbers. -/
theorem limit_reached_iff {config : Config} (fits : config.ProductsFit) (incoming : Nat) :
    (config.sessionLimitBlock > 0 ∧
        incoming / 1000 > toUInt64 (toInt32 (config.sessionLimitBlock * 1000))) ↔
      config.sessionLimitBlock > 0 ∧
        ((incoming / 1000 : Nat) : Int) > config.sessionLimitBlock * 1000 := by
  refine and_congr_right fun positive => ?_
  have below : config.sessionLimitBlock * 1000 < 2 ^ 64 := by
    rw [← fits.limit, toInt32]
    exact (Int.bmod_lt (show 0 < 2 ^ 32 by decide)).trans_le (by decide)
  have product : config.sessionLimitBlock * 1000 % 2 ^ 64 = config.sessionLimitBlock * 1000 :=
    Int.emod_eq_of_lt (by omega) below
  rw [fits.limit, toUInt64, product, gt_iff_lt, gt_iff_lt, Int.toNat_lt (by omega)]

theorem refreshClient_judged {gateway : Gateway} (fits : gateway.config.ProductsFit)
    (node : Node) :
    ∃ reason, gateway.refreshClient node =
      match judge gateway.config gateway.marks gateway.clock node.client with
      | .keep => gateway
      | .delete => gateway.clientListDelete node.address
      | .block => gateway.leaveBlocked node reason
      | .reset => gateway.leaveAuthenticated node reason := by
  simp only [refreshClient, judge, limit_reached_iff fits, fits.preauthIdle, fits.authIdle,
    authChangeState_blocked, authChangeState_preauthenticated]
  split
  · by_cases authenticated : node.client.fwConnectionState = gateway.marks.authenticated
    · simp only [authenticated, not_true_eq_false, if_true, if_false]
      by_cases blocks : gateway.config.sessionTimeoutBlock > 0
      · simp only [if_pos blocks]
        exact ⟨_, rfl⟩
      · simp only [if_neg blocks]
        exact ⟨_, rfl⟩
    · simp only [authenticated, not_false_eq_true, if_true, if_false, ite_self, exists_const]
  · split
    · by_cases authenticated : node.client.fwConnectionState = gateway.marks.authenticated
      · simp only [if_pos authenticated]
        exact ⟨_, rfl⟩
      · simp only [if_neg authenticated, exists_const]
    · have removed : (60 * gateway.config.preauthIdleTimeout > 0 ∧
          node.client.fwConnectionState = preauthenticatedState ∧
          node.client.counters.lastUpdated + 60 * gateway.config.preauthIdleTimeout ≤
            gateway.clock) ↔
          node.client.fwConnectionState = preauthenticatedState ∧
            60 * gateway.config.preauthIdleTimeout > 0 ∧
            gateway.clock - node.client.counters.lastUpdated ≥
              60 * gateway.config.preauthIdleTimeout := by
        rw [and_left_comm]
        exact and_congr_right fun _ => and_congr_right fun _ => by omega
      have ended : (60 * gateway.config.authIdleTimeout > 0 ∧
          node.client.fwConnectionState = gateway.marks.authenticated ∧
          node.client.counters.lastUpdated + 60 * gateway.config.authIdleTimeout ≤
            gateway.clock) ↔
          node.client.fwConnectionState = gateway.marks.authenticated ∧
            60 * gateway.config.authIdleTimeout > 0 ∧
            gateway.clock - node.client.counters.lastUpdated ≥
              60 * gateway.config.authIdleTimeout := by
        rw [and_left_comm]
        exact and_congr_right fun _ => and_congr_right fun _ => by omega
      rw [if_congr removed rfl rfl, if_congr ended rfl rfl]
      split
      · exact ⟨none, rfl⟩
      · split
        · next idle =>
            rw [if_pos idle.1]
            exact ⟨_, rfl⟩
        · exact ⟨none, rfl⟩

/-! ## The list after a visit -/

structure SamePass (gateway next : Gateway) : Prop where
  marks : next.marks = gateway.marks
  clock : next.clock = gateway.clock
  random : next.random = gateway.random

theorem leaveAuthenticated_samePass (gateway : Gateway) (node : Node) (reason : Option String) :
    gateway.SamePass (gateway.leaveAuthenticated node reason) ∧
      (gateway.leaveAuthenticated node reason).drawn = gateway.drawn + 2 := by
  refine ⟨⟨?_, ?_, ?_⟩, ?_⟩ <;>
    simp only [leaveAuthenticated, record, setState, clientReset, modifyClient, drawToken,
      binauthAction, iptablesFwDeauthenticate]

theorem leaveBlocked_samePass (gateway : Gateway) (node : Node) (reason : Option String) :
    gateway.SamePass (gateway.leaveBlocked node reason) ∧
      (gateway.leaveBlocked node reason).drawn = gateway.drawn := by
  refine ⟨⟨?_, ?_, ?_⟩, ?_⟩ <;>
    simp only [leaveBlocked, record, clientListDelete, authClientBlock, editMacList,
      binauthAction, iptablesFwDeauthenticate]

def blockMacs (config : Config) (macs : List String) : Config :=
  macs.foldl (fun config mac => (config.addToBlockedMacList mac).2) config

theorem judge_blockMacs (config : Config) (macs : List String) :
    judge (blockMacs config macs) = judge config ∧
      (config.ProductsFit → (blockMacs config macs).ProductsFit) := by
  induction macs generalizing config with
  | nil => exact ⟨rfl, id⟩
  | cons mac macs induction =>
      rcases induction (config.addToBlockedMacList mac).2 with ⟨same, fit⟩
      exact ⟨same, fun fits => fit ⟨fits.preauthIdle, fits.authIdle, fits.limit⟩⟩

section

variable {gateway : Gateway} {before ahead : List Node} {node : Node}

theorem findById_split (nodes : gateway.clients.nodes = before ++ node :: ahead)
    (ids : gateway.clients.ids.Nodup) : gateway.clients.findById node.client.id = some node := by
  have member : node ∈ gateway.clients.nodes := by
    rw [nodes]
    exact List.mem_append_right _ List.mem_cons_self
  have distinct : (gateway.clients.nodes.map fun node => node.client.id).Nodup := ids
  exact KeyedList.find?_key (fun node => node.client.id) distinct member

/-- A visit replaces its element by what the decision leaves of it. -/
theorem refreshVisit_split (fits : gateway.config.ProductsFit)
    (nodes : gateway.clients.nodes = before ++ node :: ahead)
    (ids : gateway.clients.ids.Nodup) :
    let next := gateway.refreshVisit node
    let judgement := judge gateway.config gateway.marks gateway.clock
    let reset := resetNode gateway.random gateway.clock
    next.clients.nodes =
        before ++ judgeAll judgement reset gateway.drawn [node] ++ ahead ∧
      (∀ rest, judgeAll judgement reset gateway.drawn (node :: rest) =
        judgeAll judgement reset gateway.drawn [node] ++
          judgeAll judgement reset next.drawn rest) ∧
      next.config = blockMacs gateway.config (judgedMacs judgement [node]) ∧
      gateway.SamePass next := by
  intro next judgement reset
  have distinct := gateway.clients.distinct
  rw [nodes] at distinct
  rcases KeyedList.key_ne_of_split Node.address distinct with ⟨notBefore, notAfter⟩
  have deleted : (gateway.clients.delete node.address).nodes = before ++ ahead := by
    rw [ClientList.nodes_delete, nodes, KeyedList.remove_split Node.address notBefore]
  have visited : next = gateway.refreshClient node := by
    simp only [next, refreshVisit, findById_split nodes ids]
  rcases refreshClient_judged fits node with ⟨reason, judged⟩
  rw [visited, judged]
  cases decided : judge gateway.config gateway.marks gateway.clock node.client with
  | keep =>
      refine ⟨?_, ?_, ?_, ⟨rfl, rfl, rfl⟩⟩
      · simp [judgeAll, judgement, decided, nodes]
      · simp [judgeAll, judgement, decided]
      · simp [judgedMacs, judgement, decided, blockMacs]
  | delete =>
      refine ⟨?_, ?_, ?_, ⟨rfl, rfl, rfl⟩⟩
      · simp [judgeAll, judgement, decided, clientListDelete, deleted]
      · simp [judgeAll, judgement, decided, clientListDelete]
      · simp [judgedMacs, judgement, decided, blockMacs, clientListDelete]
  | block =>
      have same := leaveBlocked_samePass gateway node reason
      refine ⟨?_, ?_, ?_, same.1⟩
      · simp [judgeAll, judgement, decided, leaveBlocked_clients, deleted]
      · simp [judgeAll, judgement, decided, same.2]
      · simp [judgedMacs, judgement, decided, blockMacs, leaveBlocked_config]
  | reset =>
      have same := leaveAuthenticated_samePass gateway node reason
      refine ⟨?_, ?_, ?_, same.1⟩
      · let emptied (node : Node) : Node :=
          ⟨node.address, resetFields gateway.clock gateway.drawToken.1 node.client⟩
        let entered (node : Node) : Node :=
          ⟨node.address, { node.client with fwConnectionState := preauthenticatedState }⟩
        have first := KeyedList.update_split Node.address emptied node notBefore notAfter
        have second := KeyedList.update_split Node.address entered (emptied node)
          notBefore notAfter
        simp only [leaveAuthenticated_clients, ClientList.modify, nodes]
        refine (congrArg (KeyedList.update Node.address node.address entered) first).trans ?_
        refine second.trans ?_
        simp [judgeAll, judgement, decided, reset, resetNode, drawToken, emptied, entered]
      · simp [judgeAll, judgement, decided, same.2]
      · simp [judgedMacs, judgement, decided, blockMacs, leaveAuthenticated_config]

theorem ids_judgeAll (judgement : Client → Judgement) (random : Nat → BitVec 16) (now : Int)
    (drawn : Nat) (nodes : List Node) :
    ((judgeAll judgement (resetNode random now) drawn nodes).map (·.client.id)).Sublist
      (nodes.map (·.client.id)) := by
  induction nodes generalizing drawn with
  | nil => exact .slnil
  | cons node nodes induction =>
      rw [judgeAll]
      cases judgement node.client with
      | keep => exact (induction drawn).cons_cons _
      | delete => exact (induction drawn).cons _
      | block => exact (induction drawn).cons _
      | reset => exact (induction (drawn + 2)).cons_cons _

theorem nodup_ids_refreshVisit (fits : gateway.config.ProductsFit)
    (nodes : gateway.clients.nodes = before ++ node :: ahead)
    (ids : gateway.clients.ids.Nodup) : (gateway.refreshVisit node).clients.ids.Nodup := by
  refine List.Nodup.sublist ?_ ids
  have one := ids_judgeAll (judge gateway.config gateway.marks gateway.clock) gateway.random
    gateway.clock gateway.drawn [node]
  rw [ClientList.ids, ClientList.ids, (refreshVisit_split fits nodes ids).1, nodes]
  simp only [List.map_append, List.map_cons, List.append_assoc]
  exact (one.append (.refl _)).append_left _

/-! ## The loop -/

end

/-- `next` of the element at an address. -/
def nextAddress (list : ClientList) (address : Nat) : Option Nat :=
  match list.nodes.dropWhile fun node => decide (node.address ≠ address) with
  | [] => none
  | _ :: after => after.head?.map Node.address

/-- The loop of `fw_refresh_client_list` as it follows the links, with `cp1` at
the address `cursor`: nothing if it reads an element that is not on the list, or
if `fuel` rounds are not enough. -/
def refreshLoop : Nat → Gateway → Option Nat → Option Gateway
  | _, gateway, none => some gateway
  | 0, _, some _ => none
  | fuel + 1, gateway, some cursor =>
      match gateway.clients.nodes.find? fun node => decide (node.address = cursor) with
      | none => none
      | some node =>
          let cp2 := nextAddress gateway.clients cursor
          match gateway.clients.findById node.client.id with
          | none => refreshLoop fuel gateway cp2
          | some found => refreshLoop fuel (gateway.refreshClient found) cp2

section

variable {gateway : Gateway} {before ahead : List Node} {node : Node}

theorem nextAddress_split (nodes : gateway.clients.nodes = before ++ node :: ahead) :
    nextAddress gateway.clients node.address = ahead.head?.map Node.address := by
  have distinct := gateway.clients.distinct
  rw [nodes, List.map_append, List.nodup_append] at distinct
  have skipped : ∀ other ∈ before, decide (other.address ≠ node.address) = true := by
    intro other member
    have different := distinct.2.2 _ (List.mem_map_of_mem member) _ List.mem_cons_self
    simpa using different
  rw [nextAddress, nodes, List.dropWhile_append_of_pos skipped]
  simp

theorem refreshLoop_split (nodes : gateway.clients.nodes = before ++ node :: ahead)
    (ids : gateway.clients.ids.Nodup) (fuel : Nat) :
    refreshLoop (fuel + 1) gateway (some node.address) =
      refreshLoop fuel (gateway.refreshVisit node) (ahead.head?.map Node.address) := by
  have member : node ∈ gateway.clients.nodes := by
    rw [nodes]
    exact List.mem_append_right _ List.mem_cons_self
  have found := KeyedList.find?_key Node.address gateway.clients.distinct member
  simp only [refreshLoop, found, nextAddress_split nodes, refreshVisit, findById_split nodes ids]

theorem refreshLoop_judged (fits : gateway.config.ProductsFit)
    (nodes : gateway.clients.nodes = before ++ ahead) (ids : gateway.clients.ids.Nodup) :
    let judgement := judge gateway.config gateway.marks gateway.clock
    let final := ahead.foldl refreshVisit gateway
    refreshLoop ahead.length gateway (ahead.head?.map Node.address) = some final ∧
      final.clients.nodes =
        before ++ judgeAll judgement (resetNode gateway.random gateway.clock) gateway.drawn ahead ∧
      final.config = blockMacs gateway.config (judgedMacs judgement ahead) := by
  induction ahead generalizing gateway before with
  | nil => exact ⟨rfl, nodes, rfl⟩
  | cons node ahead induction =>
      intro judgement final
      rcases refreshVisit_split fits nodes ids with ⟨visited, cons, config, same⟩
      have settings := judge_blockMacs gateway.config (judgedMacs judgement [node])
      have nextIds := nodup_ids_refreshVisit fits nodes ids
      rcases induction (config ▸ settings.2 fits) visited nextIds with ⟨loop, rest, blocked⟩
      rw [config, settings.1, same.marks, same.clock, same.random] at rest
      rw [config, settings.1, same.marks, same.clock] at blocked
      refine ⟨?_, ?_, ?_⟩
      · rw [List.length_cons, List.head?_cons, Option.map_some, refreshLoop_split nodes ids]
        exact loop
      · rw [cons, ← List.append_assoc]
        exact rest
      · have more : judgedMacs judgement (node :: ahead) =
            judgedMacs judgement [node] ++ judgedMacs judgement ahead := by
          rw [judgedMacs, judgedMacs, judgedMacs, ← List.map_append, ← List.filter_append,
            List.singleton_append]
        rw [more, blockMacs, List.foldl_append]
        exact blocked

end

/-! ## The pass -/

theorem readCounter_ids (column : Rule → String) (raise : Nat → Counters → Counters)
    (gateway : Gateway) (entry : Entry) :
    (readCounter column raise gateway entry).clients.ids = gateway.clients.ids := by
  simp only [readCounter]
  split
  · rfl
  · split
    · rfl
    · exact ClientList.ids_modify _ _ fun _ => rfl

theorem iptablesFwCountersUpdate_ids (outgoingRead incomingRead : Bool) (gateway : Gateway) :
    (iptablesFwCountersUpdate outgoingRead incomingRead gateway).2.clients.ids =
      gateway.clients.ids := by
  have loop (column : Rule → String) (raise : Nat → Counters → Counters) (entries : List Entry)
      (gateway : Gateway) :
      (entries.foldl (readCounter column raise) gateway).clients.ids = gateway.clients.ids :=
    @foldl_keeps _ _ (fun gateway => gateway.clients.ids) _ (readCounter_ids column raise) entries
      gateway
  simp only [iptablesFwCountersUpdate]
  split
  · rfl
  · split
    · exact loop _ _ _ _
    · exact (loop _ _ _ _).trans (loop _ _ _ _)

end Gateway

theorem judge_resetNode (config : Config) (marks : AcceptedMarks) (random : Nat → BitVec 16)
    (now : Int) (drawn : Nat) (node : Node) :
    judge config marks now (resetNode random now drawn node).client = .keep := by
  have different := Gateway.preauthenticated_ne_authenticated marks
  have ended : (resetNode random now drawn node).client.sessionEnd = 0 := rfl
  have counted : (resetNode random now drawn node).client.counters = ⟨0, 0, now⟩ := rfl
  have state : (resetNode random now drawn node).client.fwConnectionState =
      preauthenticatedState := rfl
  generalize (resetNode random now drawn node).client = client at ended counted state
  simp only [judge, ended, counted, state]
  rw [if_neg (by omega), if_neg (by omega), if_neg (by omega)]
  exact if_neg fun due => different due.1

theorem judge_of_mem_judgeAll {config : Config} {marks : AcceptedMarks}
    {random : Nat → BitVec 16} {now : Int} {nodes : List Node} {drawn : Nat} {node : Node}
    (member : node ∈ judgeAll (judge config marks now) (resetNode random now) drawn nodes) :
    judge config marks now node.client = .keep := by
  induction nodes generalizing drawn with
  | nil => cases member
  | cons head nodes induction =>
      rw [judgeAll] at member
      cases decided : judge config marks now head.client with
      | keep =>
          rw [decided] at member
          rcases List.mem_cons.mp member with rfl | rest
          · exact decided
          · exact induction rest
      | delete =>
          rw [decided] at member
          exact induction member
      | block =>
          rw [decided] at member
          exact induction member
      | reset =>
          rw [decided] at member
          rcases List.mem_cons.mp member with rfl | rest
          · exact judge_resetNode config marks random now drawn head
          · exact induction rest

end Nodogsplash
