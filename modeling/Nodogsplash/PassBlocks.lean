import Nodogsplash.MacRules
import Nodogsplash.RefreshPass

/-! # Whom a pass blocks

A pass that ends a session with a block puts the MAC address on the blocked list and its
rule into `ndsBLK`, or drops the client without either: `auth_change_state` does not look
at what `auth_client_block` returns. -/

namespace Nodogsplash

/-! ## Blocks -/

/-- The MAC address is on the blocked list, this list is in force, and `ndsBLK` marks the
packets from the address. -/
structure Gateway.Blocks (gateway : Gateway) (mac : String) : Prop where
  mechanism : gateway.config.macmechanism = .block
  valid : checkMacFormat mac = true
  listed : ∃ entry ∈ gateway.config.blockedmaclist, SameAddress entry mac
  marked : blockRule gateway.firewall.markop gateway.marks.toMarks mac ∈
    gateway.firewall.tables.rules .mangle .blocked

/-- The MAC addresses that a pass adds to the blocked list, each with the number of the
command that appends its rule; `issued` commands have been run before. The end of a
session takes three commands to begin with. -/
def blockCommands (judgement : Client → Judgement) :
    Config → Nat → List Node → List (String × Nat)
  | _, _, [] => []
  | config, issued, node :: rest =>
      match judgement node.client with
      | .keep => blockCommands judgement config issued rest
      | .delete => blockCommands judgement config issued rest
      | .reset => blockCommands judgement config (issued + 3) rest
      | .block =>
          let added := config.addToBlockedMacList node.client.mac
          if added.1 = 0 then
            (node.client.mac, issued + 3) :: blockCommands judgement added.2 (issued + 4) rest
          else blockCommands judgement added.2 (issued + 3) rest

namespace Gateway

/-- iptables carries out the command with this number, which appends the rule of the MAC
address to `ndsBLK`. -/
def CarriesOut (gateway : Gateway) (command : String × Nat) : Prop :=
  Firewall.Accepts { gateway.firewall with issued := command.2 }
    (.append .mangle .blocked
      (blockRule gateway.firewall.markop gateway.marks.toMarks command.1))

/-- The rule of the address is in `ndsBLK` already, or gets there in the pass. -/
structure TakesBlock (gateway : Gateway) (judgement : Client → Judgement) (mac : String) :
    Prop where
  mechanism : gateway.config.macmechanism = .block
  valid : checkMacFormat mac = true
  marked : blockRule gateway.firewall.markop gateway.marks.toMarks mac ∈
      gateway.firewall.tables.rules .mangle .blocked ∨
    ∃ command ∈ blockCommands judgement gateway.config gateway.firewall.issued
      gateway.clients.nodes, SameAddress command.1 mac ∧ gateway.CarriesOut command

theorem carriesOut_iff (gateway : Gateway) (command : String × Nat) :
    gateway.CarriesOut command ↔ gateway.firewall.kernel.exitCode command.2 = 0 ∧
      (gateway.firewall.tables.chain .mangle .blocked).isSome = true ∧
      gateway.firewall.kernel.supports
        (blockRule gateway.firewall.markop gateway.marks.toMarks command.1) = true := by
  rw [CarriesOut, Firewall.Accepts]
  refine and_congr_right fun _ => ?_
  simp only [Tables.apply]
  cases gateway.firewall.tables.chain .mangle .blocked with
  | none => simp
  | some entries =>
      cases gateway.firewall.kernel.supports
        (blockRule gateway.firewall.markop gateway.marks.toMarks command.1) <;>
        simp [Tables.hasTarget, blockRule]

/-! ## What is done to ndsBLK -/

/-- `ndsBLK` has got the rules of these commands, as far as they have been carried out. -/
structure Appends (gateway next : Gateway) (commands : List (String × Nat)) : Prop where
  kernel : next.firewall.kernel = gateway.firewall.kernel
  markop : next.firewall.markop = gateway.firewall.markop
  marks : next.marks = gateway.marks
  present : (next.firewall.tables.chain .mangle .blocked).isSome =
    (gateway.firewall.tables.chain .mangle .blocked).isSome
  rules : ∀ rule, rule ∈ next.firewall.tables.rules .mangle .blocked ↔
    rule ∈ gateway.firewall.tables.rules .mangle .blocked ∨
      ∃ command ∈ commands, gateway.CarriesOut command ∧
        rule = blockRule gateway.firewall.markop gateway.marks.toMarks command.1

namespace Appends

theorem of_same {gateway next : Gateway} (firewall : next.firewall = gateway.firewall)
    (marks : next.marks = gateway.marks) : gateway.Appends next [] := by
  constructor
  · rw [firewall]
  · rw [firewall]
  · exact marks
  · rw [firewall]
  · intro rule
    simp [firewall]

theorem carriesOut {gateway next : Gateway} {commands : List (String × Nat)}
    (appends : gateway.Appends next commands) (command : String × Nat) :
    next.CarriesOut command ↔ gateway.CarriesOut command := by
  rw [carriesOut_iff, carriesOut_iff, appends.kernel, appends.markop, appends.marks,
    appends.present]

theorem trans {first second third : Gateway} {commands others : List (String × Nat)}
    (left : first.Appends second commands) (right : second.Appends third others) :
    first.Appends third (commands ++ others) := by
  refine ⟨right.kernel.trans left.kernel, right.markop.trans left.markop,
    right.marks.trans left.marks, right.present.trans left.present, ?_⟩
  intro rule
  rw [right.rules, left.rules, or_assoc]
  simp only [List.mem_append, or_and_right, exists_or, left.carriesOut, left.markop, left.marks]

end Appends

theorem issued_iptablesFwDeauthenticate (gateway : Gateway) (client : Client) :
    (gateway.iptablesFwDeauthenticate client).2.firewall.issued = gateway.firewall.issued + 3 := by
  rw [iptablesFwDeauthenticate_firewall, iptablesDoCommands_issued]
  rfl

theorem appends_iptablesFwDeauthenticate (gateway : Gateway) (client : Client) :
    gateway.Appends (gateway.iptablesFwDeauthenticate client).2 [] := by
  have follows := iptablesFwDeauthenticate_follows gateway client
  have rules := rules_iptablesFwDeauthenticate_of_mac gateway client .blocked (by decide)
  refine ⟨follows.kernel, follows.markop, rfl, ?_, ?_⟩
  · rw [iptablesFwDeauthenticate_firewall, chain_iptablesDoCommands_of_ne]
    simp [incomingRules, Command.place]
  · intro rule
    simp [rules]

theorem isSome_append (firewall : Firewall) (rule : Rule) :
    ((iptablesDoCommand firewall (.append .mangle .blocked rule)).2.tables.chain
        .mangle .blocked).isSome = (firewall.tables.chain .mangle .blocked).isSome := by
  rcases iptablesDoCommand_cases firewall (.append .mangle .blocked rule) with
    ⟨tables, applied, _⟩ | ⟨_, equal⟩
  · cases found : firewall.tables.chain .mangle .blocked with
    | none =>
        rw [Tables.apply, found] at applied
        cases applied
    | some entries =>
        have present : (firewall.tables.chain .mangle .blocked).isSome = true := by rw [found]; rfl
        rw [isSome_iptablesDoCommand (by simp) present]
        rfl
  · rw [equal]

theorem appends_iptablesBlockMac (gateway : Gateway) (mac : String) :
    gateway.Appends
      { gateway with
        firewall := (iptablesBlockMac gateway.firewall gateway.marks.toMarks mac).2 }
      [(mac, gateway.firewall.issued)] := by
  let rule := blockRule gateway.firewall.markop gateway.marks.toMarks mac
  let command : Command := .append .mangle .blocked rule
  have done : gateway.CarriesOut (mac, gateway.firewall.issued) ↔
      (iptablesDoCommand gateway.firewall command).1 = 0 :=
    (iptablesDoCommand_eq_zero_iff gateway.firewall command).symm
  refine ⟨by simp [iptablesBlockMac], by simp [iptablesBlockMac], rfl,
    isSome_append gateway.firewall rule, ?_⟩
  intro other
  simp only [List.mem_singleton, exists_eq_left, done]
  by_cases succeeded : (iptablesDoCommand gateway.firewall command).1 = 0
  · have rules := rules_iptablesDoCommand succeeded .mangle .blocked
    have changed : (iptablesBlockMac gateway.firewall gateway.marks.toMarks mac).2.tables.rules
        .mangle .blocked = gateway.firewall.tables.rules .mangle .blocked ++ [rule] := by
      rw [iptablesBlockMac, rules]
      simp [command, Command.effect, Command.place]
    rw [changed, List.mem_append, List.mem_singleton, and_iff_right succeeded]
  · rcases iptablesDoCommand_cases gateway.firewall command with ⟨_, _, equal⟩ | ⟨_, equal⟩
    · rw [equal] at succeeded
      exact absurd rfl succeeded
    · have kept : (iptablesBlockMac gateway.firewall gateway.marks.toMarks mac).2.tables =
          gateway.firewall.tables := by
        rw [iptablesBlockMac, equal]
      rw [kept, or_iff_left fun taken => succeeded taken.1]

/-- The end of a session with a block: the command follows if the list has been edited. -/
theorem appends_leaveBlocked (gateway : Gateway) (node : Node) (reason : Option String) :
    let added := gateway.config.addToBlockedMacList node.client.mac
    let next := gateway.leaveBlocked node reason
    gateway.Appends next
        (if added.1 = 0 then [(node.client.mac, gateway.firewall.issued + 3)] else []) ∧
      next.firewall.issued = gateway.firewall.issued + if added.1 = 0 then 4 else 3 := by
  intro added next
  have firewall := leaveBlocked_firewall gateway node reason
  have marks := leaveBlocked_marks gateway node reason
  have issued := issued_iptablesFwDeauthenticate gateway node.client
  have ended := appends_iptablesFwDeauthenticate gateway node.client
  simp only [authClientBlock, editMacList] at firewall
  by_cases edited : added.1 = 0
  · have ran : next.firewall = (iptablesBlockMac (gateway.iptablesFwDeauthenticate
        node.client).2.firewall gateway.marks.toMarks node.client.mac).2 :=
      firewall.trans (congrArg Prod.snd (if_pos edited))
    have blocked := appends_iptablesBlockMac (gateway.iptablesFwDeauthenticate node.client).2
      node.client.mac
    rw [issued] at blocked
    rw [if_pos edited, if_pos edited]
    refine ⟨(ended.trans blocked).trans (.of_same ran marks), ?_⟩
    rw [ran, iptablesBlockMac, iptablesDoCommand_issued, issued]
  · have refused : ¬ ((gateway.iptablesFwDeauthenticate node.client).2.config.addToBlockedMacList
        node.client.mac).1 = 0 := edited
    rw [if_neg refused] at firewall
    rw [if_neg edited, if_neg edited]
    exact ⟨ended.trans (.of_same firewall marks), by rw [firewall, issued]⟩

/-! ## What a pass does -/

section

variable {gateway : Gateway} {before ahead : List Node} {node : Node}

theorem appends_refreshVisit (fits : gateway.config.ProductsFit)
    (nodes : gateway.clients.nodes = before ++ node :: ahead)
    (ids : gateway.clients.ids.Nodup) :
    let next := gateway.refreshVisit node
    let commands :=
      blockCommands (judge gateway.config gateway.marks gateway.clock) gateway.config
        gateway.firewall.issued
    gateway.Appends next (commands [node]) ∧
      ∀ rest, commands (node :: rest) = commands [node] ++
        blockCommands (judge gateway.config gateway.marks gateway.clock) next.config
          next.firewall.issued rest := by
  intro next commands
  have visited : next = gateway.refreshClient node := by
    simp only [next, refreshVisit, findById_split nodes ids]
  rcases refreshClient_judged fits node with ⟨reason, judged⟩
  rw [visited, judged]
  cases decided : judge gateway.config gateway.marks gateway.clock node.client with
  | keep =>
      simp only [commands, blockCommands, decided, List.nil_append, implies_true, and_true]
      exact .of_same rfl rfl
  | delete =>
      simp only [commands, blockCommands, decided, List.nil_append, clientListDelete,
        implies_true, and_true]
      exact .of_same rfl rfl
  | block =>
      rcases appends_leaveBlocked gateway node reason with ⟨appends, issued⟩
      simp only [commands, blockCommands, decided, leaveBlocked_config]
      by_cases edited : (gateway.config.addToBlockedMacList node.client.mac).1 = 0
      · simp only [edited, if_true, List.cons_append, List.nil_append] at appends issued ⊢
        exact ⟨appends, fun rest => by rw [issued]⟩
      · simp only [edited, if_false, List.nil_append] at appends issued ⊢
        exact ⟨appends, fun rest => by rw [issued]⟩
  | reset =>
      have firewall := leaveAuthenticated_firewall gateway node reason
      have issued := issued_iptablesFwDeauthenticate gateway node.client
      have ended := appends_iptablesFwDeauthenticate gateway node.client
      have marks := leaveAuthenticated_marks gateway node reason
      simp only [commands, blockCommands, decided, List.nil_append, firewall, issued,
        leaveAuthenticated_config, implies_true, and_true]
      exact ended.trans (.of_same firewall marks)

theorem appends_visits (fits : gateway.config.ProductsFit)
    (nodes : gateway.clients.nodes = before ++ ahead) (ids : gateway.clients.ids.Nodup) :
    gateway.Appends (ahead.foldl refreshVisit gateway)
      (blockCommands (judge gateway.config gateway.marks gateway.clock) gateway.config
        gateway.firewall.issued ahead) := by
  induction ahead generalizing gateway before with
  | nil => exact .of_same rfl rfl
  | cons node ahead induction =>
      rcases refreshVisit_split fits nodes ids with ⟨visited, _, config, same⟩
      rcases appends_refreshVisit fits nodes ids with ⟨first, commands⟩
      have settings := judge_blockMacs gateway.config
        (judgedMacs (judge gateway.config gateway.marks gateway.clock) [node])
      rw [← config] at settings
      have rest := induction (settings.2 fits) visited (nodup_ids_refreshVisit fits nodes ids)
      rw [settings.1, same.marks, same.clock] at rest
      rw [commands]
      exact first.trans rest

end

end Gateway

/-! ## The blocked list -/

theorem macmechanism_blockMacs (config : Config) (macs : List String) :
    (Gateway.blockMacs config macs).macmechanism = config.macmechanism := by
  induction macs generalizing config with
  | nil => rfl
  | cons mac macs induction => exact induction (config.addToBlockedMacList mac).2

theorem mem_blockMacs {config : Config} {macs : List String} {entry : String}
    (member : entry ∈ (Gateway.blockMacs config macs).blockedmaclist) :
    entry ∈ config.blockedmaclist ∨ ∃ mac ∈ macs, entry = scanMac mac := by
  induction macs generalizing config with
  | nil => exact .inl member
  | cons mac macs induction =>
      rcases induction member with earlier | ⟨other, inMacs, equal⟩
      · rcases addToMacList_cases (-1) (by decide) (config.macmechanism = .block)
          config.blockedmaclist mac with ⟨equal, _⟩ | ⟨_, equal⟩
        · simp only [Config.addToBlockedMacList, equal] at earlier
          rcases List.mem_cons.mp earlier with rfl | old
          · exact .inr ⟨mac, List.mem_cons_self, rfl⟩
          · exact .inl old
        · simp only [Config.addToBlockedMacList, equal] at earlier
          exact .inl earlier
      · exact .inr ⟨other, List.mem_cons_of_mem _ inMacs, equal⟩

theorem mem_blockMacs_of_mem {config : Config} {entry : String}
    (member : entry ∈ config.blockedmaclist) (macs : List String) :
    entry ∈ (Gateway.blockMacs config macs).blockedmaclist := by
  induction macs generalizing config with
  | nil => exact member
  | cons mac macs induction => exact induction (Gateway.mem_addToBlockedMacList mac member)

theorem listed_addToBlockedMacList {config : Config} {mac : String}
    (mechanism : config.macmechanism = .block) (valid : checkMacFormat mac = true) :
    ∃ entry ∈ (config.addToBlockedMacList mac).2.blockedmaclist, SameAddress entry mac := by
  cases present : config.blockedmaclist.any (sameIgnoringCase · (scanMac mac)) with
  | true =>
      rcases List.any_eq_true.mp present with ⟨entry, inList, same⟩
      have address : SameAddress entry (scanMac mac) := .of_sameIgnoringCase same
      exact ⟨entry, Gateway.mem_addToBlockedMacList mac inList,
        address.trans (sameAddress_scanMac valid)⟩
  | false =>
      refine ⟨scanMac mac, ?_, sameAddress_scanMac valid⟩
      simp [Config.addToBlockedMacList, addToMacList, valid, mechanism, present]

theorem listed_blockMacs {config : Config} {macs : List String} {mac : String}
    (mechanism : config.macmechanism = .block) (member : mac ∈ macs)
    (valid : checkMacFormat mac = true) :
    ∃ entry ∈ (Gateway.blockMacs config macs).blockedmaclist, SameAddress entry mac := by
  induction macs generalizing config with
  | nil => cases member
  | cons first macs induction =>
      rcases List.mem_cons.mp member with rfl | later
      · rcases listed_addToBlockedMacList mechanism valid with ⟨entry, inList, same⟩
        exact ⟨entry, mem_blockMacs_of_mem inList macs, same⟩
      · exact induction mechanism later

theorem mem_judgedMacs {judgement : Client → Judgement} {nodes : List Node} {mac : String} :
    mac ∈ judgedMacs judgement nodes ↔
      ∃ node ∈ nodes, judgement node.client = .block ∧ node.client.mac = mac := by
  simp [judgedMacs, and_assoc]

theorem mem_blockCommands {judgement : Client → Judgement} {config : Config} {issued : Nat}
    {nodes : List Node} {command : String × Nat}
    (member : command ∈ blockCommands judgement config issued nodes) :
    ∃ node ∈ nodes, judgement node.client = .block ∧ node.client.mac = command.1 := by
  induction nodes generalizing config issued with
  | nil => cases member
  | cons node nodes induction =>
      have later {config : Config} {issued : Nat}
          (inRest : command ∈ blockCommands judgement config issued nodes) :
          ∃ other ∈ node :: nodes, judgement other.client = .block ∧
            other.client.mac = command.1 := by
        rcases induction inRest with ⟨other, inNodes, blocked⟩
        exact ⟨other, List.mem_cons_of_mem _ inNodes, blocked⟩
      rw [blockCommands] at member
      cases decided : judgement node.client with
      | keep | delete | reset =>
          rw [decided] at member
          exact later member
      | block =>
          rw [decided] at member
          simp only at member
          split at member
          · rcases List.mem_cons.mp member with rfl | inRest
            · exact ⟨node, List.mem_cons_self, decided, rfl⟩
            · exact later inRest
          · exact later member

/-! ## The pass -/

/-- What a pass is to make of a list: every client is judged once, in order and by its own
fields; those that are to be blocked are gone and blocked, and nobody else is blocked; no
client that is left is due. -/
structure Gateway.JudgesClients (counted final : Gateway) : Prop where
  ends : Gateway.refreshLoop counted.clients.nodes.length counted
    (counted.clients.nodes.head?.map Node.address) = some final
  clients : final.clients.nodes =
    judgeAll (judge counted.config counted.marks counted.clock)
      (resetNode counted.random counted.clock) counted.drawn counted.clients.nodes
  blocks : ∀ node ∈ counted.clients.nodes,
    judge counted.config counted.marks counted.clock node.client = .block →
      final.Blocks node.client.mac
  spares : ∀ entry ∈ final.config.blockedmaclist, entry ∈ counted.config.blockedmaclist ∨
    ∃ node ∈ counted.clients.nodes,
      judge counted.config counted.marks counted.clock node.client = .block ∧
        entry = scanMac node.client.mac
  sparesRules : ∀ rule ∈ final.firewall.tables.rules .mangle .blocked,
    rule ∈ counted.firewall.tables.rules .mangle .blocked ∨
      ∃ node ∈ counted.clients.nodes,
        judge counted.config counted.marks counted.clock node.client = .block ∧
          rule = blockRule counted.firewall.markop counted.marks.toMarks node.client.mac
  settled : ∀ node ∈ final.clients.nodes,
    judge counted.config counted.marks counted.clock node.client = .keep

theorem blockRule_iff (markop : MarkOp) (marks : Marks) (left right : String) :
    blockRule markop marks left = blockRule markop marks right ↔ SameAddress left right := by
  simp [blockRule, SameAddress]

/-- A pass over clients with distinct ids reads no deleted element, ends, and judges each
client as it is to, exactly if every block takes effect. -/
theorem refresh_pass_judges_each_client_iff {gateway : Gateway}
    {outgoingRead incomingRead : Bool}
    (ids : (gateway.clients.nodes.map (·.client.id)).Nodup)
    (fits : gateway.config.ProductsFit)
    (updated : (Gateway.iptablesFwCountersUpdate outgoingRead incomingRead gateway).1 = true) :
    let counted := (Gateway.iptablesFwCountersUpdate outgoingRead incomingRead gateway).2
    let judgement := judge counted.config counted.marks counted.clock
    counted.JudgesClients (Gateway.fwRefreshClientList outgoingRead incomingRead gateway) ↔
      ∀ node ∈ counted.clients.nodes, judgement node.client = .block →
        counted.TakesBlock judgement node.client.mac := by
  intro counted judgement
  have config : counted.config = gateway.config :=
    Gateway.iptablesFwCountersUpdate_keeps Gateway.config (fun _ _ => rfl) outgoingRead
      incomingRead gateway
  have distinct : counted.clients.ids.Nodup := by
    rw [Gateway.iptablesFwCountersUpdate_ids]
    exact ids
  rw [← config] at fits
  have passed : Gateway.fwRefreshClientList outgoingRead incomingRead gateway =
      counted.clients.nodes.foldl Gateway.refreshVisit counted := by
    simp only [Gateway.fwRefreshClientList_eq, updated, if_true]
    rfl
  rw [passed]
  have whole : counted.clients.nodes = [] ++ counted.clients.nodes := rfl
  rcases Gateway.refreshLoop_judged fits whole distinct with ⟨loop, nodes, blocked⟩
  have appends := Gateway.appends_visits fits whole distinct
  generalize counted.clients.nodes.foldl Gateway.refreshVisit counted = final at *
  rw [List.nil_append] at nodes
  have mechanism : final.config.macmechanism = counted.config.macmechanism := by
    rw [blocked, macmechanism_blockMacs]
  have marked (mac : String) :
      blockRule final.firewall.markop final.marks.toMarks mac ∈
          final.firewall.tables.rules .mangle .blocked ↔
        blockRule counted.firewall.markop counted.marks.toMarks mac ∈
            counted.firewall.tables.rules .mangle .blocked ∨
          ∃ command ∈ blockCommands judgement counted.config counted.firewall.issued
            counted.clients.nodes, SameAddress command.1 mac ∧ counted.CarriesOut command := by
    rw [appends.rules, appends.markop, appends.marks]
    refine or_congr_right (exists_congr fun command => and_congr_right fun _ => ?_)
    rw [blockRule_iff, and_comm, SameAddress, SameAddress, eq_comm]
  constructor
  · intro judges node member block
    have blocks := judges.blocks node member block
    exact ⟨mechanism ▸ blocks.mechanism, blocks.valid, (marked node.client.mac).mp blocks.marked⟩
  · intro takes
    refine ⟨loop, nodes, ?_, ?_, ?_, ?_⟩
    · intro node member block
      have effect := takes node member block
      refine ⟨mechanism.trans effect.mechanism, effect.valid, ?_, (marked _).mpr effect.marked⟩
      rw [blocked]
      exact listed_blockMacs effect.mechanism (mem_judgedMacs.mpr ⟨node, member, block, rfl⟩)
        effect.valid
    · intro entry listed
      rw [blocked] at listed
      rcases mem_blockMacs listed with before | ⟨mac, judged, equal⟩
      · exact .inl before
      · rcases mem_judgedMacs.mp judged with ⟨node, member, block, rfl⟩
        exact .inr ⟨node, member, block, equal⟩
    · intro rule inChain
      rcases (appends.rules rule).mp inChain with before | ⟨command, inCommands, _, equal⟩
      · exact .inl before
      · rcases mem_blockCommands inCommands with ⟨node, member, block, mac⟩
        exact .inr ⟨node, member, block, mac ▸ equal⟩
    · intro node member
      rw [nodes] at member
      exact judge_of_mem_judgeAll member

/-- Four clients: the session of the first one ends after an hour, the second one is
authenticated and idle, the third one is idle, the last one has just come. -/
def fourEvents : List (Int × Event) :=
  [(1000, .request (defaultRequest "/" fun _ => none)),
    (1000, .request (tokenRequest ⟨.exited 0, ""⟩)),
    (1010, .request (requestFrom "192.168.42.11" "00:16:3e:00:00:02")),
    (1020, .ndsctl true true (.auth "192.168.42.11")),
    (1030, .request (requestFrom "192.168.42.12" "00:16:3e:00:00:03")),
    (9990, .request (requestFrom "192.168.42.13" "00:16:3e:00:00:04"))]

def fourClients : Gateway :=
  { fourEvents.foldl Gateway.step blockingGateway with clock := 10000 }

theorem fourClients_judged :
    let counted := (Gateway.iptablesFwCountersUpdate true true fourClients).2
    let judgement := judge counted.config counted.marks counted.clock
    ((fourClients.clients.nodes.map (·.client.id)).Nodup ∧
      (Gateway.iptablesFwCountersUpdate true true fourClients).1 = true ∧
      fourClients.config.preauthIdleTimeout = 10 ∧ fourClients.config.authIdleTimeout = 120 ∧
      fourClients.config.sessionLimitBlock = 0) ∧
    (counted.clients.nodes.map fun node => judgement node.client) =
      [.block, .reset, .delete, .keep] ∧
    (∀ node ∈ counted.clients.nodes, judgement node.client = .block →
      node.client.mac = "00:16:3e:00:00:01") ∧
    blockCommands judgement counted.config counted.firewall.issued counted.clients.nodes =
      [("00:16:3e:00:00:01", counted.firewall.issued + 3)] ∧
    counted.config.macmechanism = .block ∧
    (counted.firewall.tables.chain .mangle .blocked).isSome = true ∧
    counted.firewall.kernel.supports (blockRule counted.firewall.markop
      counted.marks.toMarks "00:16:3e:00:00:01") = true := by
  decide +kernel

theorem Config.ProductsFit.of_defaults {config : Config} (preauthIdle : config.preauthIdleTimeout = 10)
    (authIdle : config.authIdleTimeout = 120) (limit : config.sessionLimitBlock = 0) :
    config.ProductsFit := by
  constructor
  · rw [preauthIdle]
    rfl
  · rw [authIdle]
    rfl
  · rw [limit]
    rfl

theorem refresh_pass_judges_each_client_iff_four :
    let counted := (Gateway.iptablesFwCountersUpdate true true fourClients).2
    (counted.clients.nodes.map fun node =>
        judge counted.config counted.marks counted.clock node.client) =
      [.block, .reset, .delete, .keep] ∧
    counted.JudgesClients (Gateway.fwRefreshClientList true true fourClients) := by
  intro counted
  rcases fourClients_judged with ⟨⟨ids, updated, preauthIdle, authIdle, limit⟩, judged, first,
    commands, mechanism, present, supported⟩
  have fits := Config.ProductsFit.of_defaults preauthIdle authIdle limit
  refine ⟨judged, (refresh_pass_judges_each_client_iff ids fits updated).mpr ?_⟩
  intro node member block
  rw [first node member block]
  refine ⟨mechanism, by decide, .inr ⟨("00:16:3e:00:00:01", counted.firewall.issued + 3),
    ?_, rfl, (Gateway.carriesOut_iff _ _).mpr ⟨rfl, present, supported⟩⟩⟩
  rw [commands]
  exact List.mem_cons_self

def allowingSessions : Environment :=
  { blockingEnvironment with config.macmechanism := .allow }

theorem initialGateway_allowingSessions :
    (initialGateway allowingSessions).isSome = true := by
  decide +kernel

def allowingClients : Gateway :=
  { fourEvents.foldl Gateway.step
      ((initialGateway allowingSessions).get initialGateway_allowingSessions) with
    clock := 10000 }

/-- Where the mechanism allows MAC addresses, the client whose session ends is gone, and
not blocked. -/
theorem refresh_pass_does_not_block :
    let counted := (Gateway.iptablesFwCountersUpdate true true allowingClients).2
    let final := Gateway.fwRefreshClientList true true allowingClients
    (allowingClients.clients.nodes.map (·.client.id)).Nodup ∧
      allowingClients.config.ProductsFit ∧
      (Gateway.iptablesFwCountersUpdate true true allowingClients).1 = true ∧
      final.clients.nodes.map (·.client.mac) = ["00:16:3e:00:00:02", "00:16:3e:00:00:04"] ∧
      final.config.blockedmaclist = [] ∧ ¬ counted.JudgesClients final := by
  intro counted final
  have evaluated : ((allowingClients.clients.nodes.map (·.client.id)).Nodup ∧
      (Gateway.iptablesFwCountersUpdate true true allowingClients).1 = true ∧
      allowingClients.config.preauthIdleTimeout = 10 ∧
      allowingClients.config.authIdleTimeout = 120 ∧
      allowingClients.config.sessionLimitBlock = 0) ∧
      final.clients.nodes.map (·.client.mac) = ["00:16:3e:00:00:02", "00:16:3e:00:00:04"] ∧
      final.config.blockedmaclist = [] ∧
      ∃ node ∈ counted.clients.nodes,
        judge counted.config counted.marks counted.clock node.client = .block := by
    decide +kernel
  rcases evaluated with ⟨⟨ids, updated, preauthIdle, authIdle, limit⟩, left, listed, node,
    member, block⟩
  have fits := Config.ProductsFit.of_defaults preauthIdle authIdle limit
  refine ⟨ids, fits, updated, left, listed, fun judges => ?_⟩
  rcases (judges.blocks node member block).listed with ⟨entry, inList, _⟩
  rw [listed] at inList
  cases inList

end Nodogsplash
