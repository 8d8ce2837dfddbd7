import Nodogsplash.FilterChains
import Nodogsplash.MacRules

/-! # Packets from blocked addresses

The mark a packet gets in mangle PREROUTING, and what the filter chains do with
the packets of a blocked MAC address. -/

namespace Nodogsplash

open RuleChain

/-! ## Marking -/

theorem MarkOp.apply_apply (op : MarkOp) (value packetMark : BitVec 32) :
    op.apply value (op.apply value packetMark) = op.apply value packetMark := by
  cases op with
  | setMark => rfl
  | orMark => simp only [MarkOp.apply, BitVec.or_assoc, BitVec.or_self]

/-- A chain whose rules all mark with one value, under conditions that do not
look at the mark, marks the packet if one of them holds. -/
theorem evalRules_marking {call : Chain → BitVec 32 → Outcome (BitVec 32) Verdict}
    {packet : Packet} {rules : List Rule} {op : MarkOp} {value : BitVec 32}
    (targets : ∀ rule ∈ rules, rule.target = .mark op value)
    (unseen : ∀ rule ∈ rules, ∀ first second, rule.holds packet first = rule.holds packet second)
    (packetMark : BitVec 32) :
    evalRules (filterSemantics packet) call rules packetMark =
      .finished (if rules.any (fun rule => rule.holds packet 0) then op.apply value packetMark
        else packetMark) := by
  have updates : ∀ rule ∈ rules,
      (filterSemantics packet).action rule = .update (op.apply value) := by
    intro rule member
    simp [filterSemantics, targets rule member, Target.action]
  rw [evalRules_of_same_update updates (op.apply_apply value packetMark)
    fun rule member => unseen rule member _ _]
  have same : rules.any (fun rule => (filterSemantics packet).guard rule packetMark) =
      rules.any (fun rule => rule.holds packet 0) := by
    rw [Bool.eq_iff_iff, List.any_eq_true, List.any_eq_true]
    constructor
    · rintro ⟨rule, member, holds⟩
      exact ⟨rule, member, (unseen rule member 0 packetMark).trans holds⟩
    · rintro ⟨rule, member, holds⟩
      exact ⟨rule, member, (unseen rule member packetMark 0).trans holds⟩
  rw [same]

namespace Gateway

def AuthenticatesSource (gateway : Gateway) (source : EtherAddr) (sourceIn : String → Bool) :
    Prop :=
  ∃ node ∈ gateway.clients.nodes, node.client.fwConnectionState = gateway.marks.authenticated ∧
    sourceIn node.client.ip = true ∧ etherAton node.client.mac = some source

/-- A MAC list contains the ethernet address. -/
def Lists (list : List String) (source : EtherAddr) : Prop :=
  ∃ mac ∈ list, etherAton mac = some source

instance (gateway : Gateway) (source : EtherAddr) (sourceIn : String → Bool) :
    Decidable (gateway.AuthenticatesSource source sourceIn) :=
  inferInstanceAs (Decidable (∃ node ∈ gateway.clients.nodes, _))

instance (list : List String) (source : EtherAddr) : Decidable (Lists list source) :=
  inferInstanceAs (Decidable (∃ mac ∈ list, _))

def markOf (gateway : Gateway) (packet : Packet) : BitVec 32 :=
  let markop := gateway.firewall.markop
  let sent := if gateway.AuthenticatesSource packet.macSource packet.sourceIn then
    markop.apply gateway.marks.authenticated 0 else 0
  let checked := if Lists gateway.config.blockedmaclist packet.macSource then
    markop.apply gateway.marks.blocked sent else sent
  if Lists gateway.config.trustedmaclist packet.macSource then
    markop.apply gateway.marks.trusted checked else checked

theorem evalRules_outgoing {gateway : Gateway} (agree : gateway.RulesAgree) (packet : Packet)
    (call : Chain → BitVec 32 → Outcome (BitVec 32) Verdict) (packetMark : BitVec 32) :
    evalRules (filterSemantics packet) call (gateway.firewall.tables.rules .mangle .outgoing)
        packetMark =
      .finished (if gateway.AuthenticatesSource packet.macSource packet.sourceIn then
        gateway.firewall.markop.apply gateway.marks.authenticated packetMark else packetMark) := by
  have member (rule : Rule) : rule ∈ gateway.firewall.tables.rules .mangle .outgoing ↔
      ∃ node ∈ gateway.clients.nodes,
        node.client.fwConnectionState = gateway.marks.authenticated ∧
          rule = outgoingRule gateway.firewall.markop gateway.marks.toMarks node.client.ip
            node.client.mac := by
    rw [agree.outgoing.mem_iff, List.mem_flatMap]
    constructor
    · rintro ⟨node, inList, contributed⟩
      by_cases state : node.client.fwConnectionState = gateway.marks.authenticated
      · rw [outgoingRulesOf_of_eq state, List.mem_singleton] at contributed
        exact ⟨node, inList, state, contributed⟩
      · rw [outgoingRulesOf_of_ne state] at contributed
        cases contributed
    · rintro ⟨node, inList, state, rfl⟩
      exact ⟨node, inList, by rw [outgoingRulesOf_of_eq state, List.mem_singleton]⟩
  have targets : ∀ rule ∈ gateway.firewall.tables.rules .mangle .outgoing,
      rule.target = .mark gateway.firewall.markop gateway.marks.authenticated := by
    intro rule inRules
    rcases (member rule).mp inRules with ⟨_, _, _, rfl⟩
    rfl
  have unseen : ∀ rule ∈ gateway.firewall.tables.rules .mangle .outgoing,
      ∀ first second, rule.holds packet first = rule.holds packet second := by
    intro rule inRules first second
    rcases (member rule).mp inRules with ⟨_, _, _, rfl⟩
    rfl
  rw [evalRules_marking targets unseen]
  congr 1
  refine if_congr ?_ rfl rfl
  rw [List.any_eq_true]
  constructor
  · rintro ⟨rule, inRules, holds⟩
    rcases (member rule).mp inRules with ⟨node, inList, state, rfl⟩
    simp only [Rule.holds, outgoingRule, List.all_cons, Match.holds, List.all_nil,
      Bool.and_true, Bool.and_eq_true, decide_eq_true_eq] at holds
    exact ⟨node, inList, state, holds⟩
  · rintro ⟨node, inList, state, address, mac⟩
    refine ⟨_, (member _).mpr ⟨node, inList, state, rfl⟩, ?_⟩
    simp [Rule.holds, outgoingRule, Match.holds, address, mac]

theorem evalRules_macs {rules : List Rule} {list : List String} {ruleOf : String → Rule}
    {op : MarkOp} {value : BitVec 32}
    (shape : ∀ mac, ruleOf mac = ⟨[.macSource (etherAton mac)], .mark op value⟩)
    (agree : rules.Perm (list.map ruleOf)) (packet : Packet)
    (call : Chain → BitVec 32 → Outcome (BitVec 32) Verdict) (packetMark : BitVec 32) :
    evalRules (filterSemantics packet) call rules packetMark =
      .finished (if Lists list packet.macSource then op.apply value packetMark
        else packetMark) := by
  have member (rule : Rule) : rule ∈ rules ↔ ∃ mac ∈ list,
      rule = ⟨[.macSource (etherAton mac)], .mark op value⟩ := by
    rw [agree.mem_iff, List.mem_map]
    simp only [shape, eq_comm]
  have targets : ∀ rule ∈ rules, rule.target = .mark op value := by
    intro rule inRules
    rcases (member rule).mp inRules with ⟨_, _, rfl⟩
    rfl
  have unseen : ∀ rule ∈ rules, ∀ first second,
      rule.holds packet first = rule.holds packet second := by
    intro rule inRules first second
    rcases (member rule).mp inRules with ⟨_, _, rfl⟩
    rfl
  rw [evalRules_marking targets unseen]
  congr 1
  refine if_congr ?_ rfl rfl
  rw [List.any_eq_true]
  constructor
  · rintro ⟨rule, inRules, holds⟩
    rcases (member rule).mp inRules with ⟨mac, inList, rfl⟩
    exact ⟨mac, inList, by simpa [Rule.holds, Match.holds] using holds⟩
  · rintro ⟨mac, inList, equal⟩
    exact ⟨_, (member _).mpr ⟨mac, inList, rfl⟩, by simp [Rule.holds, Match.holds, equal]⟩

theorem markPacket_eq {gateway : Gateway} (inPlace : gateway.ChainsInPlace)
    (clients : gateway.RulesAgree) (macs : gateway.MacRulesAgree)
    (mechanism : gateway.config.macmechanism = .block) {packet : Packet}
    (fromClients : packet.IsFromClients gateway.config) :
    gateway.markPacket packet = .finished (gateway.markOf packet) := by
  have blocked := macs.blocked mechanism
  rw [markPacket, inPlace.prerouting, preroutingJumps]
  rw [evalRules_cons_of_call_finished (fromClients.holds _ _) rfl
    (evalRules_outgoing clients packet _ _)]
  rw [evalRules_cons_of_call_finished (fromClients.holds _ _) rfl
    (evalRules_macs (fun _ => rfl) blocked packet _ _)]
  rw [evalRules_cons_of_call_finished (fromClients.holds _ _) rfl
    (evalRules_macs (fun _ => rfl) macs.trusted packet _ _)]
  rfl

/-! ## Dropping -/

def MatchesBlocked (gateway : Gateway) (packetMark : BitVec 32) : Prop :=
  packetMark &&& gateway.firewall.markmask.getD (BitVec.allOnes 32) = gateway.marks.blocked

/-- The filter chains drop the packet with the mark it has got. -/
def Drops (gateway : Gateway) (packet : Packet) : Prop :=
  ∃ packetMark, gateway.markPacket packet = .finished packetMark ∧
    ∀ chain ∈ [Chain.toInternet, .toRouter],
      gateway.firewall.tables.traverse .filter packet chain packetMark = .decided .drop packetMark

theorem traverse_of_matchesBlocked {gateway : Gateway} (inPlace : gateway.ChainsInPlace)
    {packetMark : BitVec 32} (blocked : gateway.MatchesBlocked packetMark) (packet : Packet) :
    ∀ chain ∈ [Chain.toInternet, .toRouter],
      gateway.firewall.tables.traverse .filter packet chain packetMark =
        .decided .drop packetMark := by
  have guard := (guard_mark_iff packet gateway.marks.blocked gateway.firewall.markmask .drop
    packetMark).mpr blocked
  intro chain member
  simp only [List.mem_cons, List.not_mem_nil, or_false] at member
  rcases member with rfl | rfl
  · rw [Tables.traverse, evalChain, inPlace.toInternet]
    exact evalRules_cons_of_decide guard rfl
  · rw [Tables.traverse, evalChain, inPlace.toRouter]
    exact evalRules_cons_of_decide guard rfl

theorem traverse_toRouter_established {gateway : Gateway} (inPlace : gateway.ChainsInPlace)
    {packetMark : BitVec 32} (open_ : ¬ gateway.MatchesBlocked packetMark) {packet : Packet}
    (established : packet.conntrack = .established) :
    gateway.firewall.tables.traverse .filter packet .toRouter packetMark =
      .decided .accept packetMark := by
  rw [Tables.traverse, evalChain, inPlace.toRouter, toRouterRules]
  simp only [List.cons_append]
  rw [evalRules_cons_of_not_guard, evalRules_cons_of_not_guard, evalRules_cons_of_decide]
  · simp [filterSemantics, Rule.holds, Match.holds, established]
  · rfl
  · simp [filterSemantics, Rule.holds, Match.holds, established]
  · exact Bool.eq_false_iff.mpr fun holds => open_ ((guard_mark_iff _ _ _ _ _).mp holds)

/-- Blocked and untrusted addresses get the mark of blocked packets, unless it
is mixed with that of authenticated ones. -/
theorem matchesBlocked_markOf_iff {gateway : Gateway} (inPlace : gateway.ChainsInPlace)
    {packet : Packet} (blocked : Lists gateway.config.blockedmaclist packet.macSource)
    (untrusted : ¬ Lists gateway.config.trustedmaclist packet.macSource) :
    gateway.MatchesBlocked (gateway.markOf packet) ↔
      gateway.firewall.markop = .setMark ∨
        gateway.marks.authenticated ||| gateway.marks.blocked = gateway.marks.blocked ∨
        ¬ gateway.AuthenticatesSource packet.macSource packet.sourceIn := by
  have within (value : BitVec 32) (bits : value &&& gateway.marks.mask = value) :
      value &&& gateway.firewall.markmask.getD (BitVec.allOnes 32) = value := by
    rcases inPlace.markmask with mask | mask <;> rw [mask]
    · exact BitVec.and_allOnes
    · exact bits
  have plain := within gateway.marks.blocked (by
    rw [Marks.mask]
    ext index
    simp only [BitVec.getElem_and, BitVec.getElem_or]
    cases gateway.marks.blocked[index] <;> rfl)
  have mixed := within (gateway.marks.authenticated ||| gateway.marks.blocked) (by
    rw [Marks.mask]
    ext index
    simp only [BitVec.getElem_and, BitVec.getElem_or]
    cases gateway.marks.blocked[index] <;> cases gateway.marks.authenticated[index] <;> simp)
  have zero (value : BitVec 32) : (0 : BitVec 32) ||| value = value := BitVec.zero_or
  rw [MatchesBlocked, markOf, if_pos blocked, if_neg untrusted]
  cases op : gateway.firewall.markop with
  | setMark => exact iff_of_true plain (.inl rfl)
  | orMark =>
      by_cases sent : gateway.AuthenticatesSource packet.macSource packet.sourceIn
      · simp only [MarkOp.apply, sent, if_true, zero, mixed, not_true_eq_false,
          or_false, reduceCtorEq, false_or]
      · simp only [MarkOp.apply, sent, if_false, zero, plain, not_false_eq_true,
          or_true]

end Gateway

/-- If every iptables command succeeds, then in every state of every run the
filter chains drop all packets from a blocked and untrusted address, if and
only if marking replaces marks, or the mark of authenticated packets adds no
bit to that of blocked ones, or the source is not that of an authenticated
client. -/
theorem blocked_packets_dropped_iff {environment : Environment} {initial final : Gateway}
    {events : List (Int × Event)} (exits : ∀ number, environment.kernel.exitCode number = 0)
    (started : mainLoop environment = some initial) (run : DaemonRun initial events final)
    (mechanism : final.config.macmechanism = .block) {source : EtherAddr}
    {sourceIn : String → Bool} (range : sourceIn final.config.gwIprange = true)
    (blocked : ∃ mac ∈ final.config.blockedmaclist, etherAton mac = some source)
    (untrusted : ¬ ∃ mac ∈ final.config.trustedmaclist, etherAton mac = some source) :
    (∀ packet : Packet, packet.inInterface = final.config.gwInterface →
        packet.macSource = source → packet.sourceIn = sourceIn → final.Drops packet) ↔
      final.firewall.markop = .setMark ∨
        final.marks.authenticated ||| final.marks.blocked = final.marks.blocked ∨
        ¬ ∃ node ∈ final.clients.nodes,
          node.client.fwConnectionState = final.marks.authenticated ∧
            sourceIn node.client.ip = true ∧ etherAton node.client.mac = some source := by
  have inPlace := Gateway.chainsInPlace_of_run started run
  have clients := (Gateway.rulesAgree_of_run exits started run).1
  have macs := Gateway.macRulesAgree_of_run exits started run
  have marked (packet : Packet) (interface : packet.inInterface = final.config.gwInterface)
      (from_ : packet.sourceIn = sourceIn) :
      final.markPacket packet = .finished (final.markOf packet) :=
    Gateway.markPacket_eq inPlace clients macs mechanism
      ⟨interface, by rw [from_]; exact range⟩
  constructor
  · intro drops
    let packet : Packet :=
      { inInterface := final.config.gwInterface, outInterface := "", sourceIn := sourceIn
        destinationIn := fun _ => false, macSource := source, conntrack := .established
        protocolIs := fun _ => false, destinationPortIn := fun _ => false
        synWithoutRst := false, synWithoutMssOption := false, inSet := fun _ => false }
    have exact_ : final.MatchesBlocked (final.markOf packet) ↔ _ :=
      Gateway.matchesBlocked_markOf_iff inPlace blocked untrusted
    refine exact_.mp ?_
    by_contra open_
    rcases drops packet rfl rfl rfl with ⟨packetMark, equal, dropped⟩
    rw [marked packet rfl rfl] at equal
    cases equal
    have established : packet.conntrack = .established := rfl
    have accepted := Gateway.traverse_toRouter_established inPlace open_ established
    rw [dropped .toRouter (by decide)] at accepted
    cases accepted
  · intro condition packet interface mac from_
    refine ⟨_, marked packet interface from_, ?_⟩
    subst mac from_
    exact Gateway.traverse_of_matchesBlocked inPlace
      ((Gateway.matchesBlocked_markOf_iff inPlace blocked untrusted).mpr condition) packet

/-- A packet of an established connection of the default client. -/
def establishedPacket : Packet where
  inInterface := "br-lan"
  outInterface := ""
  sourceIn text := text = "0.0.0.0/0" || text = "192.168.42.10"
  destinationIn _ := false
  macSource := [0x00, 0x16, 0x3e, 0x00, 0x00, 0x01]
  conntrack := .established
  protocolIs _ := false
  destinationPortIn _ := false
  synWithoutRst := false
  synWithoutMssOption := false
  inSet _ := false

/-- The client asks for the splash page, and these commands follow. -/
def blockingEvents (commands : List NdsctlCommand) : List (Int × Event) :=
  (1000, .request (defaultRequest "/" fun _ => none)) ::
    commands.map fun command => (1001, .ndsctl true true command)

def blockedGateway (commands : List NdsctlCommand) : Gateway :=
  (blockingEvents commands).foldl Gateway.step defaultGateway

theorem blocked_packets_dropped_iff_default :
    let final := blockedGateway [.block "00:16:3e:00:00:01"]
    (∀ packet : Packet, packet.inInterface = final.config.gwInterface →
        packet.macSource = establishedPacket.macSource →
        packet.sourceIn = establishedPacket.sourceIn → final.Drops packet) ↔
      final.firewall.markop = .setMark ∨
        final.marks.authenticated ||| final.marks.blocked = final.marks.blocked ∨
        ¬ ∃ node ∈ final.clients.nodes,
          node.client.fwConnectionState = final.marks.authenticated ∧
            establishedPacket.sourceIn node.client.ip = true ∧
            etherAton node.client.mac = some establishedPacket.macSource :=
  blocked_packets_dropped_iff (fun _ => rfl) mainLoop_defaultGateway
    ((Execution.run_ofFunction_iff _ _ _ _).mpr rfl) (by decide +kernel) (by decide +kernel)
    (by decide +kernel) (by decide +kernel)

/-- The packets of a client that is blocked after it has been authenticated are
not dropped. -/
theorem blocked_packet_accepted :
    ∃ final, DaemonRun defaultGateway
        (blockingEvents [.auth "192.168.42.10", .block "00:16:3e:00:00:01"]) final ∧
      final.config.macmechanism = .block ∧
      establishedPacket.IsFromClients final.config ∧
      (∃ mac ∈ final.config.blockedmaclist, etherAton mac = some establishedPacket.macSource) ∧
      final.config.trustedmaclist = [] ∧ ¬ final.Drops establishedPacket := by
  refine ⟨_, (Execution.run_ofFunction_iff _ _ _ _).mpr rfl, by decide +kernel,
    ⟨by decide +kernel, by decide +kernel⟩, by decide +kernel, by decide +kernel, ?_⟩
  rintro ⟨packetMark, marked, dropped⟩
  have mixed : (blockedGateway [.auth "192.168.42.10", .block "00:16:3e:00:00:01"]).markPacket
      establishedPacket = .finished 0x30000 := by
    decide +kernel
  cases mixed.symm.trans marked
  have accepted : (blockedGateway [.auth "192.168.42.10", .block "00:16:3e:00:00:01"]
      ).firewall.tables.traverse .filter establishedPacket .toRouter 0x30000 =
        .decided .accept 0x30000 := by
    decide +kernel
  cases accepted.symm.trans (dropped .toRouter (by decide))

end Nodogsplash
