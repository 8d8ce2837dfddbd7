import Nodogsplash.AllowedAddresses
import Nodogsplash.HookedChains
import Nodogsplash.Rulesets

/-! # Who may pass

What becomes of a packet that comes in from the clients, through mangle and nat
PREROUTING and through FORWARD or INPUT, in any state that a run of the daemon
reaches: the MAC lists, the authenticated clients and the rulesets of the
configuration decide. -/

namespace Nodogsplash

open RuleChain

/-! ## What the daemon wants -/

namespace Gateway

def Denies (gateway : Gateway) (source : EtherAddr) : Prop :=
  gateway.config.macmechanism = .block ∧ Lists gateway.config.blockedmaclist source ∨
    gateway.config.macmechanism = .allow ∧ ¬ Lists gateway.config.allowedmaclist source

instance (gateway : Gateway) (source : EtherAddr) : Decidable (gateway.Denies source) :=
  inferInstanceAs (Decidable (_ ∨ _))

/-- The class of a packet by its source. -/
def classOf (gateway : Gateway) (packet : Packet) : PacketClass :=
  if Lists gateway.config.trustedmaclist packet.macSource then .trusted
  else if gateway.Denies packet.macSource then .blocked
  else if gateway.AuthenticatesSource packet.macSource packet.sourceIn then .authenticated
  else .preauthenticated

/-- Marks replace each other, or the packet gets one of them at most. -/
def MarksApart (gateway : Gateway) (packet : Packet) : Prop :=
  gateway.firewall.markop = .setMark ∨
    (Lists gateway.config.trustedmaclist packet.macSource →
      ¬ gateway.Denies packet.macSource ∧
        ¬ gateway.AuthenticatesSource packet.macSource packet.sourceIn) ∧
    (gateway.Denies packet.macSource →
      ¬ gateway.AuthenticatesSource packet.macSource packet.sourceIn)

end Gateway

def Config.routerFate (config : Config) (packet : Packet) (packetClass : PacketClass) :
    Option Verdict :=
  if packetClass = .blocked ∨ packet.conntrack = .invalid then some .drop
  else if packet.isConnected then some .accept
  else if packet.protocolIs "tcp" && packet.synWithoutMssOption then some .drop
  else if packet.protocolIs "tcp" && packet.destinationPortIn (toString config.gwPort) then
    some .accept
  else if packetClass = .trusted then config.rulesetFate .trustedUsersToRouter true packet
  else config.rulesetFate .usersToRouter false packet

/-- What the nat table does with a packet: those of users who are let through stay
as they are; of the others those for web servers go to the gateway, unless a rule
for preauthenticated users decides. -/
def Config.natFate (config : Config) (packet : Packet) (packetClass : PacketClass) :
    Option Verdict :=
  if packetClass = .trusted ∨ packetClass = .authenticated then none
  else some <|
    (decidingVerdict (config.getRulesetList .preauthenticatedUsers) packet).getD <|
      if packet.protocolIs "tcp" && packet.destinationPortIn "80" then .dnat config.gwAddress
      else .accept

/-! ## The mark -/

namespace Gateway

/-- `ndsBLK` marks the packets of the addresses that are kept out. -/
theorem evalChain_blocked {gateway : Gateway} (macs : gateway.MacRulesAgree)
    (allowed : gateway.AllowedRulesAgree) (packet : Packet)
    (call deeper : Chain → BitVec 32 → Outcome (BitVec 32) Verdict) (packetMark : BitVec 32)
    (rest : List Rule) (jump : Rule) (guard : (filterSemantics packet).guard jump packetMark = true)
    (action : (filterSemantics packet).action jump = .call .blocked)
    (called : call .blocked packetMark = evalRules (filterSemantics packet) deeper
      (gateway.firewall.tables.rules .mangle .blocked) packetMark) :
    evalRules (filterSemantics packet) call (jump :: rest) packetMark =
      evalRules (filterSemantics packet) call rest
        (if gateway.Denies packet.macSource then
          gateway.firewall.markop.apply gateway.marks.blocked packetMark else packetMark) := by
  cases mechanism : gateway.config.macmechanism with
  | block =>
      rw [evalRules_macs (fun _ => rfl) (macs.blocked mechanism)] at called
      rw [evalRules_cons_of_call_finished guard action called]
      simp [Denies, mechanism]
  | allow =>
      rw [evalRules_allowed allowed mechanism] at called
      by_cases listed : Lists gateway.config.allowedmaclist packet.macSource
      · rw [if_pos listed] at called
        rw [evalRules_cons_of_call_left guard action called]
        simp [Denies, mechanism, listed]
      · rw [if_neg listed] at called
        rw [evalRules_cons_of_call_finished guard action called]
        simp [Denies, mechanism, listed]

theorem mark_classOf {gateway : Gateway} {packet : Packet} (apart : gateway.MarksApart packet) :
    let markop := gateway.firewall.markop
    let sent := if gateway.AuthenticatesSource packet.macSource packet.sourceIn then
      markop.apply gateway.marks.authenticated 0 else 0
    let checked := if gateway.Denies packet.macSource then
      markop.apply gateway.marks.blocked sent else sent
    (if Lists gateway.config.trustedmaclist packet.macSource then
      markop.apply gateway.marks.trusted checked else checked) =
      (gateway.classOf packet).mark gateway.marks.toMarks := by
  intro markop sent checked
  have zero (value : BitVec 32) : (0 : BitVec 32) ||| value = value := BitVec.zero_or
  rcases apart with replaces | ⟨trusted, denied⟩
  · have set (value packetMark : BitVec 32) : markop.apply value packetMark = value := by
      simp only [markop, replaces, MarkOp.apply]
    simp only [checked, sent, set, classOf]
    split
    · rfl
    · split
      · rfl
      · split <;> rfl
  · have onZero (value : BitVec 32) : markop.apply value 0 = value := by
      cases markop with
      | setMark => rfl
      | orMark => exact zero value
    simp only [checked, sent, classOf]
    by_cases listed : Lists gateway.config.trustedmaclist packet.macSource
    · simp only [listed, (trusted listed).1, (trusted listed).2, if_true, if_false, onZero]
      rfl
    · by_cases out : gateway.Denies packet.macSource
      · simp only [listed, out, denied out, if_true, if_false, onZero]
        rfl
      · simp only [listed, out, if_false, onZero]
        split <;> rfl

end Gateway

/-! ## The chains -/

section

variable {packet : Packet} {call : Chain → BitVec 32 → Outcome (BitVec 32) Verdict}

theorem evalRules_cons_of_test {rule : Rule} {rest : List Rule} {packetMark : BitVec 32}
    {verdict : Verdict} {test : Bool} {fate : Option Verdict}
    (guard : (filterSemantics packet).guard rule packetMark = test)
    (action : (filterSemantics packet).action rule = .decide verdict)
    (otherwise : test = false →
      evalRules (filterSemantics packet) call rest packetMark = fateOutcome packetMark fate) :
    evalRules (filterSemantics packet) call (rule :: rest) packetMark =
      fateOutcome packetMark (if test then some verdict else fate) := by
  cases test with
  | true => exact evalRules_cons_of_decide guard action
  | false => exact (evalRules_cons_of_not_guard guard).trans (otherwise rfl)

/-- The end of `ndsRTR`, for the packets of users that are not trusted. -/
theorem evalRules_usersToRouter (stray : String → String) (config : Config)
    (packetMark : BitVec 32) :
    evalRules (filterSemantics packet) call
        (if config.isEmptyRuleset .usersToRouter then
          [⟨[], (config.getEmptyRulesetPolicy .usersToRouter).toTarget⟩]
        else rulesetRules stray config .usersToRouter ++ [⟨[], config.rejectUnreachable⟩])
        packetMark =
      fateOutcome packetMark ((config.printed stray).rulesetFate .usersToRouter false packet) := by
  rw [Config.rulesetFate, isEmptyRuleset_printed]
  cases empty : config.isEmptyRuleset .usersToRouter with
  | true =>
      rw [if_pos rfl, if_pos rfl]
      exact evalRules_policy (guard_always _ _) _
  | false =>
      rw [if_neg (by simp), if_neg (by simp), rulesetRules_eq]
      exact evalRules_compiled_reject config _ packetMark

theorem evalRules_toRouterRules (stray : String → String) (config : Config)
    {marks : AcceptedMarks} {markmask : Option (BitVec 32)}
    (masked : markmask = none ∨ markmask = some marks.mask) (packetClass : PacketClass)
    {deeper : Chain → BitVec 32 → Outcome (BitVec 32) Verdict}
    (trusted : call .trustedToRouter marks.trusted =
      evalRules (filterSemantics packet) deeper (classRules stray config .trustedUsersToRouter)
        marks.trusted) :
    evalRules (filterSemantics packet) call (toRouterRules stray config marks.toMarks markmask)
        (packetClass.mark marks.toMarks) =
      fateOutcome (packetClass.mark marks.toMarks)
        ((config.printed stray).routerFate packet packetClass) := by
  have within := packetClass.mark_and_markmask marks.toMarks masked
  simp only [toRouterRules, List.cons_append, List.nil_append]
  by_cases blocked : packetClass = .blocked
  · subst blocked
    have fate : (config.printed stray).routerFate packet .blocked = some .drop :=
      if_pos (.inl rfl)
    rw [fate]
    exact evalRules_cons_of_decide ((guard_mark_iff _ _ _ _ _).mpr within) rfl
  have unblocked : packetClass.mark marks.toMarks ≠ marks.blocked := by
    cases packetClass with
    | blocked => exact absurd rfl blocked
    | trusted => exact marks.blocked_ne_trusted.symm
    | authenticated => exact marks.authenticated_ne_blocked
    | preauthenticated => exact marks.blocked_ne_zero.symm
  rw [evalRules_cons_of_not_guard (by
    rw [Bool.eq_false_iff, ne_eq, guard_mark_iff, within]
    exact unblocked)]
  have fate : (config.printed stray).routerFate packet packetClass =
      if decide (packet.conntrack = .invalid) then some .drop
      else if packet.isConnected then some .accept
      else if packet.protocolIs "tcp" && packet.synWithoutMssOption then some .drop
      else if packet.protocolIs "tcp" && packet.destinationPortIn (toString config.gwPort) then
        some .accept
      else if packetClass = .trusted then
        (config.printed stray).rulesetFate .trustedUsersToRouter true packet
      else (config.printed stray).rulesetFate .usersToRouter false packet := by
    simp [Config.routerFate, blocked, Config.printed]
  rw [fate]
  refine evalRules_cons_of_test (by simp [filterSemantics, Rule.holds, Match.holds]) rfl fun _ => ?_
  refine evalRules_cons_of_test
    (by simp [filterSemantics, Rule.holds, Match.holds, Packet.isConnected]) rfl fun _ => ?_
  refine evalRules_cons_of_test (by simp [filterSemantics, Rule.holds, Match.holds]) rfl fun _ => ?_
  refine evalRules_cons_of_test (by simp [filterSemantics, Rule.holds, Match.holds]) rfl fun _ => ?_
  by_cases trusts : packetClass = .trusted
  · subst trusts
    rw [if_pos rfl]
    exact evalRules_classEntry stray within trusted _
  · have untrusted : packetClass.mark marks.toMarks ≠ marks.trusted := by
      cases packetClass with
      | blocked => exact marks.blocked_ne_trusted
      | trusted => exact absurd rfl trusts
      | authenticated => exact marks.trusted_ne_authenticated.symm
      | preauthenticated => exact marks.trusted_ne_zero.symm
    rw [if_neg trusts, evalRules_classEntry_of_ne _ _ within untrusted]
    exact evalRules_usersToRouter stray config _

theorem evalRules_compiled (rules : List FirewallRule) (packetMark : BitVec 32) :
    evalRules (filterSemantics packet) call (rules.map iptablesCompile) packetMark =
      (decidingVerdict rules packet).elim (.finished packetMark) (.decided · packetMark) := by
  have actions : ∀ rule ∈ rules.map iptablesCompile,
      (∃ verdict, (filterSemantics packet).action rule = .decide verdict) ∨
        ∃ change, (filterSemantics packet).action rule = .update change ∧
          change packetMark = packetMark := by
    intro rule member
    rcases List.mem_map.mp member with ⟨source, _, rfl⟩
    rcases action_iptablesCompile source with ⟨verdict, _, action⟩ | ⟨_, action⟩
    · exact .inl ⟨verdict, action⟩
    · exact .inr ⟨id, action, rfl⟩
  rw [evalRules_eq_firstVerdict actions, firstVerdict_iptablesCompile]
  cases decidingVerdict rules packet <;> rfl

theorem evalRules_natOutgoingRules (stray : String → String) (config : Config)
    {marks : AcceptedMarks} {markmask : Option (BitVec 32)}
    (masked : markmask = none ∨ markmask = some marks.mask) (packetClass : PacketClass) :
    evalRules (filterSemantics packet) call
        (natOutgoingRules stray config marks.toMarks markmask)
        (packetClass.mark marks.toMarks) =
      fateOutcome (packetClass.mark marks.toMarks)
        ((config.printed stray).natFate packet packetClass) := by
  have within := packetClass.mark_and_markmask marks.toMarks masked
  have matches_iff (value : BitVec 32) (target : Target) : (filterSemantics packet).guard
      ⟨[.mark value markmask], target⟩ (packetClass.mark marks.toMarks) =
        decide (packetClass.mark marks.toMarks = value) := by
    rw [Bool.eq_iff_iff, guard_mark_iff, within, decide_eq_true_iff]
  simp only [natOutgoingRules, List.cons_append, List.nil_append]
  by_cases trusted : packetClass = .trusted
  · subst trusted
    rw [Config.natFate, if_pos (.inl rfl)]
    exact evalRules_cons_of_leave ((matches_iff _ _).trans (decide_eq_true rfl)) rfl
  by_cases authenticated : packetClass = .authenticated
  · subst authenticated
    rw [evalRules_cons_of_not_guard
      ((matches_iff _ _).trans (decide_eq_false marks.trusted_ne_authenticated.symm))]
    rw [Config.natFate, if_pos (.inr rfl)]
    exact evalRules_cons_of_leave ((matches_iff _ _).trans (decide_eq_true rfl)) rfl
  have others : packetClass.mark marks.toMarks ≠ marks.trusted ∧
      packetClass.mark marks.toMarks ≠ marks.authenticated := by
    cases packetClass with
    | blocked => exact ⟨marks.blocked_ne_trusted, marks.authenticated_ne_blocked.symm⟩
    | trusted => exact absurd rfl trusted
    | authenticated => exact absurd rfl authenticated
    | preauthenticated => exact ⟨marks.trusted_ne_zero.symm, marks.authenticated_ne_zero.symm⟩
  rw [evalRules_cons_of_not_guard ((matches_iff _ _).trans (decide_eq_false others.1)),
    evalRules_cons_of_not_guard ((matches_iff _ _).trans (decide_eq_false others.2))]
  rw [Config.natFate, if_neg (not_or.mpr ⟨trusted, authenticated⟩), rulesetRules_eq]
  have rules := @evalRules_compiled packet call
    ((config.printed stray).getRulesetList .preauthenticatedUsers)
    (packetClass.mark marks.toMarks)
  cases decided : decidingVerdict
    ((config.printed stray).getRulesetList .preauthenticatedUsers) packet with
  | some verdict =>
      rw [decided] at rules
      exact evalRules_append_of_decided rules
  | none =>
      rw [decided] at rules
      rw [evalRules_append_of_finished rules, Option.getD_none]
      rw [apply_ite some]
      refine evalRules_cons_of_test (by simp [filterSemantics, Rule.holds, Match.holds]) rfl
        fun _ => ?_
      exact evalRules_cons_of_decide (guard_always _ _) rfl

end

/-! ## Runs -/

namespace Gateway

/-- What the rules of a hook behind the first ones do with a packet, with at most `depth`
nested calls. -/
def behindHook (gateway : Gateway) (table : Table) (hook : Chain) (first depth : Nat)
    (packet : Packet) (packetMark : BitVec 32) : Outcome (BitVec 32) Verdict :=
  evalRules (filterSemantics packet)
    (evalChain (filterSemantics packet) (gateway.firewall.tables.rules table) depth)
    ((gateway.firewall.tables.rules table hook).drop first) packetMark

def throughHook (gateway : Gateway) (table : Table) (hook : Chain) (depth : Nat)
    (packet : Packet) (packetMark : BitVec 32) : Outcome (BitVec 32) Verdict :=
  evalChain (filterSemantics packet) (gateway.firewall.tables.rules table) (depth + 1) hook
    packetMark

/-- A packet has the fate that the daemon wants for its class; where the daemon leaves it
open, the other rules of the hook decide. `marked` is about all rules of the hook too: those
behind the jumps of the daemon get the packet with the mark of its class, and if they leave
the packet and the mark, it goes on with that. `config` is the configuration with the rules
as iptables is given them. -/
structure Controls (gateway : Gateway) (config : Config) (packet : Packet)
    (packetClass : PacketClass) (depth : Nat) : Prop where
  marked : gateway.throughHook .mangle .prerouting depth packet 0 =
    gateway.behindHook .mangle .prerouting 3 depth packet (packetClass.mark gateway.marks.toMarks)
  forward :
    let packetMark := packetClass.mark gateway.marks.toMarks
    gateway.throughHook .filter .forward depth packet packetMark =
      (config.internetFate packet packetClass).elim
        (gateway.behindHook .filter .forward 1 depth packet packetMark) (.decided · packetMark)
  input :
    let packetMark := packetClass.mark gateway.marks.toMarks
    gateway.throughHook .filter .input depth packet packetMark =
      (config.routerFate packet packetClass).elim
        (gateway.behindHook .filter .input 1 depth packet packetMark) (.decided · packetMark)
  prerouting : gateway.config.ip6 = false →
    let packetMark := packetClass.mark gateway.marks.toMarks
    gateway.throughHook .nat .prerouting depth packet packetMark =
      (config.natFate packet packetClass).elim
        (gateway.behindHook .nat .prerouting 1 depth packet packetMark) (.decided · packetMark)

theorem throughHook_classOf {gateway : Gateway} (inPlace : gateway.ChainsInPlace)
    (clients : gateway.RulesAgree) (macs : gateway.MacRulesAgree)
    (allowed : gateway.AllowedRulesAgree) {packet : Packet}
    (fromClients : packet.IsFromClients gateway.config) (apart : gateway.MarksApart packet)
    (depth : Nat) :
    gateway.throughHook .mangle .prerouting (depth + 1) packet 0 =
      gateway.behindHook .mangle .prerouting 3 (depth + 1) packet
        ((gateway.classOf packet).mark gateway.marks.toMarks) := by
  have rules : gateway.firewall.tables.rules .mangle .prerouting =
      preroutingJumps gateway.config ++
        (gateway.firewall.tables.rules .mangle .prerouting).drop 3 := by
    rw [← inPlace.prerouting, List.take_append_drop]
  rw [throughHook, evalChain, behindHook, rules, preroutingJumps]
  simp only [List.cons_append, List.nil_append, List.drop_succ_cons, List.drop_zero]
  rw [evalRules_cons_of_call_finished (fromClients.holds _ _) rfl
    (evalRules_outgoing clients packet _ _)]
  rw [evalChain_blocked macs allowed packet _ _ _ _ _ (fromClients.holds _ _) rfl rfl]
  rw [evalRules_cons_of_call_finished (fromClients.holds _ _) rfl
    (evalRules_macs (fun _ => rfl) macs.trusted packet _ _)]
  rw [← mark_classOf apart]

theorem throughHook_eq {gateway : Gateway} {table : Table} {hook hooked : Chain}
    (first : ∃ rest, gateway.firewall.tables.rules table hook =
      ⟨gateway.config.fromClients, .jump hooked⟩ :: rest)
    {packet : Packet} (fromClients : packet.IsFromClients gateway.config) {depth : Nat}
    {packetMark : BitVec 32} {fate : Option Verdict}
    (called : evalChain (filterSemantics packet) (gateway.firewall.tables.rules table) depth hooked
      packetMark = fateOutcome packetMark fate) :
    gateway.throughHook table hook depth packet packetMark =
      fate.elim (gateway.behindHook table hook 1 depth packet packetMark)
        (.decided · packetMark) := by
  rcases first with ⟨rest, rules⟩
  rw [throughHook, evalChain, behindHook, rules, List.drop_one, List.tail_cons]
  cases fate with
  | none => exact evalRules_cons_of_call_left (fromClients.holds _ _) rfl called
  | some verdict => exact evalRules_cons_of_call_decided (fromClients.holds _ _) rfl called

end Gateway

/-- If every iptables command succeeds, then in every state of every run, under
either MAC mechanism, a packet from the clients that gets no two marks mixed comes
behind the jumps of the daemon in mangle PREROUTING with the mark of its class. With
that mark it has the fate of its class on its way to the internet, to the router and
through the nat table. -/
theorem access_control {environment : Environment} {initial final : Gateway}
    {events : List (Int × Event)} (exits : ∀ number, environment.kernel.exitCode number = 0)
    (started : mainLoop environment = some initial) (run : DaemonRun initial events final)
    {packet : Packet} (fromClients : packet.IsFromClients final.config)
    (apart : final.MarksApart packet) (depth : Nat) :
    final.Controls (final.config.printed final.firewall.kernel.stray) packet
      (final.classOf packet) (depth + 2) := by
  have inPlace := Gateway.chainsInPlace_of_run started run
  have hooks := Gateway.hooksInPlace_of_run started run
  have clients := (Gateway.rulesAgree_of_run exits started run).1
  have macs := Gateway.macRulesAgree_of_run exits started run
  have allowed := Gateway.allowedRulesAgree_of_run exits started run
  have rules (table : Table) (name : Chain) :
      evalChain (filterSemantics packet) (final.firewall.tables.rules table) (depth + 1) name =
        evalRules (filterSemantics packet)
          (evalChain (filterSemantics packet) (final.firewall.tables.rules table) depth)
          (final.firewall.tables.rules table name) := rfl
  constructor
  · exact Gateway.throughHook_classOf inPlace clients macs allowed fromClients apart (depth + 1)
  · apply Gateway.throughHook_eq hooks.forward fromClients
    rw [evalChain, inPlace.toInternet]
    apply evalRules_toInternetRules _ _ inPlace.markmask
    · rw [rules, inPlace.trusted]
    · rw [rules, inPlace.authenticated]
  · apply Gateway.throughHook_eq hooks.input fromClients
    rw [evalChain, inPlace.toRouter]
    apply evalRules_toRouterRules _ _ inPlace.markmask
    rw [rules, hooks.trustedToRouter]
  · intro ip4
    apply Gateway.throughHook_eq (hooks.prerouting ip4) fromClients
    rw [evalChain, hooks.outgoing ip4]
    exact evalRules_natOutgoingRules _ _ inPlace.markmask _

/-- Another program marks all packets that come in. -/
def markingTables : Tables :=
  { bareTables with
    mangle := [⟨.prerouting, [⟨⟨[], .mark .setMark 1⟩, 0⟩]⟩, ⟨.input, []⟩, ⟨.forward, []⟩,
      ⟨.postrouting, []⟩] }

theorem mainLoop_marking :
    (mainLoop { defaultEnvironment with tables := markingTables }).isSome = true := by
  decide +kernel

/-- The default client asks for the splash page there and is authenticated. -/
def markingGateway : Gateway :=
  (blockingEvents [.auth "192.168.42.10"]).foldl Gateway.step
    ((mainLoop { defaultEnvironment with tables := markingTables }).get mainLoop_marking)

/-- The rule behind the jumps of the daemon gets the packets with the mark of their class,
and replaces it. -/
theorem access_control_marking :
    let final := markingGateway
    final.Controls (final.config.printed final.firewall.kernel.stray) establishedPacket
        .authenticated 2 ∧
      final.behindHook .mangle .prerouting 3 2 establishedPacket final.marks.authenticated =
        .finished 1 := by
  intro final
  have run : DaemonRun ((mainLoop { defaultEnvironment with tables := markingTables }).get
      mainLoop_marking) (blockingEvents [.auth "192.168.42.10"]) final :=
    (Execution.run_ofFunction_iff _ _ _ _).mpr rfl
  have evaluated : establishedPacket.IsFromClients final.config ∧
      final.classOf establishedPacket = .authenticated ∧
      final.behindHook .mangle .prerouting 3 2 establishedPacket final.marks.authenticated =
        .finished 1 := by
    refine ⟨⟨?_, ?_⟩, ?_, ?_⟩ <;> decide +kernel
  rcases evaluated with ⟨fromClients, authenticated, behind⟩
  refine ⟨?_, behind⟩
  rw [← authenticated]
  refine access_control (fun _ => rfl) (Option.some_get mainLoop_marking).symm run fromClients
    (.inr ?_) 0
  exact ⟨by decide +kernel, by decide +kernel⟩

end Nodogsplash
