import Nodogsplash.BinauthReplies

/-! # The limits of a session

The rates that `tc_attach_client` installs when a client is authenticated,
against the limits that are assigned to its session. -/

namespace Nodogsplash

/-! ## One direction -/

/-- A limit of 0 stands for no limit. -/
def limitOf (value : Int) : Option Int := if value > 0 then some value else none

/-- The smaller of the limits that are set. -/
def assignedLimit (configured replied : Int) : Option Int :=
  match limitOf configured, limitOf replied with
  | some configured, some replied => some (min configured replied)
  | some configured, none => some configured
  | none, replied => replied

/-- The limit that is left from before stands for the one of a reply. Where
nothing is configured there must be no reply; otherwise both limits are the same
or neither is below the configured one. -/
structure LimitAgrees (configured left replied : Int) : Prop where
  unconfigured : configured ≤ 0 → replied ≤ 0
  configured : 0 < configured →
    left = replied ∨ (left ≤ 0 ∨ configured ≤ left) ∧ (replied ≤ 0 ∨ configured ≤ replied)

def rateUnder (configured limit : Int) : Int :=
  if 0 < limit ∧ limit < configured then limit else configured

/-- What `tc_attach_client` makes of a limit of `iptables_fw_authenticate`. -/
theorem limitOf_min (configured left : Int) :
    limitOf (min (if 0 < left then left else configured) configured) =
      if 0 < configured then some (rateUnder configured left) else none := by
  have rate (positive : 0 < configured) :
      min (if 0 < left then left else configured) configured = rateUnder configured left := by
    rw [rateUnder]
    split <;> split <;> omega
  by_cases positive : 0 < configured
  · have above : rateUnder configured left > 0 := by
      rw [rateUnder]
      split <;> omega
    rw [rate positive, limitOf, if_pos above, if_pos positive]
  · rw [limitOf, if_neg (by omega), if_neg positive]

theorem assignedLimit_of_pos {configured : Int} (positive : 0 < configured) (replied : Int) :
    assignedLimit configured replied = some (rateUnder configured replied) := by
  rw [assignedLimit, limitOf, if_pos positive, limitOf, rateUnder]
  by_cases present : replied > 0
  · rw [if_pos present]
    apply congrArg some
    split <;> omega
  · rw [if_neg present, if_neg (fun both => present both.1)]

theorem assignedLimit_of_nonpos {configured : Int} (absent : configured ≤ 0) (replied : Int) :
    assignedLimit configured replied = limitOf replied := by
  rw [assignedLimit, limitOf, if_neg (by omega)]

theorem assignedLimit_zero (configured : Int) :
    assignedLimit configured 0 = limitOf configured := by
  rw [assignedLimit]
  cases limitOf configured with
  | none => rfl
  | some limit => rfl

/-- The installed rate is the assigned limit exactly if the limit left from
before stands for the one of the reply. -/
theorem installed_eq_assigned_iff (configured left replied : Int) :
    limitOf (min (if 0 < left then left else configured) configured) =
        assignedLimit configured replied ↔ LimitAgrees configured left replied := by
  rw [limitOf_min]
  by_cases positive : 0 < configured
  · rw [if_pos positive, assignedLimit_of_pos positive, Option.some.injEq]
    constructor
    · intro equal
      refine ⟨fun absent => absurd positive (by omega), fun _ => ?_⟩
      rw [rateUnder, rateUnder] at equal
      split at equal <;> split at equal <;> omega
    · intro agrees
      have cases := agrees.configured positive
      rw [rateUnder, rateUnder]
      split <;> split <;> omega
  · rw [if_neg positive, assignedLimit_of_nonpos (by omega), limitOf]
    constructor
    · intro equal
      refine ⟨fun _ => ?_, fun configured => absurd configured positive⟩
      split at equal
      · cases equal
      · omega
    · intro agrees
      have absent := agrees.unconfigured (by omega)
      rw [if_neg (by omega)]

/-! ## The commands for both directions -/

def Config.shapeCommands (config : Config) (client : Client) (download upload : Option Int) :
    List TcCommand :=
  let id := tcId client.id.toInt
  (download.toList.flatMap fun rate =>
      tcAttachDevice config.gwInterface rate id "dst" "sport" client.ip) ++
    upload.toList.flatMap fun rate =>
      tcAttachDevice config.uploadIfbname rate id "src" "dport" client.ip

theorem tcAttachDevice_directions {device other ip : String} {rate otherRate id : Int}
    {rest otherRest : List TcCommand} :
    tcAttachDevice device rate id "dst" "sport" ip ++ rest ≠
      tcAttachDevice other otherRate id "src" "dport" ip ++ otherRest := by
  intro equal
  have third := congrArg (fun commands => commands[2]?) equal
  simp only [tcAttachDevice, List.cons_append, List.getElem?_cons_succ, List.getElem?_cons_zero,
    Option.some.injEq, TcCommand.addFilter.injEq] at third
  have selectors := congrArg String.toList third.2.2.1
  simp only [String.toList_append, List.append_cancel_right_eq, List.append_cancel_left_eq]
    at selectors
  exact absurd selectors (by decide)

theorem tcAttachDevice_inj {device direction port ip : String} {rate otherRate id : Int}
    {rest otherRest : List TcCommand}
    (equal : tcAttachDevice device rate id direction port ip ++ rest =
      tcAttachDevice device otherRate id direction port ip ++ otherRest) :
    rate = otherRate ∧ rest = otherRest := by
  rcases List.append_inj equal rfl with ⟨commands, others⟩
  have first := List.head_eq_of_cons_eq commands
  rw [TcCommand.addClass.injEq] at first
  exact ⟨first.2.2.2.2, others⟩

theorem attachOption_inj {device direction port ip : String} {limit other : Option Int} {id : Int}
    {rest otherRest : List TcCommand}
    (ends : ∀ rate tail, rest ≠ tcAttachDevice device rate id direction port ip ++ tail)
    (otherEnds : ∀ rate tail, otherRest ≠ tcAttachDevice device rate id direction port ip ++ tail)
    (equal : (limit.toList.flatMap fun rate => tcAttachDevice device rate id direction port ip) ++
        rest =
      (other.toList.flatMap fun rate => tcAttachDevice device rate id direction port ip) ++
        otherRest) : limit = other ∧ rest = otherRest := by
  cases limit with
  | none =>
      cases other with
      | none => exact ⟨rfl, equal⟩
      | some rate =>
          rw [Option.toList_some, List.flatMap_singleton] at equal
          exact absurd equal (ends rate otherRest)
  | some rate =>
      rw [Option.toList_some, List.flatMap_singleton] at equal
      cases other with
      | none => exact absurd equal.symm (otherEnds rate rest)
      | some otherRate =>
          rw [Option.toList_some, List.flatMap_singleton] at equal
          rcases tcAttachDevice_inj equal with ⟨same, others⟩
          exact ⟨congrArg some same, others⟩

theorem shapeCommands_inj {config : Config} {client : Client}
    {download upload otherDownload otherUpload : Option Int} :
    config.shapeCommands client download upload =
        config.shapeCommands client otherDownload otherUpload ↔
      download = otherDownload ∧ upload = otherUpload := by
  have uploads (limit : Option Int) (rate : Int) (tail : List TcCommand) :
      (limit.toList.flatMap fun rate => tcAttachDevice config.uploadIfbname rate
          (tcId client.id.toInt) "src" "dport" client.ip) ≠
        tcAttachDevice config.gwInterface rate (tcId client.id.toInt) "dst" "sport" client.ip ++
          tail := by
    cases limit with
    | none => exact (List.cons_ne_nil _ _).symm
    | some own =>
        rw [Option.toList_some, List.flatMap_singleton, ← List.append_nil
          (tcAttachDevice config.uploadIfbname own _ _ _ _)]
        exact tcAttachDevice_directions.symm
  constructor
  · intro equal
    rcases attachOption_inj (uploads upload) (uploads otherUpload) equal with
      ⟨sameDownload, others⟩
    have nothing (rate : Int) (tail : List TcCommand) :
        [] ≠ tcAttachDevice config.uploadIfbname rate (tcId client.id.toInt) "src" "dport"
          client.ip ++ tail := (List.cons_ne_nil _ _).symm
    have withEnd := congrArg (fun commands => commands ++ []) others
    exact ⟨sameDownload, (attachOption_inj nothing nothing withEnd).1⟩
  · rintro ⟨rfl, rfl⟩
    rfl

/-! ## One authentication -/

/-- The limits an earlier session has left behind, which only count together. -/
def Client.leftLimits (client : Client) : Int × Int :=
  if client.downloadLimit > 0 ∧ client.uploadLimit > 0 then
    (client.downloadLimit, client.uploadLimit)
  else (0, 0)

/-- For both directions, the limits left from before stand for those that are
assigned now. -/
structure Config.LimitsAgree (config : Config) (client : Client) (download upload : Int) :
    Prop where
  download : LimitAgrees config.downloadLimit client.leftLimits.1 download
  upload : LimitAgrees config.uploadLimit client.leftLimits.2 upload

namespace Gateway

theorem shapingLimits_eq (config : Config) (client : Client) :
    shapingLimits config client =
      (if 0 < client.leftLimits.1 then client.leftLimits.1 else config.downloadLimit,
        if 0 < client.leftLimits.2 then client.leftLimits.2 else config.uploadLimit) := by
  rw [shapingLimits, Client.leftLimits]
  by_cases both : client.downloadLimit > 0 ∧ client.uploadLimit > 0
  · rw [if_pos both, if_pos both, if_pos both.1, if_pos both.2]
  · rw [if_neg both, if_neg both]
    rfl

/-- The traffic control commands run since shape the client to these rates. -/
def ShapesTo (before after : Gateway) (client : Client) (download upload : Option Int) : Prop :=
  after.traffic.commands =
    before.traffic.commands ++ before.config.shapeCommands client download upload

theorem attachCommands_eq {gateway : Gateway} (control : gateway.config.trafficControl = true)
    (client : Client) :
    let limits := shapingLimits gateway.config client
    gateway.attachCommands client = gateway.config.shapeCommands client
      (limitOf (min limits.1 gateway.config.downloadLimit))
      (limitOf (min limits.2 gateway.config.uploadLimit)) := by
  have flattened (condition : Prop) [Decidable condition] (limit : Int)
      (commands : Int → List TcCommand) :
      (if condition then some limit else none).toList.flatMap commands =
        if condition then commands limit else [] := by
    by_cases holds : condition
    · rw [if_pos holds, if_pos holds, Option.toList_some, List.flatMap_singleton]
    · rw [if_neg holds, if_neg holds]
      rfl
  simp only [attachCommands, if_pos control, Config.shapeCommands, limitOf, flattened]
  rfl

/-- The rates of a session are the assigned limits exactly if those left from
before stand for them. -/
theorem authentication_shapes_iff {gateway : Gateway} {id : BitVec 32} {node : Node}
    (control : gateway.config.trafficControl = true)
    (found : gateway.clients.findById id = some node)
    (state : node.client.fwConnectionState = preauthenticatedState) (reason : Option String)
    (download upload : Int) :
    gateway.ShapesTo (gateway.authClientAuth id reason).2 node.client
        (assignedLimit gateway.config.downloadLimit download)
        (assignedLimit gateway.config.uploadLimit upload) ↔
      gateway.config.LimitsAgree node.client download upload := by
  have traffic : (gateway.enterAuthenticated node reason).traffic =
      (gateway.iptablesFwAuthenticate node.client).2.traffic :=
    enterAuthenticated_traffic gateway node reason
  rw [ShapesTo, authClientAuth_of_preauthenticated reason found state]
  dsimp only
  rw [traffic, iptablesFwAuthenticate_eq]
  dsimp only
  rw [commands_executeAll, List.append_cancel_left_eq, attachCommands_eq control,
    shapeCommands_inj, shapingLimits_eq, installed_eq_assigned_iff, installed_eq_assigned_iff]
  exact ⟨fun ⟨download, upload⟩ => ⟨download, upload⟩,
    fun agree => ⟨agree.download, agree.upload⟩⟩

/-! ## Requests and ndsctl -/

/-- `authenticate_client` authenticates this client for the request, with these
values of `seconds`, `upload` and `download`. -/
structure RequestAuthenticates (gateway : Gateway) (request : Request) (node : Node)
    (limits : SessionLimits) : Prop where
  decided : ∃ asked reason redirectUrl,
    (gateway.requestClient request).1 = some asked ∧
      (gateway.requestClient request).2.route request asked.client =
        .authenticate node.client.id reason redirectUrl limits
  found : (gateway.requestClient request).2.clients.findById node.client.id = some node
  state : node.client.fwConnectionState = preauthenticatedState

/-- `ndsctl auth` authenticates this client. -/
structure CommandAuthenticates (gateway : Gateway) (target : String) (node : Node) : Prop where
  target : gateway.ndsctlId target = node.client.id
  nonzero : node.client.id ≠ 0
  found : gateway.clients.findById node.client.id = some node
  state : node.client.fwConnectionState = preauthenticatedState

variable {gateway : Gateway} {node : Node}

theorem requestClient_traffic (gateway : Gateway) (request : Request) :
    (gateway.requestClient request).2.traffic = gateway.traffic := by
  rcases gateway.requestClient_frame request with ⟨clients, drawn, equal, _⟩
  rw [equal]

theorem requestAuthenticates_shapes_iff {request : Request} {limits : SessionLimits}
    (control : gateway.config.trafficControl = true)
    (authenticates : gateway.RequestAuthenticates request node limits) :
    gateway.ShapesTo (gateway.libmicrohttpdCb request).2 node.client
        (assignedLimit gateway.config.downloadLimit limits.download)
        (assignedLimit gateway.config.uploadLimit limits.upload) ↔
      gateway.config.LimitsAgree node.client limits.download limits.upload := by
  rcases authenticates.decided with ⟨asked, reason, redirectUrl, client, decided⟩
  have config := (gateway.requestClient_keeps request).1
  have traffic := gateway.requestClient_traffic request
  have shapes := authentication_shapes_iff (config.symm ▸ control) authenticates.found
    authenticates.state reason limits.download limits.upload
  rw [config] at shapes
  rw [← shapes, ShapesTo, ShapesTo, config, traffic, libmicrohttpdCb]
  rcases result : gateway.requestClient request with ⟨_, next⟩
  rw [result] at client decided
  cases client
  dsimp only at decided ⊢
  rw [decided]
  dsimp only
  split
  · rfl
  · rfl

theorem commandAuthenticates_shapes_iff {target : String}
    (control : gateway.config.trafficControl = true)
    (authenticates : gateway.CommandAuthenticates target node) :
    gateway.ShapesTo (gateway.ndsctlAuth target).2 node.client
        (limitOf gateway.config.downloadLimit) (limitOf gateway.config.uploadLimit) ↔
      gateway.config.LimitsAgree node.client 0 0 := by
  have nonzero : gateway.ndsctlId target ≠ 0 := authenticates.target ▸ authenticates.nonzero
  have shapes := authentication_shapes_iff control authenticates.found authenticates.state
    (some "ndsctl_auth") 0 0
  rw [assignedLimit_zero, assignedLimit_zero] at shapes
  rw [ndsctlAuth, if_pos nonzero, authenticates.target]
  exact shapes

end Gateway

/-- With traffic control, a session gets the limits that are assigned to it
exactly if the limits left from an earlier session stand for them: the limits of
the reply are written after the rates have been installed, and those of the
earlier session are still there. -/
theorem session_limits_installed_iff {gateway : Gateway}
    (control : gateway.config.trafficControl = true) :
    (∀ request node limits, gateway.RequestAuthenticates request node limits →
      (gateway.ShapesTo (gateway.libmicrohttpdCb request).2 node.client
          (assignedLimit gateway.config.downloadLimit limits.download)
          (assignedLimit gateway.config.uploadLimit limits.upload) ↔
        gateway.config.LimitsAgree node.client limits.download limits.upload)) ∧
    ∀ target node, gateway.CommandAuthenticates target node →
      (gateway.ShapesTo (gateway.ndsctlAuth target).2 node.client
          (limitOf gateway.config.downloadLimit) (limitOf gateway.config.uploadLimit) ↔
        gateway.config.LimitsAgree node.client 0 0) :=
  ⟨fun _ _ _ => Gateway.requestAuthenticates_shapes_iff control,
    fun _ _ => Gateway.commandAuthenticates_shapes_iff control⟩

/-- A client is there, and both directions are limited by the configuration. -/
def limitedGateway : Gateway :=
  shapedGateway.step (1000, .request (defaultRequest "/" fun _ => none))

/-- It asks to be authenticated, and the script answers with limits. -/
def limitedRequest (output : String) : Request := tokenRequest ⟨.exited 0, output⟩

theorem limitedRequest_authenticates :
    limitedGateway.RequestAuthenticates (limitedRequest "3600 200 100\n") tokenNode
      ⟨3600, 200, 100⟩ :=
  ⟨⟨tokenNode, some "client_auth", none, by decide +kernel, by decide +kernel⟩,
    by decide +kernel, rfl⟩

theorem limitedGateway_config : limitedGateway.config.trafficControl = true ∧
    limitedGateway.config.downloadLimit = 1000 ∧ limitedGateway.config.uploadLimit = 500 := by
  decide +kernel

/-- A reply without limits, and a command for a client without an earlier
session. -/
theorem session_limits_installed_iff_configured :
    limitedGateway.ShapesTo (limitedGateway.libmicrohttpdCb (limitedRequest "3600\n")).2
        tokenNode.client (some 1000) (some 500) ∧
      limitedGateway.ShapesTo (limitedGateway.ndsctlAuth "192.168.42.10").2
        tokenNode.client (some 1000) (some 500) := by
  have asks : limitedGateway.RequestAuthenticates (limitedRequest "3600\n") tokenNode
      ⟨3600, 0, 0⟩ :=
    ⟨⟨tokenNode, some "client_auth", none, by decide +kernel, by decide +kernel⟩,
      by decide +kernel, rfl⟩
  have named : limitedGateway.CommandAuthenticates "192.168.42.10" tokenNode :=
    ⟨by decide +kernel, by decide, by decide +kernel, rfl⟩
  have nothing (configured : Int) (positive : 0 < configured) : LimitAgrees configured 0 0 :=
    ⟨fun absent => by omega, fun _ => .inl rfl⟩
  rcases limitedGateway_config with ⟨control, download, upload⟩
  have agree : limitedGateway.config.LimitsAgree tokenNode.client 0 0 :=
    ⟨nothing _ (by omega), nothing _ (by omega)⟩
  have installed := session_limits_installed_iff control
  have requested := (installed.1 _ _ _ asks).mpr agree
  have commanded := (installed.2 _ _ named).mpr agree
  rw [download, upload] at requested commanded
  exact ⟨requested, commanded⟩

/-- The client has had a session with limits of its own. -/
def endedGateway : Gateway :=
  ([(1000, .request (limitedRequest "3600 200 100\n")),
    (2000, .ndsctl true true (.deauth "192.168.42.10"))] : List (Int × Event)).foldl Gateway.step
      limitedGateway

def endedNode : Node :=
  ⟨0, { tokenNode.client with
    token := "00020003", counters := ⟨0, 0, 2000⟩, downloadLimit := 100, uploadLimit := 200 }⟩

/-- The limits of the reply are not installed for the session they are assigned
to, but for the next one, to which none are. -/
theorem limits_of_earlier_session :
    (mainLoop shapedEnvironment = some shapedGateway ∧
      DaemonRun shapedGateway
        [(1000, .request (defaultRequest "/" fun _ => none)),
          (1000, .request (limitedRequest "3600 200 100\n")),
          (2000, .ndsctl true true (.deauth "192.168.42.10"))] endedGateway) ∧
    (limitedGateway.RequestAuthenticates (limitedRequest "3600 200 100\n") tokenNode
        ⟨3600, 200, 100⟩ ∧
      ¬ limitedGateway.ShapesTo
        (limitedGateway.libmicrohttpdCb (limitedRequest "3600 200 100\n")).2 tokenNode.client
        (assignedLimit limitedGateway.config.downloadLimit 100)
        (assignedLimit limitedGateway.config.uploadLimit 200)) ∧
    endedGateway.CommandAuthenticates "192.168.42.10" endedNode ∧
      ¬ endedGateway.ShapesTo (endedGateway.ndsctlAuth "192.168.42.10").2 endedNode.client
        (limitOf endedGateway.config.downloadLimit) (limitOf endedGateway.config.uploadLimit) := by
  have ended : endedGateway.config.trafficControl = true ∧
      endedGateway.config.downloadLimit = 1000 ∧
      endedGateway.ndsctlId "192.168.42.10" = endedNode.client.id ∧
      endedGateway.clients.findById endedNode.client.id = some endedNode := by
    decide +kernel
  rcases ended with ⟨control, later, target, found⟩
  have named : endedGateway.CommandAuthenticates "192.168.42.10" endedNode :=
    ⟨target, by decide, found, rfl⟩
  rcases limitedGateway_config with ⟨first, download, _⟩
  refine ⟨⟨(Option.some_get mainLoop_shaped).symm,
    (Execution.run_ofFunction_iff _ _ _ _).mpr rfl⟩, ⟨limitedRequest_authenticates, ?_⟩, named, ?_⟩
  · intro shapes
    have agree : LimitAgrees limitedGateway.config.downloadLimit 0 100 :=
      ((Gateway.requestAuthenticates_shapes_iff first
        limitedRequest_authenticates).mp shapes).download
    rw [download] at agree
    have cases := agree.configured (by decide)
    omega
  · intro shapes
    have agree : LimitAgrees endedGateway.config.downloadLimit 100 0 :=
      ((Gateway.commandAuthenticates_shapes_iff control named).mp shapes).download
    rw [later] at agree
    have cases := agree.configured (by decide)
    omega

end Nodogsplash
