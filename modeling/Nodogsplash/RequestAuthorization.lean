import Nodogsplash.ClientIds

/-! # What a request may change

A request changes the state of the client it comes from only, and only when it
carries the client's token or asks for the denied directory. -/

namespace Nodogsplash

/-! ## BinAuth -/

/-- The command line that `do_binauth` runs, if it gets that far. -/
def binauthLine (request : Request) (binauth mac : String) : Option String := do
  let username ← uhUrlencode 64 ((request.argument "username").getD "")
  let password ← uhUrlencode 64 ((request.argument "password").getD "")
  binauthCommand binauth mac username password

/-- `do_binauth` accepts a script that is run, has the exit status 0 and whose
output does not end before the first conversion. -/
theorem isSome_doBinauth (request : Request) (binauth : String) (client : Client)
    (limits : SessionLimits) :
    (doBinauth request binauth client limits).isSome = true ↔
      (binauthLine request binauth client.mac).isSome = true ∧
        request.script.status.code = 0 ∧ 0 ≤ (sscanfDecimals 3 request.script.message).1 := by
  cases username : uhUrlencode 64 ((request.argument "username").getD "") with
  | none => simp [doBinauth, binauthLine, username]
  | some name =>
      cases password : uhUrlencode 64 ((request.argument "password").getD "") with
      | none => simp [doBinauth, binauthLine, username, password]
      | some word =>
          cases command : binauthCommand binauth client.mac name word with
          | none => simp [doBinauth, binauthLine, username, password, command]
          | some line =>
              by_cases status : request.script.status.code = 0
              · by_cases read : (sscanfDecimals 3 request.script.message).1 < 0
                · simp [doBinauth, binauthLine, username, password, command, status, read]
                · simp [doBinauth, binauthLine, username, password, command, status, read,
                    not_lt.mp read]
              · simp [doBinauth, binauthLine, username, password, command, status]

theorem code_eq_zero_iff (status : ScriptStatus) :
    status.code = 0 ↔ status = .exited 0 ∨ ∃ signal, status = .signaled signal := by
  cases status with
  | exited code =>
      simp only [ScriptStatus.code, ScriptStatus.exited.injEq, reduceCtorEq, exists_false,
        or_false]
      rw [Int.natCast_eq_zero, BitVec.toNat_eq]
      rfl
  | signaled signal => simp [ScriptStatus.code]
  | notStarted => simp [ScriptStatus.code]

namespace Request

def IsFrom (request : Request) (client : Client) : Prop :=
  request.mac = some client.mac ∧ request.ip = some client.ip

/-- The request carries the client's token to the directory that authenticates. -/
structure CarriesToken (request : Request) (config : Config) (client : Client) : Prop where
  host : isForeignHosts config request.host = false
  url : checkAuthdirMatch (bufferPathSimplify request.url) config.authdir = true
  token : request.argument "tok" = some client.token

structure Authenticates (request : Request) (config : Config) (client : Client) : Prop
    extends CarriesToken request config client where
  script : config.binauth.isSome = true → request.script.status = .exited 0

structure Denies (request : Request) (config : Config) : Prop where
  host : isForeignHosts config request.host = false
  url : checkAuthdirMatch (bufferPathSimplify request.url) config.denydir = true

/-- `do_binauth` returns 0 if there is a script. -/
def BinauthAccepts (request : Request) (config : Config) (client : Client) : Prop :=
  ∀ binauth, config.binauth = some binauth →
    (binauthLine request binauth client.mac).isSome = true ∧
      request.script.status.code = 0 ∧ 0 ≤ (sscanfDecimals 3 request.script.message).1

/-- The script is run for the client and a signal kills it, after it has printed
something that `sscanf` reads. -/
structure ScriptKilled (request : Request) (config : Config) (client : Client) : Prop
    extends CarriesToken request config client where
  run : ∃ binauth, config.binauth = some binauth ∧
    (binauthLine request binauth client.mac).isSome = true
  killed : ∃ signal, request.script.status = .signaled signal
  printed : 0 ≤ (sscanfDecimals 3 request.script.message).1

theorem ScriptKilled.binauthAccepts {request : Request} {config : Config} {client : Client}
    (killed : request.ScriptKilled config client) : request.BinauthAccepts config client := by
  intro binauth configured
  rcases killed.run with ⟨other, same, line⟩
  rw [configured] at same
  cases same
  exact ⟨line, (code_eq_zero_iff _).mpr (.inr killed.killed), killed.printed⟩

end Request

namespace Gateway

/-- The states of the clients differ only as the request allows. -/
def ChangesAuthorized (before : Gateway) (request : Request) (after : Gateway) : Prop :=
  ∀ node ∈ before.clients.nodes, ∃ changed ∈ after.clients.nodes,
    changed.address = node.address ∧
      (changed.client.fwConnectionState = node.client.fwConnectionState ∨
        request.IsFrom node.client ∧
          (node.client.fwConnectionState = preauthenticatedState ∧
              changed.client.fwConnectionState = before.marks.authenticated ∧
              request.Authenticates before.config node.client ∨
            node.client.fwConnectionState = before.marks.authenticated ∧
              changed.client.fwConnectionState = preauthenticatedState ∧
              request.Denies before.config))

/-- The client of a request has its addresses; finding or adding it leaves the
other clients alone. -/
theorem requestClient_spec {gateway next : Gateway} {request : Request} {node : Node}
    (found : gateway.requestClient request = (some node, next)) :
    node ∈ next.clients.nodes ∧ request.IsFrom node.client := by
  rw [requestClient] at found
  split at found
  · cases found
  · split at found
    · rename_i ip mac requestIp requestMac
      split at found
      · rename_i present lookup
        cases found
        rcases ClientList.mem_of_find lookup with ⟨member, sameMac, sameIp⟩
        exact ⟨member, by rw [Request.IsFrom, sameMac, sameIp]; exact ⟨requestMac, requestIp⟩⟩
      · rename_i absent
        refine ⟨mem_of_clientListAddClient found, ?_⟩
        rcases gateway.clientListAddClient_cases mac ip with
          ⟨_, present, _⟩ | ⟨_, _, _, _, _, appended, added⟩ | refused
        · rw [absent] at present
          cases present
        · rw [found] at added
          cases added
          rcases clientListAppend_eq appended with ⟨_, rfl, _⟩
          exact ⟨requestMac, requestIp⟩
        · rw [found] at refused
          cases refused
    · cases found

/-- The part of a request that finds its client only adds to the list. -/
theorem requestClient_frame (gateway : Gateway) (request : Request) :
    ∃ clients drawn, (gateway.requestClient request).2 =
        { gateway with clients := clients, drawn := drawn } ∧
      ∀ node ∈ gateway.clients.nodes, node ∈ clients.nodes := by
  rw [requestClient]
  split
  · exact ⟨gateway.clients, gateway.drawn, rfl, fun _ member => member⟩
  · split
    · split
      · exact ⟨gateway.clients, gateway.drawn, rfl, fun _ member => member⟩
      · exact gateway.clientListAddClient_frame _ _
    · exact ⟨gateway.clients, gateway.drawn, rfl, fun _ member => member⟩

theorem requestClient_keeps (gateway : Gateway) (request : Request) :
    (gateway.requestClient request).2.config = gateway.config ∧
      (gateway.requestClient request).2.marks = gateway.marks ∧
      ∀ node ∈ gateway.clients.nodes, node ∈ (gateway.requestClient request).2.clients.nodes := by
  rcases gateway.requestClient_frame request with ⟨clients, drawn, equal, kept⟩
  rw [equal]
  exact ⟨rfl, rfl, kept⟩

/-! ## The handlers -/

theorem authenticated_cases (config : Config) (request : Request) (client : Client) :
    (∃ response, authenticated config request (bufferPathSimplify request.url) client =
      .respond response) ∨
    (authenticated config request (bufferPathSimplify request.url) client =
        .deauthenticate client.id ∧ request.Denies config) := by
  rw [authenticated]
  split
  · exact .inl ⟨_, rfl⟩
  · rename_i ours
    split
    · rename_i denied
      exact .inr ⟨rfl, by simpa using ours, denied⟩
    · split
      · exact .inl ⟨_, rfl⟩
      · exact .inl ⟨_, rfl⟩

/-- `preauthenticated` answers itself, or it authenticates a client whose token
it has seen and which BinAuth accepts. -/
theorem preauthenticated_cases (config : Config) (request : Request) (client : Client) :
    (∃ response, preauthenticated config request (bufferPathSimplify request.url) client =
        .respond response ∧
      ¬ (request.CarriesToken config client ∧ request.BinauthAccepts config client)) ∨
    (∃ reason redirectUrl limits,
      preauthenticated config request (bufferPathSimplify request.url) client =
        .authenticate client.id reason redirectUrl limits ∧
      request.CarriesToken config client ∧ request.BinauthAccepts config client) := by
  rw [preauthenticated]
  split
  · rename_i foreign
    exact .inl ⟨_, rfl, fun carries => by simp [carries.1.host] at foreign⟩
  · rename_i ours
    split
    · rename_i url
      simp only [tryToAuthenticate, url, Bool.true_and]
      by_cases token : request.argument "tok" = some client.token
      · have carries : request.CarriesToken config client := ⟨by simpa using ours, url, token⟩
        simp only [token, decide_true, if_true, authenticateClient]
        cases binauth : config.binauth with
        | none =>
            right
            exact ⟨_, _, _, rfl, carries, fun _ configured => by simp [binauth] at configured⟩
        | some path =>
            have decided := isSome_doBinauth request path client
              ⟨toInt32 (60 * config.sessionTimeout), 0, 0⟩
            cases result : doBinauth request path client
                ⟨toInt32 (60 * config.sessionTimeout), 0, 0⟩ with
            | none =>
                left
                refine ⟨_, by simp only [result]; rfl, fun accepted => ?_⟩
                have accepts := decided.mpr (accepted.2 path binauth)
                rw [result] at accepts
                cases accepts
            | some limits =>
                right
                refine ⟨_, _, _, by simp only [result]; rfl, carries, fun other configured => ?_⟩
                rw [binauth] at configured
                cases configured
                exact decided.mp (by rw [result]; rfl)
      · left
        simp only [token, decide_false, Bool.false_eq_true, if_false]
        exact ⟨_, rfl, fun carries => token carries.1.token⟩
    · rename_i other
      have refused : ¬ (request.CarriesToken config client ∧
          request.BinauthAccepts config client) := fun carries => other carries.1.url
      split
      · exact .inl ⟨_, rfl, refused⟩
      · exact .inl ⟨_, rfl, refused⟩

/-! ## The states after a request -/

theorem ChangesAuthorized.refl (gateway : Gateway) (request : Request) :
    gateway.ChangesAuthorized request gateway :=
  fun node member => ⟨node, member, rfl, .inl rfl⟩

theorem exists_mem_modify {list : ClientList} (address : Nat) (change : Client → Client)
    {node : Node} (member : node ∈ list.nodes) :
    ∃ changed ∈ (list.modify address change).nodes, changed.address = node.address ∧
      (node.address = address → changed.client = change node.client) ∧
      (node.address ≠ address → changed.client = node.client) := by
  by_cases same : node.address = address
  · exact ⟨{ node with client := change node.client },
      ClientList.mem_modify.mpr (.inl ⟨node, member, same, rfl⟩), rfl, fun _ => rfl,
      fun different => absurd same different⟩
  · exact ⟨node, ClientList.mem_modify.mpr (.inr ⟨member, same⟩), rfl,
      fun equal => absurd equal same, fun _ => rfl⟩

def StatesWith (before : Gateway) (address : Nat) (state : BitVec 32) (after : Gateway) : Prop :=
  ∀ node ∈ before.clients.nodes, ∃ changed ∈ after.clients.nodes, changed.address = node.address ∧
    changed.client.fwConnectionState =
      if node.address = address then state else node.client.fwConnectionState

theorem enterAuthenticated_states (gateway : Gateway) (node : Node) (reason : Option String) :
    gateway.StatesWith node.address gateway.marks.authenticated
      (gateway.enterAuthenticated node reason) := by
  intro other member
  rw [enterAuthenticated_clients]
  rcases exists_mem_modify node.address (fun client =>
    { client with fwConnectionState := gateway.marks.authenticated }) member with
    ⟨changed, inList, address, same, different⟩
  refine ⟨changed, inList, address, ?_⟩
  split
  · rename_i equal
    rw [same equal]
  · rename_i unequal
    rw [different unequal]

theorem leaveAuthenticated_states (gateway : Gateway) (node : Node) (reason : Option String) :
    gateway.StatesWith node.address preauthenticatedState
      (gateway.leaveAuthenticated node reason) := by
  intro other member
  rw [leaveAuthenticated_clients]
  rcases exists_mem_modify node.address (resetFields gateway.clock gateway.drawToken.1) member with
    ⟨middle, inMiddle, middleAddress, _, middleDifferent⟩
  rcases exists_mem_modify node.address (fun client =>
    { client with fwConnectionState := preauthenticatedState }) inMiddle with
    ⟨changed, inList, address, same, different⟩
  refine ⟨changed, inList, address.trans middleAddress, ?_⟩
  split
  · rename_i equal
    rw [same (middleAddress.trans equal)]
  · rename_i unequal
    rw [different (by rwa [middleAddress]), middleDifferent unequal]

theorem StatesWith.assign {before middle : Gateway} {address : Nat} {state : BitVec 32}
    (states : before.StatesWith address state middle) (other : Nat) {change : Client → Client}
    (keeps : KeepsState change) : before.StatesWith address state
      (middle.modifyClient other change) := by
  intro node member
  rcases states node member with ⟨changed, inMiddle, sameAddress, sameState⟩
  rcases exists_mem_modify other change inMiddle with
    ⟨final, inList, finalAddress, same, different⟩
  refine ⟨final, inList, finalAddress.trans sameAddress, ?_⟩
  by_cases equal : changed.address = other
  · rw [same equal, keeps.state, sameState]
  · rw [different equal, sameState]

theorem StatesWith.changesAuthorized_iff {before after : Gateway} {node : Node}
    {state : BitVec 32} {request : Request} (states : before.StatesWith node.address state after)
    (member : node ∈ before.clients.nodes) (new : node.client.fwConnectionState ≠ state) :
    before.ChangesAuthorized request after ↔
      request.IsFrom node.client ∧
        (node.client.fwConnectionState = preauthenticatedState ∧
            state = before.marks.authenticated ∧ request.Authenticates before.config node.client ∨
          node.client.fwConnectionState = before.marks.authenticated ∧
            state = preauthenticatedState ∧ request.Denies before.config) := by
  rcases states node member with ⟨changed, inList, address, changedState⟩
  rw [if_pos rfl] at changedState
  constructor
  · intro authorized
    rcases authorized node member with ⟨other, otherMember, otherAddress, unchanged | allowed⟩
    · have equal := ClientList.eq_of_address inList otherMember (address.trans otherAddress.symm)
      rw [← equal, changedState] at unchanged
      exact absurd unchanged.symm new
    · have equal := ClientList.eq_of_address inList otherMember (address.trans otherAddress.symm)
      rwa [← equal, changedState] at allowed
  · intro allowed other otherMember
    rcases states other otherMember with ⟨result, inResult, resultAddress, resultState⟩
    refine ⟨result, inResult, resultAddress, ?_⟩
    by_cases same : other.address = node.address
    · rw [ClientList.eq_of_address otherMember member same] at resultState ⊢
      rw [if_pos rfl] at resultState
      rw [resultState]
      exact .inr allowed
    · rw [if_neg same] at resultState
      exact .inl resultState

/-- The client of the request is about to be authenticated for a script that
has been killed. -/
def KilledScriptCounts (gateway : Gateway) (request : Request) : Prop :=
  ∃ node, (gateway.requestClient request).1 = some node ∧
    node.client.fwConnectionState = preauthenticatedState ∧
    request.ScriptKilled gateway.config node.client

theorem libmicrohttpdCb_authorized_iff {gateway : Gateway} {request : Request}
    (identified : (gateway.requestClient request).2.clients.Identified) :
    (gateway.requestClient request).2.ChangesAuthorized request
        (gateway.libmicrohttpdCb request).2 ↔ ¬ gateway.KilledScriptCounts request := by
  have config := (gateway.requestClient_keeps request).1
  rw [KilledScriptCounts, ← config, libmicrohttpdCb]
  rcases result : gateway.requestClient request with ⟨client, found⟩
  rw [result] at identified
  simp only at identified ⊢
  have unchanged : found.ChangesAuthorized request found := .refl found request
  cases client with
  | none => exact iff_of_true unchanged (by simp)
  | some node =>
      rcases requestClient_spec result with ⟨member, source⟩
      have itself := identified.findById_self member
      have different := preauthenticated_ne_authenticated found.marks
      simp only [Option.some.injEq, exists_eq_left', not_and]
      by_cases routed : node.client.fwConnectionState = found.marks.authenticated ∨
          node.client.fwConnectionState = found.marks.trusted
      · have notFresh : node.client.fwConnectionState ≠ preauthenticatedState := by
          rcases routed with state | state
          · rw [state]
            exact different.symm
          · rw [state]
            exact found.marks.trusted_ne_zero
        rw [route, if_pos routed]
        rcases authenticated_cases found.config request node.client with
          ⟨response, decision⟩ | ⟨decision, denies⟩
        · rw [decision]
          exact iff_of_true unchanged fun state => absurd state notFresh
        · rw [decision]
          refine iff_of_true ?_ fun state => absurd state notFresh
          simp only [authClientDeauth, itself]
          by_cases state : node.client.fwConnectionState = found.marks.authenticated
          · rw [authChangeState_of_authenticated found _ state]
            exact ((leaveAuthenticated_states found node _).changesAuthorized_iff member
              notFresh).mpr ⟨source, .inr ⟨state, rfl, denies⟩⟩
          · rw [authChangeState_refused found _ _ notFresh state]
            exact unchanged
      · rw [route, if_neg routed]
        rcases preauthenticated_cases found.config request node.client with
          ⟨response, decision, refused⟩ |
          ⟨reason, redirectUrl, limits, decision, carries, accepts⟩
        · rw [decision]
          exact iff_of_true unchanged fun _ killed => refused ⟨killed.1, killed.binauthAccepts⟩
        · rw [decision]
          simp only [authClientAuth, itself]
          by_cases state : node.client.fwConnectionState = preauthenticatedState
          · have notAuthenticated : node.client.fwConnectionState ≠ found.marks.authenticated := by
              rw [state]
              exact different
            rw [authChangeState_of_preauthenticated found _ state]
            simp only [ne_eq, not_true_eq_false, if_false]
            have states : found.StatesWith node.address found.marks.authenticated
                { found.enterAuthenticated node reason with authenticatedSinceStart :=
                    (found.enterAuthenticated node reason).authenticatedSinceStart + 1 } :=
              enterAuthenticated_states found node reason
            refine ((states.assign node.address
              (sessionFields_keeps _ limits)).changesAuthorized_iff member
                notAuthenticated).trans ?_
            constructor
            · rintro ⟨_, ⟨_, _, authenticates⟩ | ⟨other, _⟩⟩ _ killed
              · rcases killed.run with ⟨_, configured, _⟩
                rcases killed.killed with ⟨signal, status⟩
                have exited := authenticates.script (by rw [configured]; rfl)
                rw [status] at exited
                cases exited
              · exact notAuthenticated other
            · intro notKilled
              refine ⟨source, .inl ⟨state, rfl, carries, fun configured => ?_⟩⟩
              rcases Option.isSome_iff_exists.mp configured with ⟨binauth, path⟩
              rcases accepts binauth path with ⟨line, code, printed⟩
              rcases (code_eq_zero_iff _).mp code with exited | killed
              · exact exited
              · exact absurd ⟨carries, ⟨binauth, path, line⟩, killed, printed⟩ (notKilled state)
          · rw [authChangeState_refused found _ _ state fun equal => routed (.inl equal)]
            exact iff_of_true unchanged fun equal => absurd equal state

end Gateway

/-- In every run without a state file, a request finds its client or adds it
and then changes only what the client's own token or a visit to the denied
directory entitles it to, unless it is let in by a script that was killed. -/
theorem requests_authorized_iff {environment : Environment} {initial gateway : Gateway}
    {events : List (Int × Event)} (noFile : environment.stateFile = .missing)
    (started : mainLoop environment = some initial) (run : DaemonRun initial events gateway)
    (request : Request)
    (few : (gateway.requestClient request).2.clients.created < 2 ^ 31) :
    let found := (gateway.requestClient request).2
    ((∀ node ∈ gateway.clients.nodes, node ∈ found.clients.nodes) ∧
        found.ChangesAuthorized request (gateway.libmicrohttpdCb request).2) ↔
      ¬ gateway.KilledScriptCounts request := by
  intro found
  rcases Gateway.numbered_of_run noFile started run with ⟨keeps, numbered⟩
  have whole : initial.KeepsIds (gateway.requestClient request).2 :=
    keeps.trans (Gateway.requestClient_transitions gateway fun _ _ => trivial).keepsIds
  have identified := (whole.numbered few numbered).toIdentified
  have authorized := Gateway.libmicrohttpdCb_authorized_iff identified
  have kept := (gateway.requestClient_keeps request).2.2
  constructor
  · rintro ⟨_, changes⟩
    exact authorized.mp changes
  · intro notKilled
    exact ⟨kept, authorized.mpr notKilled⟩

/-- A request of the new client to the directory that authenticates, with the
token it has got. -/
def tokenRequest (script : ScriptResult) : Request :=
  { defaultRequest "/nodogsplash_auth/" fun name =>
      if name = "tok" then some "00000001" else none with script := script }

theorem requests_authorized_iff_default :
    let gateway := defaultGateway.step (1000, .request (defaultRequest "/" fun _ => none))
    let request := tokenRequest ⟨.exited 0, ""⟩
    let found := (gateway.requestClient request).2
    ((∀ node ∈ gateway.clients.nodes, node ∈ found.clients.nodes) ∧
        found.ChangesAuthorized request (gateway.libmicrohttpdCb request).2) ↔
      ¬ gateway.KilledScriptCounts request :=
  requests_authorized_iff rfl mainLoop_defaultGateway (.single rfl) _ (by decide +kernel)

/-- The default installation with a BinAuth script. -/
def binauthEnvironment : Environment :=
  { defaultEnvironment with config.binauth := some "/etc/nodogsplash/binauth.sh" }

theorem mainLoop_binauth : (mainLoop binauthEnvironment).isSome = true := by
  decide +kernel

def binauthGateway : Gateway := (mainLoop binauthEnvironment).get mainLoop_binauth

theorem mainLoop_binauthGateway : mainLoop binauthEnvironment = some binauthGateway :=
  (Option.some_get mainLoop_binauth).symm

/-- A script that grants an hour and is killed lets the client in. -/
theorem killed_script_authenticates :
    let gateway := binauthGateway.step (1000, .request (defaultRequest "/" fun _ => none))
    let request := tokenRequest ⟨.signaled 9, "3600 0 0\n"⟩
    let found := (gateway.requestClient request).2
    mainLoop binauthEnvironment = some binauthGateway ∧
      DaemonRun binauthGateway [(1000, .request (defaultRequest "/" fun _ => none))] gateway ∧
      found.clients.created < 2 ^ 31 ∧
      ¬ found.ChangesAuthorized request (gateway.libmicrohttpdCb request).2 := by
  intro gateway request found
  have ids : found.clients.ids = [1] := by decide +kernel
  have identified : found.clients.Identified := ⟨by simp [ids], by simp [ids]⟩
  refine ⟨mainLoop_binauthGateway, .single rfl, by decide +kernel, ?_⟩
  rw [Gateway.libmicrohttpdCb_authorized_iff identified, not_not]
  exact ⟨⟨0, { defaultClient 1 "00:16:3e:00:00:01" "192.168.42.10" with token := "00000001" }⟩,
    by decide +kernel, rfl, ⟨by decide +kernel, by decide +kernel, by decide +kernel⟩,
    ⟨"/etc/nodogsplash/binauth.sh", by decide +kernel, by decide +kernel⟩, ⟨9, rfl⟩,
    by decide +kernel⟩

end Nodogsplash
