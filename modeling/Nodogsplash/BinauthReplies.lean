import Nodogsplash.AuthenticationFailures
import Nodogsplash.RequestAuthorization

/-! # The replies of BinAuth

What a script prints decides how long the session of its client is. The first
number of a reply, and what `sscanf` and the clamping make of it. -/

namespace Nodogsplash

/-! ## The number a text starts with -/

/-- The number of seconds a text starts with: white space, an optional sign and
decimal digits. -/
def leadingNumber (chars : List Char) : Option Int :=
  match chars.dropWhile isSpace with
  | [] => none
  | char :: rest =>
      let digits := if char = '-' || char = '+' then rest else char :: rest
      let number := digits.takeWhile Char.isDigit
      if number.isEmpty then none
      else some (if char = '-' then -decimalValue number else decimalValue number)

def isBlank (chars : List Char) : Bool := (chars.dropWhile isSpace).isEmpty

theorem leadingNumber_of_isBlank {chars : List Char} (blank : isBlank chars = true) :
    leadingNumber chars = none := by
  rw [isBlank, List.isEmpty_iff] at blank
  rw [leadingNumber, blank]

theorem leadingNumber_append {front : List Char} (rest : List Char)
    (read : (leadingNumber front).isSome = true) :
    (leadingNumber (front ++ rest)).isSome = true := by
  rw [leadingNumber] at read
  rw [leadingNumber, List.dropWhile_append]
  cases trimmed : front.dropWhile isSpace with
  | nil => simp [trimmed] at read
  | cons char chars =>
      have longer (digits : List Char) (some : (digits.takeWhile Char.isDigit).isEmpty = false) :
          ((digits ++ rest).takeWhile Char.isDigit).isEmpty = false := by
        cases digits with
        | nil => simp at some
        | cons digit digits =>
            rw [List.cons_append, List.takeWhile_cons] at *
            split at some
            · next isDigit => rw [if_pos isDigit]; rfl
            · simp at some
      simp only [trimmed] at read
      simp only [List.isEmpty_cons, Bool.false_eq_true, if_false, List.cons_append]
      by_cases signed : (char = '-' || char = '+') = true
      · simp only [if_pos signed] at read ⊢
        have digits : (chars.takeWhile Char.isDigit).isEmpty = false := by simpa using read
        simp [longer _ digits]
      · simp only [if_neg signed] at read ⊢
        have digits : ((char :: chars).takeWhile Char.isDigit).isEmpty = false := by
          simpa using read
        have more := longer _ digits
        rw [List.cons_append] at more
        simp [more]

theorem scanDecimal_spec (chars : List Char) :
    (isBlank chars = true ∧ scanDecimal chars = .endOfInput) ∨
      (isBlank chars = false ∧ leadingNumber chars = none ∧
        scanDecimal chars = .matchingFailure) ∨
      ∃ number rest, isBlank chars = false ∧ leadingNumber chars = some number ∧
        scanDecimal chars = .value (storeInt number) rest := by
  cases trimmed : chars.dropWhile isSpace with
  | nil => simp [isBlank, scanDecimal, trimmed]
  | cons char rest =>
      right
      have text : isBlank chars = false := by rw [isBlank, trimmed]; rfl
      simp only [leadingNumber, scanDecimal, trimmed]
      generalize (if (char = '-' || char = '+') = true then rest else char :: rest) = digits
      by_cases empty : (digits.takeWhile Char.isDigit).isEmpty = true
      · exact .inl ⟨text, if_pos empty, if_pos empty⟩
      · exact .inr ⟨_, _, text, if_neg empty, if_neg empty⟩

theorem sscanfDecimals_seconds (chars : List Char) (limits : SessionLimits) :
    (0 ≤ (sscanfDecimals 3 chars).1 ↔ isBlank chars = false) ∧
      (limits.assign (sscanfDecimals 3 chars).2).seconds =
        match leadingNumber chars with
        | some number => max (storeInt number) 0
        | none => limits.seconds := by
  rcases scanDecimal_spec chars with ⟨blank, scanned⟩ | ⟨text, absent, scanned⟩ |
    ⟨number, rest, text, present, scanned⟩
  · rw [leadingNumber_of_isBlank blank, sscanfDecimals, scanned, blank]
    exact ⟨by decide, rfl⟩
  · rw [absent, sscanfDecimals, scanned, text]
    exact ⟨by decide, rfl⟩
  · rw [present, sscanfDecimals, scanned, text]
    dsimp only
    generalize sscanfDecimals 2 rest = others
    rcases others with ⟨result, numbers⟩
    constructor
    · simp only [iff_true]
      omega
    · rcases numbers with _ | ⟨upload, _ | ⟨download, others⟩⟩ <;> rfl

/-! ## Sessions -/

/-- `session_end` of a session of so many seconds. -/
def sessionEndAfter (now seconds : Int) : Int := if seconds ≠ 0 then now + seconds else 0

/-- The default of `authenticate_client`. -/
def Config.defaultSeconds (config : Config) : Int := toInt32 (60 * config.sessionTimeout)

/-- What the documentation says of a client that a reply lets in, and of the end
of its session. -/
structure ReplyFollowed (config : Config) (script : ScriptResult) (now sessionEnd : Int) :
    Prop where
  accepted : script.status = .exited 0 ∧
    ∀ number, leadingNumber script.output.toList = some number → 0 < number
  granted : ∀ number, leadingNumber script.output.toList = some number → 0 < number →
    number < 2 ^ 31 → sessionEnd = now + number
  unlimited : sessionEnd = 0 →
    leadingNumber script.output.toList = none ∧ config.sessionTimeout = 0

/-- The reply does not meet the shortcuts of `do_binauth`: the script was not
killed, and its output starts with no number, or with a positive one that is in
the buffer and in the range of `int`. A larger number has to be positive as it
is stored. -/
def ReplyPlain (config : Config) (script : ScriptResult) (now : Int) : Prop :=
  script.status = .exited 0 ∧
    match leadingNumber script.output.toList with
    | none => config.sessionTimeout = 0 ∨
        config.defaultSeconds ≠ 0 ∧ now + config.defaultSeconds ≠ 0
    | some number => 0 < number ∧
        match leadingNumber script.message with
        | some kept => 0 < storeInt kept ∧ now + storeInt kept ≠ 0 ∧
            (number < 2 ^ 31 → storeInt kept = number)
        -- only a sign of the number is in the buffer
        | none => config.defaultSeconds ≠ 0 ∧ now + config.defaultSeconds ≠ 0 ∧
            (number < 2 ^ 31 → config.defaultSeconds = number)

theorem leadingNumber_message {script : ScriptResult}
    (read : (leadingNumber script.message).isSome = true) :
    (leadingNumber script.output.toList).isSome = true := by
  have split : script.output.toList = script.message ++
      ((script.output.toList.take 253).dropWhile (fun char => decide (char ≠ '\x00')) ++
        script.output.toList.drop 253) := by
    rw [← List.append_assoc, ScriptResult.message, List.takeWhile_append_dropWhile,
      List.take_append_drop]
  rw [split]
  exact leadingNumber_append _ read

def ScriptResult.seconds (script : ScriptResult) (default : Int) : Int :=
  match leadingNumber script.message with
  | some number => max (storeInt number) 0
  | none => default

theorem replyFollowed_iff (config : Config) (script : ScriptResult) (now : Int) :
    ReplyFollowed config script now
        (sessionEndAfter now (script.seconds config.defaultSeconds)) ↔
      ReplyPlain config script now := by
  rw [ReplyPlain]
  cases printed : leadingNumber script.output.toList with
  | none =>
      have kept : leadingNumber script.message = none := by
        by_contra some
        have more := leadingNumber_message (Option.isSome_iff_ne_none.mpr some)
        rw [printed] at more
        cases more
      simp only [ScriptResult.seconds, kept, sessionEndAfter]
      constructor
      · intro followed
        refine ⟨followed.accepted.1, ?_⟩
        by_contra neither
        rw [not_or, not_and, ne_eq] at neither
        refine neither.1 (followed.unlimited ?_).2
        split
        · next nonzero => exact not_not.mp (neither.2 nonzero)
        · rfl
      · rintro ⟨exited, fits⟩
        refine ⟨⟨exited, by simp [printed]⟩, by simp [printed], fun zero => ⟨printed, ?_⟩⟩
        rcases fits with timeout | ⟨nonzero, later⟩
        · exact timeout
        · rw [if_pos nonzero] at zero
          exact absurd zero later
  | some number =>
      have given (sessionEnd : Int) : ReplyFollowed config script now sessionEnd ↔
          script.status = .exited 0 ∧ 0 < number ∧ sessionEnd ≠ 0 ∧
            (number < 2 ^ 31 → sessionEnd = now + number) := by
        constructor
        · intro followed
          have positive := followed.accepted.2 number printed
          refine ⟨followed.accepted.1, positive, ?_, followed.granted number printed positive⟩
          intro zero
          have absent := (followed.unlimited zero).1
          rw [printed] at absent
          cases absent
        · rintro ⟨exited, positive, nonzero, granted⟩
          refine ⟨⟨exited, ?_⟩, ?_, fun zero => absurd zero nonzero⟩
          · intro other same
            rw [printed] at same
            cases same
            exact positive
          · intro other same _
            rw [printed] at same
            cases same
            exact granted
      rw [given]
      refine and_congr_right fun _ => and_congr_right fun positive => ?_
      cases kept : leadingNumber script.message with
      | some stored =>
          simp only [ScriptResult.seconds, kept, sessionEndAfter]
          by_cases above : 0 < storeInt stored
          · rw [max_eq_left (by omega), if_pos (by omega)]
            constructor <;> rintro ⟨first, rest⟩
            · exact ⟨above, first, fun small => by have := rest small; omega⟩
            · exact ⟨rest.1, fun small => by rw [rest.2 small]⟩
          · rw [max_eq_right (by omega), if_neg (by decide)]
            exact iff_of_false (fun both => both.1 rfl) (fun both => above both.1)
      | none =>
          simp only [ScriptResult.seconds, kept, sessionEndAfter]
          by_cases nonzero : config.defaultSeconds = 0
          · rw [if_neg (by simpa using nonzero)]
            exact iff_of_false (fun both => both.1 rfl) (fun both => both.1 nonzero)
          · rw [if_pos nonzero]
            constructor <;> rintro ⟨first, rest⟩
            · exact ⟨nonzero, first, fun small => by have := rest small; omega⟩
            · exact ⟨rest.1, fun small => by rw [rest.2 small]⟩

theorem doBinauth_seconds {request : Request} {binauth : String} {client : Client}
    {limits granted : SessionLimits}
    (accepted : doBinauth request binauth client limits = some granted) :
    granted.seconds = request.script.seconds limits.seconds := by
  simp only [doBinauth, Option.bind_eq_bind, Option.bind_eq_some_iff] at accepted
  rcases accepted with ⟨_, _, _, _, _, _, accepted⟩
  split at accepted
  · simp at accepted
  · simp only [Option.pure_def] at accepted
    split at accepted
    · simp at accepted
    · simp only [Option.some.injEq] at accepted
      rw [← accepted]
      exact (sscanfDecimals_seconds request.script.message limits).2

namespace Gateway

variable {gateway : Gateway} {node : Node} {request : Request}

/-! ## Requests -/

theorem route_of_token {binauth : String}
    (state : node.client.fwConnectionState = preauthenticatedState)
    (carries : request.CarriesToken gateway.config node.client)
    (configured : gateway.config.binauth = some binauth) :
    gateway.route request node.client =
      match doBinauth request binauth node.client ⟨gateway.config.defaultSeconds, 0, 0⟩ with
      | none => .respond (encodeAndRedirectToSplashpage gateway.config
          (gateway.config.redirectURL <|> request.argument "redir"))
      | some limits => .authenticate node.client.id (some "client_auth")
          (gateway.config.redirectURL <|> request.argument "redir") limits := by
  have fresh : ¬ (node.client.fwConnectionState = gateway.marks.authenticated ∨
      node.client.fwConnectionState = gateway.marks.trusted) := by
    rw [state, not_or]
    exact ⟨preauthenticated_ne_authenticated gateway.marks,
      fun equal => gateway.marks.trusted_ne_zero equal.symm⟩
  have valid : tryToAuthenticate gateway.config request node.client
      (bufferPathSimplify request.url) = true := by
    simp [tryToAuthenticate, carries.url, carries.token]
  rw [route, if_neg fresh, preauthenticated]
  simp only [carries.host, carries.url, valid, Bool.false_eq_true, if_false, if_true]
  simp only [authenticateClient, configured]
  rfl

/-- The reply of the script counts for the client: the script is run, it returns
what `do_binauth` takes for 0 and prints something, and the client is the one
that `auth_client_auth` finds. -/
structure ReplyCounts (gateway : Gateway) (request : Request) (binauth : String) (node : Node) :
    Prop where
  run : (binauthLine request binauth node.client.mac).isSome = true
  code : request.script.status.code = 0
  printed : isBlank request.script.message = false
  found : gateway.clients.findById node.client.id = some node

theorem enterAuthenticated_clock (gateway : Gateway) (node : Node) (reason : Option String) :
    (gateway.enterAuthenticated node reason).clock = gateway.clock := by
  simp only [enterAuthenticated, record, setState, modifyClient, binauthAction,
    iptablesFwAuthenticate]

theorem sessionEnd_sessionFields (now : Int) (limits : SessionLimits) (client : Client) :
    (sessionFields now limits client).sessionEnd = sessionEndAfter now limits.seconds := rfl

theorem preauthenticated_of_modify_ne {list : ClientList} {address : Nat}
    {change : Client → Client} {final : Node} (member : node ∈ list.nodes)
    (different : node.address ≠ address) (atLast : final ∈ (list.modify address change).nodes)
    (same : final.address = node.address) : final = node := by
  rcases ClientList.mem_modify.mp atLast with ⟨source, _, equal, rfl⟩ | ⟨inList, _⟩
  · exact absurd (same.symm.trans equal) different
  · exact ClientList.eq_of_address inList member same

theorem authClientAuth_of_other {reason : Option String} {final : Node}
    (member : node ∈ gateway.clients.nodes)
    (lookup : gateway.clients.findById node.client.id ≠ some node)
    (atLast : final ∈ (gateway.authClientAuth node.client.id reason).2.clients.nodes)
    (same : final.address = node.address) : final = node := by
  rw [authClientAuth] at atLast
  split at atLast
  · exact ClientList.eq_of_address atLast member same
  · next other lookedUp =>
      have inList := (ClientList.mem_of_findById lookedUp).1
      have different : node.address ≠ other.address := by
        intro equal
        have itself := ClientList.eq_of_address member inList equal
        exact lookup (lookedUp.trans (congrArg some itself.symm))
      rcases gateway.authChangeState_cases other gateway.marks.authenticated reason with
        ⟨_, _, entered⟩ | ⟨_, target, _⟩ | ⟨_, target, _⟩ | refused
      · rw [entered] at atLast
        dsimp only at atLast
        rw [enterAuthenticated_clients] at atLast
        exact preauthenticated_of_modify_ne member different atLast same
      · exact absurd target.symm (preauthenticated_ne_authenticated gateway.marks)
      · exact absurd target gateway.marks.authenticated_ne_blocked
      · rw [refused] at atLast
        exact ClientList.eq_of_address atLast member same

theorem state_of_sessionFields {list : ClientList} {now : Int} {limits : SessionLimits}
    {final : Node}
    (atLast : final ∈ (list.modify node.address (sessionFields now limits)).nodes)
    (same : final.address = node.address) : ∃ before ∈ list.nodes,
      before.address = node.address ∧ final.client = sessionFields now limits before.client := by
  rcases ClientList.mem_modify.mp atLast with ⟨source, inList, equal, rfl⟩ | ⟨_, different⟩
  · exact ⟨source, inList, equal, rfl⟩
  · exact absurd same different

end Gateway

open Gateway in
/-- A request with a valid token leads to what the documentation says of the
reply of the script exactly when the reply does not count or is plain. -/
theorem binauth_reply_followed_iff {gateway next : Gateway} {request : Request} {node : Node}
    {binauth : String}
    (found : gateway.requestClient request = (some node, next))
    (state : node.client.fwConnectionState = preauthenticatedState)
    (carries : request.CarriesToken next.config node.client)
    (configured : next.config.binauth = some binauth) :
    (∀ final ∈ (gateway.libmicrohttpdCb request).2.clients.nodes, final.address = node.address →
      final.client.fwConnectionState = next.marks.authenticated →
        ReplyFollowed next.config request.script next.clock final.client.sessionEnd) ↔
      (next.ReplyCounts request binauth node →
        ReplyPlain next.config request.script next.clock) := by
  have member := (requestClient_spec found).1
  have fresh : node.client.fwConnectionState ≠ next.marks.authenticated := by
    rw [state]
    exact preauthenticated_ne_authenticated next.marks
  rw [libmicrohttpdCb, found]
  simp only [route_of_token state carries configured]
  have accepts := isSome_doBinauth request binauth node.client
    ⟨next.config.defaultSeconds, 0, 0⟩
  rw [(sscanfDecimals_seconds request.script.message ⟨0, 0, 0⟩).1] at accepts
  cases decided : doBinauth request binauth node.client ⟨next.config.defaultSeconds, 0, 0⟩ with
  | none =>
      rw [decided] at accepts
      refine iff_of_true ?_ fun counts => ?_
      · intro final inList same authenticated
        rw [ClientList.eq_of_address inList member same] at authenticated
        exact absurd authenticated fresh
      · have refused := accepts.mpr ⟨counts.run, counts.code, counts.printed⟩
        cases refused
  | some limits =>
      rw [decided] at accepts
      have seconds := doBinauth_seconds decided
      rcases accepts.mp rfl with ⟨run, code, printed⟩
      dsimp only
      by_cases lookup : next.clients.findById node.client.id = some node
      · have authenticated := authClientAuth_of_preauthenticated (some "client_auth") lookup state
        rw [authenticated]
        simp only [ne_eq, not_true_eq_false, if_false, enterAuthenticated_clock]
        have counts : next.ReplyCounts request binauth node := ⟨run, code, printed, lookup⟩
        rw [← replyFollowed_iff, ← seconds]
        constructor
        · intro followed _
          have entered : { node with client :=
              { node.client with fwConnectionState := next.marks.authenticated } } ∈
                (next.enterAuthenticated node (some "client_auth")).clients.nodes := by
            rw [enterAuthenticated_clients]
            exact ClientList.mem_modify.mpr (.inl ⟨node, member, rfl, rfl⟩)
          have ended := followed _ (ClientList.mem_modify.mpr (.inl ⟨_, entered, rfl, rfl⟩)) rfl rfl
          rwa [sessionEnd_sessionFields] at ended
        · intro plain final atLast same _
          rcases state_of_sessionFields atLast same with ⟨before, _, _, equal⟩
          rw [equal, sessionEnd_sessionFields]
          exact plain counts
      · refine iff_of_true ?_ fun counts => absurd counts.found lookup
        intro final atLast same authenticated
        split at atLast
        · rw [authClientAuth_of_other member lookup atLast same] at authenticated
          exact absurd authenticated fresh
        · rcases state_of_sessionFields atLast same with ⟨before, inList, address, equal⟩
          rw [equal, authClientAuth_of_other member lookup inList address] at authenticated
          exact absurd authenticated fresh

/-- The client that the first request of the default client adds. -/
def tokenNode : Node :=
  ⟨0, { defaultClient 1 "00:16:3e:00:00:01" "192.168.42.10" with token := "00000001" }⟩

def askingGateway : Gateway :=
  binauthGateway.step (1000, .request (defaultRequest "/" fun _ => none))

theorem binauth_reply_followed_iff_hour :
    let request := tokenRequest ⟨.exited 0, "3600 0 0\n"⟩
    let next := (askingGateway.requestClient request).2
    (∀ final ∈ (askingGateway.libmicrohttpdCb request).2.clients.nodes,
      final.address = tokenNode.address →
        final.client.fwConnectionState = next.marks.authenticated →
          ReplyFollowed next.config request.script next.clock final.client.sessionEnd) ↔
      (next.ReplyCounts request "/etc/nodogsplash/binauth.sh" tokenNode →
        ReplyPlain next.config request.script next.clock) := by
  intro request next
  have client : (askingGateway.requestClient request).1 = some tokenNode := by decide +kernel
  have found : askingGateway.requestClient request = (some tokenNode, next) := Prod.ext client rfl
  have configured : next.config.binauth = some "/etc/nodogsplash/binauth.sh" := by
    decide +kernel
  have carries : request.CarriesToken next.config tokenNode.client :=
    ⟨by decide +kernel, by decide +kernel, by decide +kernel⟩
  exact binauth_reply_followed_iff found rfl carries configured

/-- A script that grants no time lets the client in, and without limit. -/
theorem no_seconds_unlimited :
    let request := tokenRequest ⟨.exited 0, "0\n"⟩
    let next := (askingGateway.requestClient request).2
    let final := (askingGateway.libmicrohttpdCb request).2
    request.mac = some tokenNode.client.mac ∧
      request.CarriesToken next.config tokenNode.client ∧
      next.config.binauth = some "/etc/nodogsplash/binauth.sh" ∧
      (∃ node ∈ final.clients.nodes, node.address = tokenNode.address ∧
        node.client.fwConnectionState = next.marks.authenticated ∧ node.client.sessionEnd = 0) ∧
      ¬ ∀ node ∈ final.clients.nodes, node.address = tokenNode.address →
        node.client.fwConnectionState = next.marks.authenticated →
          ReplyFollowed next.config request.script next.clock node.client.sessionEnd := by
  intro request next final
  have admitted : ∃ node ∈ final.clients.nodes, node.address = tokenNode.address ∧
      node.client.fwConnectionState = next.marks.authenticated ∧ node.client.sessionEnd = 0 := by
    decide +kernel
  refine ⟨by decide +kernel, ⟨by decide +kernel, by decide +kernel, by decide +kernel⟩,
    by decide +kernel, admitted, fun followed => ?_⟩
  rcases admitted with ⟨node, inList, address, state, _⟩
  have positive := (followed node inList address state).accepted.2 0 (by decide)
  omega

end Nodogsplash
