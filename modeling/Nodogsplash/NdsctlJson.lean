import Mathlib.Data.Rat.Floor
import Nodogsplash.ByteCounters
import Nodogsplash.RequestAuthorization
import Nodogsplash.Foundation.JsonText

/-! # The client list as JSON

`ndsctl json` prints the client list line by line. Names and texts are printed as they are,
and a speed is divided by the duration of the session. -/

namespace Nodogsplash

open JsonText

/-! ## The code -/

/-- `fw_connection_state_as_string`. -/
def fwConnectionStateAsString (marks : Marks) (mark : BitVec 32) : String :=
  if mark = preauthenticatedState then "Preauthenticated"
  else if mark = marks.authenticated then "Authenticated"
  else if mark = marks.trusted then "Trusted"
  else if mark = marks.blocked then "Blocked"
  else "ERROR: unrecognized mark"

/-- `durationsecs`. -/
def durationSecs (client : Client) (now : Int) : Nat := toUInt64 (now - client.sessionStart)

def speed (bytes duration : Nat) : ℚ := bytes / 125 / duration

def nearestEven (value : ℚ) : ℤ :=
  if Int.fract value = 1 / 2 ∧ ⌊value⌋ % 2 = 0 then ⌊value⌋ else round value

/-- `%.2f` of a speed. The code computes it as a `double`, whose last digit may differ where
the quotient is no `double`. A division by zero gives no number. -/
def printSpeed (bytes duration : Nat) : List Char :=
  if duration = 0 then if bytes = 0 then "-nan".toList else "inf".toList
  else twoDecimals (nearestEven (speed bytes duration * 100)).toNat

-- 0.125 kbit/s
example : printSpeed 125 8 = "0.12".toList := by decide +kernel

/-- `"%s"`. -/
def quoted (text : String) : List Char := '"' :: (text.toList ++ ['"'])

def printLine (name : String) (value ending : List Char) : List Char :=
  '"' :: (name.toList ++ '"' :: ':' :: (value ++ ending))

/-- `ndsctl_json_client`. -/
def ndsctlJsonClient (marks : Marks) (client : Client) (now : Int) : List Char :=
  let comma := [',', '\n']
  let duration := durationSecs client now
  printLine "id" (decimal client.id.toInt) comma ++
    printLine "ip" (quoted client.ip) comma ++
    printLine "mac" (quoted client.mac) comma ++
    printLine "added" (decimal client.sessionStart) comma ++
    printLine "active" (decimal client.counters.lastUpdated) comma ++
    printLine "duration"
      (decimal (if client.sessionStart ≠ 0 then now - client.sessionStart else 0)) comma ++
    printLine "token" (quoted client.token) comma ++
    printLine "state" (quoted (fwConnectionStateAsString marks client.fwConnectionState)) comma ++
    printLine "downloaded" (decimal (client.counters.incoming / 1000 : Nat)) comma ++
    printLine "avg_down_speed" (printSpeed client.counters.incoming duration) comma ++
    printLine "uploaded" (decimal (client.counters.outgoing / 1000 : Nat)) comma ++
    printLine "avg_up_speed" (printSpeed client.counters.outgoing duration) ['\n']

/-- The loop of `ndsctl_json_all`. -/
def ndsctlJsonClients (marks : Marks) (now : Int) : List Client → List Char
  | [] => []
  | client :: rest =>
      '"' :: (client.mac.toList ++ ['"', ':', '{', '\n']) ++ ndsctlJsonClient marks client now ++
        (if rest.isEmpty then ['}', '\n'] else ['}', ',', '\n']) ++
        ndsctlJsonClients marks now rest

/-- `ndsctl_json_all` behind its call of `iptables_fw_counters_update`. -/
def printJson (gateway : Gateway) (now : Int) : List Char :=
  let clients := gateway.clients.nodes.map Node.client
  '{' :: '\n' :: printLine "client_length" (' ' :: decimal gateway.clients.clientCount)
      [',', '\n'] ++
    "\"clients\":".toList ++ ['{', '\n'] ++ ndsctlJsonClients gateway.marks.toMarks now clients ++
    ['}', '\n', '}', '\n']

/-- `ndsctl_json_all` at a time. -/
def ndsctlJsonAll (outgoingRead incomingRead : Bool) (gateway : Gateway) (now : Int) : List Char :=
  printJson (Gateway.iptablesFwCountersUpdate outgoingRead incomingRead
    { gateway with clock := now }).2 now

/-! ## What is promised -/

/-- The text is a JSON document that lists the clients in their order, each under its own
key, and no speed is divided by zero. -/
@[mk_iff]
structure ListsClients (clients : List Client) (now : Int) (text : List Char) : Prop where
  document : ∃ members,
    Document text (.object
      [("client_length".toList.flatMap units, .number (decimal clients.length)),
        ("clients".toList.flatMap units, .object members)]) ∧
    (members.map Prod.fst).Nodup ∧
    List.Forall₂ (fun client member => content client.mac.toList = some member.1) clients members
  divisors : ∀ client ∈ clients, durationSecs client now ≠ 0

/-- What is printed as it is can stand in a JSON string, no two keys are equal, and no session
started at this time. -/
@[mk_iff]
structure Printable (clients : List Client) (now : Int) : Prop where
  macs : ∀ client ∈ clients, (content client.mac.toList).isSome = true
  tokens : ∀ client ∈ clients, (content client.token.toList).isSome = true
  distinct : (clients.map fun client => content client.mac.toList).Nodup
  earlier : ∀ client ∈ clients, client.sessionStart ≠ now

/-! ## The lines -/

def clientLines (marks : Marks) (client : Client) (now : Int) : List Printed :=
  let number (name : String) (value : Int) : Printed :=
    ⟨name.toList, decimal value, (· = .number (decimal value))⟩
  let text (name value : String) : Printed :=
    ⟨name.toList, quoted value, fun meant =>
      ∃ string, content value.toList = some string ∧ meant = .string string⟩
  let speed (name : String) (bytes : Nat) : Printed :=
    ⟨name.toList, printSpeed bytes (durationSecs client now), fun meant =>
      durationSecs client now ≠ 0 ∧
        meant = .number (printSpeed bytes (durationSecs client now))⟩
  [number "id" client.id.toInt, text "ip" client.ip, text "mac" client.mac,
    number "added" client.sessionStart, number "active" client.counters.lastUpdated,
    number "duration" (if client.sessionStart ≠ 0 then now - client.sessionStart else 0),
    text "token" client.token,
    text "state" (fwConnectionStateAsString marks client.fwConnectionState),
    number "downloaded" (client.counters.incoming / 1000 : Nat),
    speed "avg_down_speed" client.counters.incoming,
    number "uploaded" (client.counters.outgoing / 1000 : Nat),
    speed "avg_up_speed" client.counters.outgoing]

def clientEntry (marks : Marks) (now : Int) (client : Client) : Printed where
  name := client.mac.toList
  text := objectText (clientLines marks client now)
  meaning value := ∃ members,
    List.Forall₂ Printed.IsMember (clientLines marks client now) members ∧ value = .object members

theorem ndsctlJsonClient_eq (marks : Marks) (client : Client) (now : Int) :
    ndsctlJsonClient marks client now = joined (clientLines marks client now) ++ ['\n'] := by
  simp only [ndsctlJsonClient, printLine, joined, clientLines, Printed.line, List.map_cons,
    List.map_nil, List.intercalate_cons_cons, List.intercalate_singleton, List.append_assoc,
    List.cons_append, List.nil_append]

theorem line_clientEntry (marks : Marks) (now : Int) (client : Client) :
    (clientEntry marks now client).line =
      '"' :: (client.mac.toList ++ ['"', ':', '{', '\n'] ++ ndsctlJsonClient marks client now ++
        ['}']) := by
  have lines : (clientLines marks client now).isEmpty = false := rfl
  rw [ndsctlJsonClient_eq, Printed.line, clientEntry, objectText, lines]
  simp

theorem ndsctlJsonClients_eq (marks : Marks) (now : Int) (clients : List Client) :
    ndsctlJsonClients marks now clients =
      joined (clients.map (clientEntry marks now)) ++
        (if clients.isEmpty then [] else ['\n']) := by
  induction clients with
  | nil => rfl
  | cons client clients induction =>
      rw [ndsctlJsonClients, induction, joined, joined, List.map_map, List.map_map, List.map_cons,
        Function.comp_apply, line_clientEntry]
      cases clients with
      | nil => simp
      | cons second clients =>
          rw [List.map_cons, List.intercalate_cons_cons]
          simp

def documentLines (gateway : Gateway) (now : Int) : List Printed :=
  [⟨"client_length".toList, ' ' :: decimal gateway.clients.clientCount,
      (· = .number (decimal gateway.clients.clientCount))⟩,
    ⟨"clients".toList,
      objectText ((gateway.clients.nodes.map Node.client).map
        (clientEntry gateway.marks.toMarks now)),
      fun value => ∃ members,
        List.Forall₂ Printed.IsMember ((gateway.clients.nodes.map Node.client).map
          (clientEntry gateway.marks.toMarks now)) members ∧ value = .object members⟩]

theorem printJson_eq (gateway : Gateway) (now : Int) :
    printJson gateway now = objectText (documentLines gateway now) ++ ['\n'] := by
  have clients : "\"clients\":".toList = '"' :: ("clients".toList ++ ['"', ':']) := by decide
  rw [printJson, ndsctlJsonClients_eq, clients]
  simp [documentLines, objectText, joined, printLine, Printed.line, List.intercalate_cons_cons]

/-! ## The lines are as they are said -/

theorem means_printSpeed (bytes duration : Nat) :
    Means (printSpeed bytes duration) fun value =>
      duration ≠ 0 ∧ value = .number (printSpeed bytes duration) := by
  by_cases zero : duration = 0
  · have nothing : Means (printSpeed bytes duration) fun _ => False := by
      rw [printSpeed, if_pos zero]
      split
      · exact means_no_number ['-'] rfl (List.forall_mem_singleton.mpr rfl)
          (List.cons_ne_nil _ _) rfl
      · exact means_nothing rfl fun value => by
          cases value with
          | boolean value => cases value <;> rfl
          | _ => rfl
    simpa [zero] using nothing
  · have number := means_twoDecimals (nearestEven (speed bytes duration * 100)).toNat
    simpa [printSpeed, zero] using number

theorem content_ip {ip : String} (valid : checkIpFormat ip = true) :
    (content ip.toList).isSome = true := by
  have plain : ∀ char ∈ ip.toList, char ≠ '"' ∧ char ≠ '\\' ∧ 32 ≤ char.toNat := by
    intro char member
    rw [← scanAddress_of_valid valid, Gateway.scanAddress, String.toList_ofList] at member
    have accepted := List.mem_takeWhile_imp member
    simp only [Char.isDigit, Bool.or_eq_true, Bool.and_eq_true, decide_eq_true_eq] at accepted
    rcases accepted with ⟨lower, upper⟩ | rfl
    · have code : 48 ≤ char.toNat := lower
      refine ⟨?_, ?_, by omega⟩ <;> rintro rfl <;> simp at code upper
    · decide
  rw [content_plain plain]
  rfl

theorem content_state (marks : Marks) (mark : BitVec 32) :
    (content (fwConnectionStateAsString marks mark).toList).isSome = true := by
  rw [fwConnectionStateAsString]
  split
  · decide
  · split
    · decide
    · split
      · decide
      · split <;> decide

section

variable {marks : Marks} {client : Client} {now : Int}

theorem content_names (marks : Marks) (client : Client) (now : Int) :
    ∀ printed ∈ clientLines marks client now, (content printed.name).isSome = true := by
  have names : (clientLines marks client now).all
      (fun printed => (content printed.name).isSome) = true := by rfl
  exact List.all_eq_true.mp names

theorem good_clientLines (validIp : checkIpFormat client.ip = true)
    (mac : (content client.mac.toList).isSome = true ∨ Unclosed client.mac.toList)
    (token : (content client.token.toList).isSome = true ∨ Unclosed client.token.toList) :
    ∀ printed ∈ clientLines marks client now, printed.Good := by
  intro printed member
  refine ⟨.inl (content_names marks client now printed member), ?_⟩
  revert printed
  simp only [clientLines, List.forall_mem_cons]
  exact ⟨means_decimal _, means_string (.inl (content_ip validIp)), means_string mac,
    means_decimal _, means_decimal _, means_decimal _, means_string token,
    means_string (.inl (content_state _ _)), means_decimal _, means_printSpeed _ _,
    means_decimal _, means_printSpeed _ _, fun _ member => absurd member List.not_mem_nil⟩

theorem exists_isMember_iff {printed : Printed} (name : (content printed.name).isSome = true) :
    (∃ member, printed.IsMember member) ↔ ∃ value, printed.meaning value := by
  rcases Option.isSome_iff_exists.mp name with ⟨key, known⟩
  exact ⟨fun ⟨member, is⟩ => ⟨member.2, is.meaning⟩,
    fun ⟨value, means⟩ => ⟨(key, value), known, means⟩⟩

theorem exists_string_iff {text : List Char} :
    (∃ value, ∃ string, content text = some string ∧ value = Value.string string) ↔
      (content text).isSome = true := by
  rw [Option.isSome_iff_exists]
  exact ⟨fun ⟨_, string, known, _⟩ => ⟨string, known⟩,
    fun ⟨string, known⟩ => ⟨_, string, known, rfl⟩⟩

/-- The object of a client is one if its texts are strings and its speeds are numbers. -/
theorem exists_members_iff (marks : Marks) (validIp : checkIpFormat client.ip = true) :
    (∃ members, List.Forall₂ Printed.IsMember (clientLines marks client now) members) ↔
      (content client.mac.toList).isSome = true ∧ (content client.token.toList).isSome = true ∧
        durationSecs client now ≠ 0 := by
  rw [exists_forall₂_iff]
  have named : (∀ printed ∈ clientLines marks client now, ∃ member, printed.IsMember member) ↔
      ∀ printed ∈ clientLines marks client now, ∃ value, printed.meaning value :=
    forall₂_congr fun printed member =>
      exists_isMember_iff (content_names marks client now printed member)
  rw [named]
  simp only [clientLines, List.forall_mem_cons, exists_string_iff, exists_eq, true_and,
    exists_and_left, and_true, content_ip validIp, content_state]
  constructor
  · rintro ⟨mac, token, duration, _⟩
    exact ⟨mac, token, duration⟩
  · rintro ⟨mac, token, duration⟩
    exact ⟨mac, token, duration, duration, fun _ member => absurd member List.not_mem_nil⟩

theorem good_clientEntry (validIp : checkIpFormat client.ip = true)
    (mac : (content client.mac.toList).isSome = true ∨ Unclosed client.mac.toList)
    (token : (content client.token.toList).isSome = true ∨ Unclosed client.token.toList) :
    (clientEntry marks now client).Good where
  -- the line ends before a quotation mark could close the name
  name := mac.imp_right fun within => ⟨within, fun _ => rfl⟩
  text := means_objectText (good_clientLines validIp mac token)

theorem exists_entry_iff (validIp : checkIpFormat client.ip = true) :
    (∃ member, (clientEntry marks now client).IsMember member) ↔
      (content client.mac.toList).isSome = true ∧ (content client.token.toList).isSome = true ∧
        durationSecs client now ≠ 0 := by
  rw [← exists_members_iff marks validIp]
  constructor
  · rintro ⟨member, is⟩
    rcases is.meaning with ⟨members, all, _⟩
    exact ⟨members, all⟩
  · rintro ⟨members, all⟩
    have mac := ((exists_members_iff marks validIp).mp ⟨members, all⟩).1
    rcases Option.isSome_iff_exists.mp mac with ⟨key, known⟩
    exact ⟨(key, .object members), known, members, all, rfl⟩

end

/-! ## The document -/

section

variable {gateway : Gateway} {now : Int}

/-- No name and no token has a closing quotation mark of its own, or they are JSON strings. -/
def Closes (client : Client) : Prop :=
  ((content client.mac.toList).isSome = true ∨ Unclosed client.mac.toList) ∧
    ((content client.token.toList).isSome = true ∨ Unclosed client.token.toList)

theorem content_documentNames :
    content "client_length".toList = some ("client_length".toList.flatMap units) ∧
      content "clients".toList = some ("clients".toList.flatMap units) := by
  decide

theorem good_documentLines (valid : gateway.ValidAddresses)
    (closes : ∀ node ∈ gateway.clients.nodes, Closes node.client) :
    ∀ printed ∈ documentLines gateway now, printed.Good := by
  have entries : ∀ printed ∈ (gateway.clients.nodes.map Node.client).map
      (clientEntry gateway.marks.toMarks now), printed.Good := by
    simp only [List.forall_mem_map]
    intro node member
    exact good_clientEntry (valid node member).2 (closes node member).1 (closes node member).2
  rcases content_documentNames with ⟨length, clients⟩
  simp only [documentLines, List.forall_mem_cons]
  exact ⟨⟨.inl (Option.isSome_of_eq_some length), (means_decimal _).blank rfl⟩,
    ⟨.inl (Option.isSome_of_eq_some clients), means_objectText entries⟩,
    fun _ member => absurd member List.not_mem_nil⟩

theorem document_printJson_iff (valid : gateway.ValidAddresses)
    (closes : ∀ node ∈ gateway.clients.nodes, Closes node.client)
    (members : List (List Nat × Value)) :
    Document (printJson gateway now) (.object
        [("client_length".toList.flatMap units,
          .number (decimal (gateway.clients.nodes.map Node.client).length)),
          ("clients".toList.flatMap units, .object members)]) ↔
      List.Forall₂ Printed.IsMember ((gateway.clients.nodes.map Node.client).map
        (clientEntry gateway.marks.toMarks now)) members := by
  have count : gateway.clients.clientCount = (gateway.clients.nodes.map Node.client).length := by
    rw [List.length_map]
    exact gateway.clients.counted
  rw [printJson_eq, document_objectText (good_documentLines valid closes), documentLines, count]
  constructor
  · rintro ⟨found, all, same⟩
    cases same
    cases all with
    | cons _ others =>
        cases others with
        | cons clients _ =>
            rcases clients.meaning with ⟨listed, entries, same⟩
            cases same
            exact entries
  · intro entries
    rcases content_documentNames with ⟨length, clients⟩
    exact ⟨_, .cons ⟨length, rfl⟩ (.cons ⟨clients, members, entries, rfl⟩ .nil), rfl⟩

theorem map_key {clients : List Client} {members : List (List Nat × Value)}
    (named : List.Forall₂ (fun client member => content client.mac.toList = some member.1)
      clients members) :
    clients.map (fun client => content client.mac.toList) =
      (members.map Prod.fst).map some := by
  induction named with
  | nil => rfl
  | cons first _ induction =>
      rw [List.map_cons, List.map_cons, List.map_cons, first, induction]

theorem durationSecs_ne_zero_iff {client : Client} (current : 0 ≤ now - client.sessionStart)
    (fits : now - client.sessionStart < 2 ^ 63) :
    durationSecs client now ≠ 0 ↔ client.sessionStart ≠ now := by
  have small : (now - client.sessionStart) % 2 ^ 64 = now - client.sessionStart :=
    Int.emod_eq_of_lt current (by omega)
  rw [durationSecs, toUInt64, small]
  omega

theorem exists_entries_iff (valid : gateway.ValidAddresses)
    (current : ∀ node ∈ gateway.clients.nodes,
      0 ≤ now - node.client.sessionStart ∧ now - node.client.sessionStart < 2 ^ 63) :
    (∃ members, List.Forall₂ Printed.IsMember ((gateway.clients.nodes.map Node.client).map
        (clientEntry gateway.marks.toMarks now)) members) ↔
      ∀ client ∈ gateway.clients.nodes.map Node.client,
        (content client.mac.toList).isSome = true ∧ (content client.token.toList).isSome = true ∧
          client.sessionStart ≠ now := by
  simp only [exists_forall₂_iff, List.forall_mem_map]
  refine forall₂_congr fun node member => ?_
  rw [exists_entry_iff (valid node member).2,
    durationSecs_ne_zero_iff (current node member).1 (current node member).2]

theorem listsClients_printJson_iff (valid : gateway.ValidAddresses)
    (closes : ∀ node ∈ gateway.clients.nodes, Closes node.client)
    (current : ∀ node ∈ gateway.clients.nodes,
      0 ≤ now - node.client.sessionStart ∧ now - node.client.sessionStart < 2 ^ 63) :
    ListsClients (gateway.clients.nodes.map Node.client) now (printJson gateway now) ↔
      Printable (gateway.clients.nodes.map Node.client) now := by
  have listed (members : List (List Nat × Value))
      (entries : List.Forall₂ Printed.IsMember ((gateway.clients.nodes.map Node.client).map
        (clientEntry gateway.marks.toMarks now)) members) :
      List.Forall₂ (fun client member => content client.mac.toList = some member.1)
        (gateway.clients.nodes.map Node.client) members :=
    (List.forall₂_map_left_iff.mp entries).imp fun _ _ is => is.name
  have each := exists_entries_iff valid current
  have divisors : (∀ client ∈ gateway.clients.nodes.map Node.client, durationSecs client now ≠ 0) ↔
      ∀ client ∈ gateway.clients.nodes.map Node.client, client.sessionStart ≠ now := by
    simp only [List.forall_mem_map]
    exact forall₂_congr fun node member =>
      durationSecs_ne_zero_iff (current node member).1 (current node member).2
  constructor
  · rintro ⟨⟨members, document, distinct, _⟩, _⟩
    have entries := (document_printJson_iff valid closes members).mp document
    have all := each.mp ⟨members, entries⟩
    refine ⟨fun client member => (all client member).1,
      fun client member => (all client member).2.1, ?_,
      fun client member => (all client member).2.2⟩
    rw [map_key (listed members entries)]
    exact distinct.map (Option.some_injective _)
  · rintro ⟨macs, tokens, distinct, earlier⟩
    rcases each.mpr fun client member =>
      ⟨macs client member, tokens client member, earlier client member⟩ with ⟨members, entries⟩
    have named := listed members entries
    refine ⟨⟨members, (document_printJson_iff valid closes members).mpr entries, ?_, named⟩,
      divisors.mpr earlier⟩
    rw [map_key named] at distinct
    exact distinct.of_map some

end

/-! ## Runs -/

theorem exists_countNode (outgoingRead incomingRead : Bool) (gateway : Gateway) :
    ∃ change, (Gateway.iptablesFwCountersUpdate outgoingRead incomingRead gateway).2.clients.nodes =
      gateway.clients.nodes.map (Gateway.countNode change) := by
  cases outgoingRead with
  | false => exact ⟨fun _ counters => counters, by simp [Gateway.iptablesFwCountersUpdate]⟩
  | true => exact ⟨_, Gateway.nodes_iptablesFwCountersUpdate incomingRead gateway⟩

section

variable {nodes : List Node} (change : Node → Counters → Counters) {now : Int}

theorem listsClients_countNode {text : List Char} :
    ListsClients ((nodes.map (Gateway.countNode change)).map Node.client) now text ↔
      ListsClients (nodes.map Node.client) now text := by
  simp only [listsClients_iff, List.length_map, List.forall_mem_map, List.map_map,
    List.forall₂_map_left_iff]
  exact Iff.rfl

theorem printable_countNode :
    Printable ((nodes.map (Gateway.countNode change)).map Node.client) now ↔
      Printable (nodes.map Node.client) now := by
  simp only [printable_iff, List.forall_mem_map, List.map_map]
  exact Iff.rfl

end

/-- In every reachable state, what is printable is printed as a document. Where no name and
no token closes its own string, nothing else is. -/
theorem ndsctlJsonAll_lists_iff {environment : Environment} {initial final : Gateway}
    {events : List (Int × Event)} (started : mainLoop environment = some initial)
    (run : DaemonRun initial events final) (outgoingRead incomingRead : Bool) {now : Int}
    (current : ∀ node ∈ final.clients.nodes,
      0 ≤ now - node.client.sessionStart ∧ now - node.client.sessionStart < 2 ^ 63) :
    (Printable (final.clients.nodes.map Node.client) now →
        ListsClients (final.clients.nodes.map Node.client) now
          (ndsctlJsonAll outgoingRead incomingRead final now)) ∧
      ((∀ node ∈ final.clients.nodes,
          Unclosed node.client.mac.toList ∧ Unclosed node.client.token.toList) →
        ListsClients (final.clients.nodes.map Node.client) now
          (ndsctlJsonAll outgoingRead incomingRead final now) →
        Printable (final.clients.nodes.map Node.client) now) := by
  let updated := (Gateway.iptablesFwCountersUpdate outgoingRead incomingRead
    { final with clock := now }).2
  have reached : Gateway.Transitions (.all .sessions) initial updated :=
    ((Gateway.run_transitions run).tail (.clock final now)).trans
      (Gateway.iptablesFwCountersUpdate_transitions _ _ _)
  have valid := (validAddresses_of_started started).transitions reached
  rcases exists_countNode outgoingRead incomingRead { final with clock := now } with ⟨change, same⟩
  have nodes : updated.clients.nodes = final.clients.nodes.map (Gateway.countNode change) := same
  have printed (closes : ∀ node ∈ final.clients.nodes, Closes node.client) :
      ListsClients (final.clients.nodes.map Node.client) now
          (ndsctlJsonAll outgoingRead incomingRead final now) ↔
        Printable (final.clients.nodes.map Node.client) now := by
    rw [← listsClients_countNode change, ← printable_countNode change, ← nodes]
    apply listsClients_printJson_iff valid
    · rw [nodes]
      simp only [List.forall_mem_map]
      exact closes
    · rw [nodes]
      simp only [List.forall_mem_map]
      exact current
  constructor
  · intro printable
    refine (printed fun node member => ?_).mpr printable
    have inList := List.mem_map_of_mem (f := Node.client) member
    exact ⟨.inl (printable.macs _ inList), .inl (printable.tokens _ inList)⟩
  · intro unclosed
    exact (printed fun node member =>
      ⟨.inr (unclosed node member).1, .inr (unclosed node member).2⟩).mp

/-- A client asks for the splash page and authenticates. -/
def authenticatingVisit : List (Int × Event) :=
  [(1000, .request (defaultRequest "/" fun _ => none)),
    (1005, .request (tokenRequest ⟨.exited 0, ""⟩))]

/-- A device asks for the splash page from two addresses. -/
def sharedMacVisit : List (Int × Event) :=
  [(1000, .request (defaultRequest "/" fun _ => none)),
    (1001, .request { defaultRequest "/" (fun _ => none) with ip := some "192.168.42.11" })]

def twoVisits : List (Int × Event) :=
  authenticatingVisit ++ [(1005, .request (requestFrom "192.168.42.11" "00:16:3e:00:00:02"))]

theorem ndsctlJsonAll_lists_iff_visits :
    let final := twoVisits.foldl Gateway.step defaultGateway
    final.clients.nodes.map (·.client.mac) = ["00:16:3e:00:00:01", "00:16:3e:00:00:02"] ∧
      ListsClients (final.clients.nodes.map Node.client) 1006
        (ndsctlJsonAll true true final 1006) :=
  ⟨by decide +kernel, (ndsctlJsonAll_lists_iff mainLoop_defaultGateway ((Execution.run_ofFunction_iff _ _ _ _).mpr rfl)
    true true (by decide +kernel)).1
      ⟨by decide +kernel, by decide +kernel, by decide +kernel, by decide +kernel⟩⟩

/-- Two entries for one MAC have one key, and a session that has just started has no speed. -/
theorem shared_mac_loses_client :
    mainLoop defaultEnvironment = some defaultGateway ∧
      (let final := sharedMacVisit.foldl Gateway.step defaultGateway
       DaemonRun defaultGateway sharedMacVisit final ∧
        ¬ ListsClients (final.clients.nodes.map Node.client) 2000
          (ndsctlJsonAll true true final 2000)) ∧
      (let final := authenticatingVisit.foldl Gateway.step defaultGateway
       DaemonRun defaultGateway authenticatingVisit final ∧
        ¬ ListsClients (final.clients.nodes.map Node.client) 1005
          (ndsctlJsonAll true true final 1005)) := by
  refine ⟨mainLoop_defaultGateway, ⟨(Execution.run_ofFunction_iff _ _ _ _).mpr rfl, ?_⟩,
    (Execution.run_ofFunction_iff _ _ _ _).mpr rfl, ?_⟩
  · rintro ⟨⟨members, _, distinct, named⟩, _⟩
    have repeated : ¬ (((sharedMacVisit.foldl Gateway.step defaultGateway).clients.nodes.map
        Node.client).map fun client => content client.mac.toList).Nodup := by decide +kernel
    rw [map_key named] at repeated
    exact repeated (distinct.map (Option.some_injective _))
  · rintro ⟨_, divisors⟩
    have started : ¬ ∀ client ∈ (authenticatingVisit.foldl Gateway.step
        defaultGateway).clients.nodes.map Node.client, durationSecs client 1005 ≠ 0 := by
      decide +kernel
    exact started divisors

end Nodogsplash
