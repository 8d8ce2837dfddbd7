import Nodogsplash.MacCommands
import Nodogsplash.Import
import Nodogsplash.Start

/-! # MAC addresses in shell commands

`iptables_do_command` hands its formatted text to a shell. The commands with a
MAC address that the operations of `ndsctl` and the import of the state file
run, with the address as it stands in their text. -/

namespace Nodogsplash

/-! ## Command lines -/

/-- The arguments of one iptables command, taken apart at the `%s` that follows
`--mac-source`. -/
structure MacLine where
  before : String
  mac : String
  after : String
  deriving DecidableEq

/-- `%x`. -/
def hexText (value : BitVec 32) : String := String.ofList (Nat.toDigits 16 value.toNat)

def MarkOp.text : MarkOp → String
  | .setMark => "--set-mark"
  | .orMark => "--or-mark"

namespace MacLine

/-- What `iptables_do_command` runs. -/
def command (ip6 : Bool) (line : MacLine) : String :=
  (if ip6 then "ip6tables" else "iptables") ++ " --wait " ++ line.before ++ line.mac ++ line.after

def Fits (ip6 : Bool) (line : MacLine) : Prop := (line.command ip6).length < queryMaxLen

instance (ip6 : Bool) (line : MacLine) : Decidable (line.Fits ip6) :=
  inferInstanceAs (Decidable (_ < _))

/-- The address consists of hexadecimal digits and colons only. -/
def Clean (line : MacLine) : Prop := ∀ char ∈ line.mac.toList, isMacChar char = true

end MacLine

/-- The command of `iptables_block_mac` and of the other five. -/
def MacCommand.line (markop : MarkOp) (marks : Marks) (mac : String) : MacCommand → MacLine
  | .block => ⟨"-t mangle -A ndsBLK -m mac --mac-source ", mac,
      " -j MARK " ++ markop.text ++ " 0x" ++ hexText marks.blocked⟩
  | .unblock => ⟨"-t mangle -D ndsBLK -m mac --mac-source ", mac,
      " -j MARK " ++ markop.text ++ " 0x" ++ hexText marks.blocked⟩
  | .allow => ⟨"-t mangle -I ndsBLK -m mac --mac-source ", mac, " -j RETURN"⟩
  | .unallow => ⟨"-t mangle -D ndsBLK -m mac --mac-source ", mac, " -j RETURN"⟩
  | .trust => ⟨"-t mangle -A ndsTRU -m mac --mac-source ", mac,
      " -j MARK " ++ markop.text ++ " 0x" ++ hexText marks.trusted⟩
  | .untrust => ⟨"-t mangle -D ndsTRU -m mac --mac-source ", mac,
      " -j MARK " ++ markop.text ++ " 0x" ++ hexText marks.trusted⟩

theorem MacCommand.mac_line (markop : MarkOp) (marks : Marks) (mac : String)
    (command : MacCommand) : (command.line markop marks mac).mac = mac := by
  cases command <;> rfl

/-- `execute` runs a command only if it fits. -/
def Config.shellLines (config : Config) (line : MacLine) : List MacLine :=
  if line.Fits config.ip6 then [line] else []

theorem mem_shellLines {config : Config} {line run : MacLine} :
    run ∈ config.shellLines line ↔ line.Fits config.ip6 ∧ run = line := by
  rw [Config.shellLines]
  split
  · next fits => simp [fits]
  · next long => simp [long]

/-! ## Texts that are kept -/

structure PlainMac (text : String) : Prop where
  chars : ∀ char ∈ text.toList, isMacChar char = true
  short : text.toList.length ≤ 17

theorem takeWhile_take_eq_self_iff {α : Type} (keep : α → Bool) (limit : Nat) (list : List α) :
    (list.take limit).takeWhile keep = list ↔
      (∀ element ∈ list, keep element = true) ∧ list.length ≤ limit := by
  constructor
  · intro whole
    have shorter := (List.takeWhile_sublist keep (l := list.take limit)).length_le
    rw [whole, List.length_take] at shorter
    refine ⟨fun element member => ?_, by omega⟩
    rw [← whole] at member
    exact List.mem_takeWhile_imp member
  · rintro ⟨kept, short⟩
    rw [List.take_of_length_le short]
    exact List.takeWhile_eq_self_iff.mpr kept

theorem scanMac_eq_self_iff (text : String) : scanMac text = text ↔ PlainMac text := by
  have scanned : scanMac text = text ↔
      (text.toList.take 17).takeWhile isMacChar = text.toList := by
    constructor
    · intro equal
      have lists := congrArg String.toList equal
      rwa [scanMac, String.toList_ofList] at lists
    · intro equal
      apply String.toList_injective
      rw [scanMac, String.toList_ofList]
      exact equal
  rw [scanned, takeWhile_take_eq_self_iff]
  exact ⟨fun both => ⟨both.1, both.2⟩, fun plain => ⟨plain.chars, plain.short⟩⟩

/-! ## The commands of ndsctl -/

namespace MacCommand

def Edits (command : MacCommand) (text : String) (before after : List String) : Prop :=
  if command.adds then after = text :: before
  else ∃ front back, before = front ++ text :: back ∧ after = front ++ back

/-- An argument that is put on the list or taken off it as it is. -/
structure Faithful (command : MacCommand) (mac : String) (entries : List String) : Prop where
  plain : PlainMac mac
  spelled : command.adds = false → entries.find? (sameIgnoringCase · mac) = some mac

variable {command : MacCommand} {mac : String} {entries : List String}

theorem removed_unique {text other : String} {before after front back : List String}
    (whole : before = front ++ text :: back) (rest : after = front ++ back)
    (removed : ∃ front back, before = front ++ other :: back ∧ after = front ++ back) :
    other = text := by
  rcases removed with ⟨otherFront, otherBack, otherWhole, otherRest⟩
  have first : before.Perm (text :: after) := by
    rw [whole, rest]
    exact List.perm_middle
  have second : before.Perm (other :: after) := by
    rw [otherWhole, otherRest]
    exact List.perm_middle
  have counts := (first.symm.trans second).count_eq text
  rw [List.count_cons_self, List.count_cons] at counts
  by_contra different
  rw [if_neg (by simpa using different)] at counts
  omega

theorem length_of_sameIgnoringCase {left right : String}
    (same : sameIgnoringCase left right = true) :
    left.toList.length = right.toList.length := by
  rw [sameIgnoringCase, beq_iff_eq] at same
  have lengths := congrArg List.length same
  rwa [List.length_map, List.length_map] at lengths

theorem length_scanMac_le (text : String) : (scanMac text).toList.length ≤ 17 := by
  rw [scanMac, String.toList_ofList]
  have shorter := (List.takeWhile_sublist isMacChar (l := text.toList.take 17)).length_le
  have front := List.length_take_le 17 text.toList
  exact shorter.trans front

/-- An edit concerns the argument itself exactly if the argument is kept as a
whole and, where it is to be removed, is the entry that is found. -/
theorem edits_iff (present : command.adds = false →
      entries.any (sameIgnoringCase · (scanMac mac)) = true) :
    ((∀ char ∈ mac.toList, isMacChar char = true) ∧
        command.Edits mac entries (command.editEntries mac entries)) ↔
      command.Faithful mac entries := by
  rw [Edits, editEntries]
  cases adding : command.adds with
  | true =>
      rw [if_pos rfl, if_pos rfl]
      constructor
      · rintro ⟨_, stored⟩
        have same := List.head_eq_of_cons_eq stored
        exact ⟨(scanMac_eq_self_iff mac).mp same, fun removes => by cases adding.symm.trans removes⟩
      · intro faithful
        refine ⟨faithful.plain.chars, ?_⟩
        rw [(scanMac_eq_self_iff mac).mpr faithful.plain]
  | false =>
      rw [if_neg (by decide), if_neg (by decide)]
      rcases List.any_eq_true.mp (present adding) with ⟨_, member, matching⟩
      rcases List.exists_of_eraseP (p := (sameIgnoringCase · (scanMac mac))) member matching with
        ⟨entry, front, back, earlier, found, whole, rest⟩
      have finds : entries.find? (sameIgnoringCase · (scanMac mac)) = some entry := by
        apply List.find?_eq_some_iff_append.mpr
        exact ⟨found, front, back, whole, fun other inFront => by simpa using earlier other inFront⟩
      constructor
      · rintro ⟨chars, removed⟩
        have itself := removed_unique whole rest removed
        subst itself
        have short := length_of_sameIgnoringCase found
        have plain : PlainMac mac := ⟨chars, short.le.trans (length_scanMac_le mac)⟩
        rw [(scanMac_eq_self_iff mac).mpr plain] at finds
        exact ⟨plain, fun _ => finds⟩
      · intro faithful
        rw [(scanMac_eq_self_iff mac).mpr faithful.plain, faithful.spelled adding] at finds
        cases finds
        exact ⟨faithful.plain.chars, front, back, whole, rest⟩

end MacCommand

namespace Gateway

/-- The commands that the operation of `ndsctl` on a MAC list runs. -/
def macLines (gateway : Gateway) (mac : String) (command : MacCommand) : List MacLine :=
  if (command.edit gateway.config mac).1 = 0 then
    gateway.config.shellLines (command.line gateway.firewall.markop gateway.marks.toMarks mac)
  else []

/-- The address in the command is clean and is the text that is put on the list
or taken off it. -/
def MacTextClean (gateway : Gateway) (mac : String) (command : MacCommand) : Prop :=
  ∀ line ∈ gateway.macLines mac command, line.Clean ∧
    command.Edits line.mac (command.list.entries gateway.config)
      (command.list.entries (gateway.macOperation mac command).2.config)

/-- The operation runs its command. -/
structure RunsMacCommand (gateway : Gateway) (mac : String) (command : MacCommand) : Prop where
  edits : command.EditsList gateway.config mac
  fits : (command.line gateway.firewall.markop gateway.marks.toMarks mac).Fits gateway.config.ip6

variable {gateway : Gateway} {mac : String} {command : MacCommand}

theorem mem_macLines {line : MacLine} : line ∈ gateway.macLines mac command ↔
    gateway.RunsMacCommand mac command ∧
      line = command.line gateway.firewall.markop gateway.marks.toMarks mac := by
  rw [macLines]
  by_cases edits : command.EditsList gateway.config mac
  · rw [if_pos (MacCommand.edit_of_editsList edits).1, mem_shellLines]
    exact and_congr_left fun _ => ⟨fun fits => ⟨edits, fits⟩, fun runs => runs.fits⟩
  · rw [if_neg (MacCommand.edit_of_refused edits).1]
    exact iff_of_false List.not_mem_nil fun runs => edits runs.1.edits

theorem macTextClean_iff : gateway.MacTextClean mac command ↔
    (gateway.RunsMacCommand mac command →
      command.Faithful mac (command.list.entries gateway.config)) := by
  have clean (edits : command.EditsList gateway.config mac) :
      let line := command.line gateway.firewall.markop gateway.marks.toMarks mac
      (line.Clean ∧ command.Edits line.mac (command.list.entries gateway.config)
          (command.list.entries (gateway.macOperation mac command).2.config)) ↔
        command.Faithful mac (command.list.entries gateway.config) := by
    have entries := (MacCommand.edit_of_editsList edits).2 command.list
    rw [if_pos rfl] at entries
    intro line
    have text : line.mac = mac := MacCommand.mac_line _ _ _ _
    rw [MacLine.Clean, text, macOperation_of_editsList edits]
    dsimp only
    rw [entries]
    apply MacCommand.edits_iff
    intro removes
    rw [edits.2.2, removes]
    rfl
  constructor
  · intro all runs
    exact (clean runs.edits).mp (all _ (mem_macLines.mpr ⟨runs, rfl⟩))
  · intro faithful line member
    rcases mem_macLines.mp member with ⟨runs, rfl⟩
    exact (clean runs.edits).mpr (faithful runs)

/-! ## The commands for a client -/

/-- The command of `iptables_fw_authenticate` with the address, or the one of
`iptables_fw_deauthenticate`. -/
def outgoingLine (gateway : Gateway) (option : String) (client : Client) : MacLine where
  before := "-t mangle " ++ option ++ " ndsOUT -s " ++ client.ip ++ " -m mac --mac-source "
  mac := client.mac
  after := " -j MARK " ++ gateway.firewall.markop.text ++ " 0x" ++
    hexText gateway.marks.authenticated

/-- The commands with an address that `auth_change_state` runs. -/
def changeLines (gateway : Gateway) (node : Node) (newState : BitVec 32) : List MacLine :=
  let marks := gateway.marks
  let state := node.client.fwConnectionState
  let run option := gateway.config.shellLines (gateway.outgoingLine option node.client)
  if state = newState then []
  else if state = preauthenticatedState then
    if newState = marks.authenticated then run "-A" else []
  else if state = marks.authenticated then
    if newState = preauthenticatedState then run "-D"
    else if newState = marks.blocked then run "-D" ++ gateway.macLines node.client.mac .block
    else []
  else []

/-- The client and the state with which `state_file_import_client` calls
`auth_change_state`, if it gets there. -/
def importCall (gateway : Gateway) (entry : Json) : Option (Gateway × Node × BitVec 32) := do
  let (mac, ip, id) ← importIdentity entry
  if (gateway.clients.find mac ip).isSome then none
  if (gateway.clients.findById id).isSome then none
  let (added, gateway) := gateway.clientListAddClient mac ip
  let node ← added
  let (complete, client) := importAssignments entry id node.client
  if !complete then none
  let state ← entry.getField "fw_connection_state" Json.getInt64
  return (gateway.modifyClient node.address fun client => (importAssignments entry id client).2,
    { node with client }, BitVec.ofInt 32 state)

/-- The commands with an address that `state_file_import_client` runs. -/
def entryLines (gateway : Gateway) (entry : Json) : List MacLine :=
  match gateway.importCall entry with
  | none => []
  | some (gateway, node, state) => gateway.changeLines node state

/-- The entries that the loop of `state_file_import` gets to, each with the
gateway at that point. -/
def importReaches (gateway : Gateway) : List Json → List (Gateway × Json)
  | [] => []
  | entry :: rest =>
      if !entry.isObject then []
      else
        let (rc, next) := gateway.stateFileImportClient entry
        (gateway, entry) :: if rc ≠ 0 then [] else next.importReaches rest

def fileReaches (gateway : Gateway) : StateFile → List (Gateway × Json)
  | .document top => gateway.importReaches ((importHeader top).getD [])
  | _ => []

/-- The commands with an address that `state_file_import` runs. -/
def importLines (gateway : Gateway) (stateFile : StateFile) : List MacLine :=
  (gateway.fileReaches stateFile).flatMap fun reached => reached.1.entryLines reached.2

theorem clientListAddClient_firewall (gateway : Gateway) (mac ip : String) :
    (gateway.clientListAddClient mac ip).2.firewall = gateway.firewall := by
  rcases gateway.clientListAddClient_frame mac ip with ⟨clients, drawn, equal, _⟩
  rw [equal]

theorem stateFileImportClient_eq (gateway : Gateway) (entry : Json) :
    match gateway.importCall entry with
    | some (middle, node, state) => gateway.stateFileImportClient entry =
        (0, (middle.authChangeState node state (some "import_state_file")).2)
    | none => (gateway.stateFileImportClient entry).1 = -1 ∧
        (gateway.stateFileImportClient entry).2.firewall = gateway.firewall := by
  rw [stateFileImportClient, importCall]
  cases identity : importIdentity entry with
  | none => exact ⟨rfl, rfl⟩
  | some fields =>
      rcases fields with ⟨mac, ip, id⟩
      by_cases found : (gateway.clients.find mac ip).isSome = true
      · simp [found]
      · by_cases used : (gateway.clients.findById id).isSome = true
        · simp [found, used]
        · have firewall := gateway.clientListAddClient_firewall mac ip
          rcases added : gateway.clientListAddClient mac ip with ⟨_ | node, next⟩
          · simpa [found, used, added] using firewall
          · rcases assigned : importAssignments entry id node.client with ⟨complete, client⟩
            cases complete with
            | false =>
                simpa [found, used, added, importInto, assigned, modifyClient] using firewall
            | true =>
                cases state : entry.getField "fw_connection_state" Json.getInt64 with
                | none =>
                    simpa [found, used, added, importInto, assigned, state, modifyClient]
                      using firewall
                | some value => simp [found, used, added, importInto, assigned, state]

theorem importCall_of_admits {entry : Json} {record : ClientRecord}
    (read : entry.clientRecord = some record) (admits : gateway.Admits record) :
    gateway.importCall entry =
      some (gateway.addRecord record, gateway.recordNode record, record.state) := by
  rcases state_of_clientRecord read with ⟨value, state, equal⟩
  have appended : ¬ gateway.clients.clientCount ≥ gateway.config.maxclients :=
    not_le.mpr admits.room
  simp [importCall, importIdentity_of_clientRecord read, admits.absent, admits.unused,
    clientListAddClient, admits.mac, admits.ip, clientListAppend, if_neg appended,
    importAssignments_of_clientRecord read, state, equal]
  exact ⟨rfl, rfl⟩

theorem mac_changeLines {node : Node} {newState : BitVec 32} {line : MacLine}
    (member : line ∈ gateway.changeLines node newState) : line.mac = node.client.mac := by
  have outgoing {option : String}
      (run : line ∈ gateway.config.shellLines (gateway.outgoingLine option node.client)) :
      line.mac = node.client.mac := by
    rw [(mem_shellLines.mp run).2]
    rfl
  simp only [changeLines] at member
  split at member
  · cases member
  · split at member
    · split at member
      · exact outgoing member
      · cases member
    · split at member
      · split at member
        · exact outgoing member
        · split at member
          · rcases List.mem_append.mp member with run | blocking
            · exact outgoing run
            · rw [(mem_macLines.mp blocking).2]
              exact MacCommand.mac_line _ _ _ _
          · cases member
      · cases member

theorem changeLines_clean_iff {node : Node} {newState : BitVec 32} :
    (∀ line ∈ gateway.changeLines node newState, line.Clean) ↔
      (gateway.changeLines node newState ≠ [] →
        ∀ char ∈ node.client.mac.toList, isMacChar char = true) := by
  constructor
  · intro clean run
    rcases List.exists_mem_of_ne_nil _ run with ⟨line, member⟩
    rw [← mac_changeLines member]
    exact clean line member
  · intro plain line member
    rw [MacLine.Clean, mac_changeLines member]
    exact plain (List.ne_nil_of_mem member)

theorem mem_changeLines_of_fresh {node : Node} {newState : BitVec 32} {line : MacLine}
    (fresh : node.client.fwConnectionState ≠ gateway.marks.authenticated) :
    line ∈ gateway.changeLines node newState ↔
      node.client.fwConnectionState = preauthenticatedState ∧
        newState = gateway.marks.authenticated ∧
        (gateway.outgoingLine "-A" node.client).Fits gateway.config.ip6 ∧
        line = gateway.outgoingLine "-A" node.client := by
  simp only [changeLines, if_neg fresh]
  by_cases preauthenticated : node.client.fwConnectionState = preauthenticatedState
  · rw [if_pos preauthenticated]
    by_cases target : newState = gateway.marks.authenticated
    · have different : node.client.fwConnectionState ≠ newState := by
        rw [target]
        exact fresh
      rw [if_neg different, if_pos target, mem_shellLines]
      simp only [preauthenticated, target, true_and]
    · rw [if_neg target, ite_self]
      exact iff_of_false List.not_mem_nil fun both => target both.2.1
  · rw [if_neg preauthenticated, ite_self]
    exact iff_of_false List.not_mem_nil fun both => preauthenticated both.1

structure Reinstates (gateway : Gateway) (record : ClientRecord) : Prop where
  admits : gateway.Admits record
  preauthenticated :
    classify gateway.config gateway.marks.toMarks record.mac = preauthenticatedState
  state : record.state = gateway.marks.authenticated
  fits : (gateway.outgoingLine "-A" (gateway.recordNode record).client).Fits gateway.config.ip6

theorem mem_entryLines {entry : Json} {line : MacLine} : line ∈ gateway.entryLines entry ↔
    ∃ record, entry.clientRecord = some record ∧ gateway.Reinstates record ∧
      line = gateway.outgoingLine "-A" (gateway.recordNode record).client := by
  have ofRecord {record : ClientRecord} (read : entry.clientRecord = some record)
      (admits : gateway.Admits record) : line ∈ gateway.entryLines entry ↔
        gateway.Reinstates record ∧
          line = gateway.outgoingLine "-A" (gateway.recordNode record).client := by
    have fresh : (gateway.recordNode record).client.fwConnectionState ≠
        (gateway.addRecord record).marks.authenticated :=
      classify_ne_authenticated gateway.config gateway.marks record.mac
    rw [entryLines, importCall_of_admits read admits]
    apply (mem_changeLines_of_fresh fresh).trans
    constructor
    · rintro ⟨preauthenticated, target, fits, equal⟩
      exact ⟨⟨admits, preauthenticated, target, fits⟩, equal⟩
    · rintro ⟨reinstates, equal⟩
      exact ⟨reinstates.preauthenticated, reinstates.state, reinstates.fits, equal⟩
  constructor
  · intro member
    have called := gateway.stateFileImportClient_eq entry
    cases call : gateway.importCall entry with
    | none =>
        rw [entryLines, call] at member
        exact absurd member List.not_mem_nil
    | some reached =>
        rw [call] at called
        have imported := congrArg Prod.fst called
        rcases admits_of_stateFileImportClient imported with ⟨record, read, admits⟩
        exact ⟨record, read, (ofRecord read admits).mp member⟩
  · rintro ⟨record, read, reinstates, equal⟩
    exact (ofRecord read reinstates.admits).mpr ⟨reinstates, equal⟩

/-- The address of each client that the import authenticates is clean. -/
def ReinstatesClean (gateway : Gateway) (stateFile : StateFile) : Prop :=
  ∀ reached ∈ gateway.fileReaches stateFile, ∀ record, reached.2.clientRecord = some record →
    reached.1.Reinstates record → ∀ char ∈ record.mac.toList, isMacChar char = true

theorem importLines_clean_iff {stateFile : StateFile} :
    (∀ line ∈ gateway.importLines stateFile, line.Clean) ↔
      gateway.ReinstatesClean stateFile := by
  constructor
  · intro clean reached member record read reinstates
    apply clean (reached.1.outgoingLine "-A" (reached.1.recordNode record).client)
    apply List.mem_flatMap.mpr
    exact ⟨reached, member, mem_entryLines.mpr ⟨record, read, reinstates, rfl⟩⟩
  · intro plain line member
    rcases List.mem_flatMap.mp member with ⟨reached, atEntry, ofEntry⟩
    rcases mem_entryLines.mp ofEntry with ⟨record, read, reinstates, rfl⟩
    exact plain reached atEntry record read reinstates

/-- The last call of an import that is not interrupted leaves what the import
leaves: the entries are those of its loop. -/
theorem importEntries_of_reaches (rc : Int) (entries : List Json) (gateway : Gateway) :
    (gateway.importEntries rc entries).2 =
      ((gateway.importReaches entries).getLast?.map fun reached =>
        (reached.1.stateFileImportClient reached.2).2).getD gateway := by
  induction entries generalizing rc gateway with
  | nil => rfl
  | cons entry rest induction =>
      rw [importEntries, importReaches]
      cases object : entry.isObject with
      | false => rfl
      | true =>
          rcases imported : gateway.stateFileImportClient entry with ⟨code, next⟩
          by_cases failed : code ≠ 0
          · simp [failed, imported]
          · simp only [Bool.not_true, Bool.false_eq_true, if_false, if_neg failed, induction,
              List.getLast?_cons, Option.map_some, Option.getD_some]
            rw [← Option.getD_map (fun reached : Gateway × Json =>
              (reached.1.stateFileImportClient reached.2).2), imported]

end Gateway

/-- What reaches the shell is a clean address, and for `ndsctl` the one that is
put on the list or taken off it, exactly if the argument is kept as a whole and
is the entry to be removed, and if no client for which the import or a later
change of state runs a command has an address with other characters. -/
theorem mac_text_clean_iff (gateway : Gateway) :
    (∀ mac command, gateway.MacTextClean mac command ↔
      (gateway.RunsMacCommand mac command →
        command.Faithful mac (command.list.entries gateway.config))) ∧
    (∀ stateFile, (∀ line ∈ gateway.importLines stateFile, line.Clean) ↔
      gateway.ReinstatesClean stateFile) ∧
    ∀ node newState, (∀ line ∈ gateway.changeLines node newState, line.Clean) ↔
      (gateway.changeLines node newState ≠ [] →
        ∀ char ∈ node.client.mac.toList, isMacChar char = true) :=
  ⟨fun _ _ => Gateway.macTextClean_iff, fun _ => Gateway.importLines_clean_iff,
    fun _ _ => Gateway.changeLines_clean_iff⟩

def taintedMac : String := "00:16:3e:00:00:01;reboot"

/-- A state file with an authenticated client of that address. -/
def taintedFile : StateFile :=
  .document (.object [("version", .int 1), ("name", .string "nodogsplash"),
    ("clients", .array [stateFileExportClient
      { defaultClient 1 taintedMac "192.168.42.10" with fwConnectionState := 0x30000 }])])

/-- The address is accepted, and the shell gets all of it. -/
theorem tainted_mac_reaches_shell :
    checkMacFormat taintedMac = true ∧
      (defaultGateway.macLines taintedMac .block).map (MacLine.command false) =
        ["iptables --wait -t mangle -A ndsBLK -m mac --mac-source 00:16:3e:00:00:01;reboot" ++
          " -j MARK --or-mark 0x10000"] ∧
      (defaultGateway.macOperation taintedMac .block).2.config.blockedmaclist =
        ["00:16:3e:00:00:01"] ∧
      ¬ (∀ mac command, defaultGateway.MacTextClean mac command) ∧
      ¬ ∀ line ∈ defaultGateway.importLines taintedFile, line.Clean := by
  have lines : (defaultGateway.macLines taintedMac .block).map MacLine.mac = [taintedMac] := by
    decide +kernel
  have imported : (defaultGateway.importLines taintedFile).map MacLine.mac = [taintedMac] := by
    decide +kernel
  have tainted : taintedMac.toList.all isMacChar = false := by decide
  have unclean {lines : List MacLine} (texts : lines.map MacLine.mac = [taintedMac]) :
      ∃ line ∈ lines, ¬ line.Clean := by
    have member : taintedMac ∈ lines.map MacLine.mac := by
      rw [texts]
      exact List.mem_singleton_self _
    rcases List.mem_map.mp member with ⟨line, inList, text⟩
    refine ⟨line, inList, ?_⟩
    rw [MacLine.Clean, text, ← List.all_eq_true, tainted]
    exact Bool.false_ne_true
  refine ⟨by decide, by decide +kernel, by decide +kernel, ?_, ?_⟩
  · intro clean
    rcases unclean lines with ⟨line, inList, dirty⟩
    exact dirty (clean taintedMac .block line inList).1
  · intro clean
    rcases unclean imported with ⟨line, inList, dirty⟩
    exact dirty (clean line inList)

end Nodogsplash
