import Nodogsplash.Gateway

/-! # The state file

Writing the client list to a JSON document and reading it back. -/

namespace Nodogsplash

/-- A JSON value as json-c represents it. Texts are what
`json_object_get_string` returns, and no key occurs twice in an object. -/
inductive Json
  | null
  | boolean (value : Bool)
  | int (value : Int)
  | double (text : String)
  | string (value : String)
  | array (entries : List Json)
  | object (fields : List (String × Json))

namespace Json

def isObject : Json → Bool
  | .object _ => true
  | _ => false

/-- `json_object_object_get`; a null value is found but has no type. -/
def field (name : String) : Json → Option Json
  | .object fields => (fields.find? fun field => decide (field.1 = name)).map Prod.snd
  | _ => none

/-! The second half of `JSON_GET_FIELD`: the type test and the conversion. -/

def getString : Json → Option String
  | .string value => some value
  | _ => none

/-- `json_object_get_int64`. -/
def getInt64 : Json → Option Int
  | .int value => some (max (-2 ^ 63) (min value (2 ^ 63 - 1)))
  | _ => none

/-- `json_object_get_uint64`. -/
def getUint64 : Json → Option Nat
  | .int value => some (min value.toNat (2 ^ 64 - 1))
  | _ => none

/-- `json_object_get_int`. -/
def getInt : Json → Option Int
  | .int value => some (max (-2 ^ 31) (min value (2 ^ 31 - 1)))
  | _ => none

def getArray : Json → Option (List Json)
  | .array entries => some entries
  | _ => none

def getObject : Json → Option Json
  | .object fields => some (.object fields)
  | _ => none

/-- `JSON_GET_FIELD`. -/
def getField {α : Type} (object : Json) (name : String) (read : Json → Option α) : Option α :=
  (object.field name).bind read

end Json

/-- A `time_t` assigned from an unsigned 64-bit value. -/
def toTime (value : Nat) : Int := (value : Int).bmod (2 ^ 64)

/-! ## Export -/

/-- `state_file_export_client`. -/
def stateFileExportClient (client : Client) : Json :=
  .object [
    ("ip", .string client.ip),
    ("mac", .string client.mac),
    ("token", .string client.token),
    ("fw_connection_state", .int client.fwConnectionState.toNat),
    ("session_start", .int (toUInt64 client.sessionStart)),
    ("session_end", .int (toUInt64 client.sessionEnd)),
    ("download_limit", .int client.downloadLimit),
    ("upload_limit", .int client.uploadLimit),
    ("id", .int client.id.toNat),
    ("counters", .object [
      ("incoming", .int client.counters.incoming),
      ("outgoing", .int client.counters.outgoing),
      ("last_updated", .int (toUInt64 client.counters.lastUpdated))])]

/-- `state_file_export`. -/
def stateFileExport (clients : ClientList) : Json :=
  .object [
    ("version", .int 1),
    ("name", .string "nodogsplash"),
    ("clients", .array (clients.nodes.map fun node => stateFileExportClient node.client))]

/-! ## Import -/

/-- One field that `state_file_import_client` reads into the client: reading
it fails, or gives the assignment it makes. -/
abbrev FieldImport := Json → Option (Client → Client)

/-- The fields in the order of the source. The id is assigned along with the
token. -/
def clientFields (id : BitVec 32) : List FieldImport :=
  [fun entry => (entry.getField "token" Json.getString).map
      fun token client => { client with token, id },
    fun entry => (entry.getField "session_start" Json.getUint64).map
      fun value client => { client with sessionStart := toTime value },
    fun entry => (entry.getField "session_end" Json.getUint64).map
      fun value client => { client with sessionEnd := toTime value },
    fun entry => (entry.getField "download_limit" Json.getInt).map
      fun value client => { client with downloadLimit := value },
    fun entry => (entry.getField "upload_limit" Json.getInt).map
      fun value client => { client with uploadLimit := value }]

def counterFields : List FieldImport :=
  [fun counters => (counters.getField "incoming" Json.getUint64).map
      fun value client => { client with counters.incoming := value },
    fun counters => (counters.getField "outgoing" Json.getUint64).map
      fun value client => { client with counters.outgoing := value },
    fun counters => (counters.getField "last_updated" Json.getUint64).map
      fun value client => { client with counters.lastUpdated := toTime value }]

def importFields (entry : Json) : List FieldImport → Client → Bool × Client
  | [], client => (true, client)
  | read :: rest, client =>
      match read entry with
      | none => (false, client)
      | some assign => importFields entry rest (assign client)

def importAssignments (entry : Json) (id : BitVec 32) (client : Client) : Bool × Client :=
  let (complete, client) := importFields entry (clientFields id) client
  if !complete then (false, client)
  else
    match entry.getField "counters" Json.getObject with
    | none => (false, client)
    | some counters => importFields counters counterFields client

namespace Gateway

/-- `state_file_import_client` after the client has been added. -/
def importInto (gateway : Gateway) (node : Node) (id : BitVec 32) (entry : Json) :
    Int × Gateway :=
  let (complete, client) := importAssignments entry id node.client
  let gateway := gateway.modifyClient node.address fun client =>
    (importAssignments entry id client).2
  if !complete then (-1, gateway)
  else
    match entry.getField "fw_connection_state" Json.getInt64 with
    | none => (-1, gateway)
    | some state =>
        (0, (gateway.authChangeState { node with client } (BitVec.ofInt 32 state)
          (some "import_state_file")).2)

def importIdentity (entry : Json) : Option (String × String × BitVec 32) := do
  let mac ← entry.getField "mac" Json.getString
  let ip ← entry.getField "ip" Json.getString
  let id ← entry.getField "id" Json.getUint64
  return (mac, ip, BitVec.ofNat 32 id)

/-- `state_file_import_client`. -/
def stateFileImportClient (gateway : Gateway) (entry : Json) : Int × Gateway :=
  match importIdentity entry with
  | none => (-1, gateway)
  | some (mac, ip, id) =>
      if (gateway.clients.find mac ip).isSome then (-1, gateway)
      else if (gateway.clients.findById id).isSome then (-1, gateway)
      else
        match gateway.clientListAddClient mac ip with
        | (none, gateway) => (-1, gateway)
        | (some node, gateway) => gateway.importInto node id entry

/-- The loop of `state_file_import`. `rc` is the value the variable has when
the loop gets to the next entry. -/
def importEntries (rc : Int) : List Json → Gateway → Int × Gateway
  | [], gateway => (0, gateway)
  | entry :: rest, gateway =>
      if !entry.isObject then (rc, gateway)
      else
        let (rc, gateway) := gateway.stateFileImportClient entry
        if rc ≠ 0 then (-3, gateway) else importEntries rc rest gateway

end Gateway

/-- What `stat` and `json_object_from_file` make of the state file. -/
inductive StateFile
  | missing
  | inaccessible
  | unparsable
  | document (top : Json)

/-- `-EINVAL`. -/
def invalidArgument : Int := -22

/-- The tests of `state_file_import` that come before its loop: the array of
clients, if all of them pass. -/
def importHeader (top : Json) : Option (List Json) := do
  let version ← top.getField "version" Json.getInt64
  if version ≠ 1 then none
  let name ← top.getField "name" Json.getString
  if name ≠ "nodogsplash" then none
  top.getField "clients" Json.getArray

/-- `state_file_import`. -/
def Gateway.stateFileImport (gateway : Gateway) : StateFile → Int × Gateway
  | .missing => (1, gateway)
  | .inaccessible => (2, gateway)
  | .unparsable => (-1, gateway)
  | .document top =>
      match importHeader top with
      | none => (invalidArgument, gateway)
      | some entries => gateway.importEntries invalidArgument entries

end Nodogsplash
