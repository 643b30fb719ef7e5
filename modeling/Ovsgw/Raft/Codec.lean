/-
  **The JSON form of what a log file holds** (`ovsdb/raft-private.c`): the
  header, the records, and the `servers` object inside them.

  The `servers` member of an entry is JSON in C; the model keeps it parsed, so
  here it is written by `serversToJson` and read by `raftServersFromJson`.
-/
import Ovsgw.Uuid
import Ovsgw.Raft.Monad

namespace Ovsgw.Cluster

/-! ## 1. Members -/

/-- The JSON integer that `raft_put_uint64` stores: `json_integer_create` takes
    a `long long int`. -/
def jsonUint64 (n : Nat) : Json := .integer (BitVec.ofNat 64 n).toInt

def jsonUuid (u : Uuid) : Json := .string (uuidToString u)

/-- An object member that is there only if `value` is. -/
def optionalMember (name : String) (value : Option Json) : List (String × Json) :=
  match value with
  | some json => [(name, json)]
  | none => []

/-- An object member that is there only if it is not zero. -/
def nonzeroMember (name : String) (n : Nat) : List (String × Json) :=
  optionalMember name (if n ≠ 0 then some (jsonUint64 n) else none)

def nonzeroUuidMember (name : String) (u : Uuid) : List (String × Json) :=
  optionalMember name (if u ≠ 0 then some (jsonUuid u) else none)

def raftParseUint64 (name : String) (optional : Bool) : Parse Nat := do
  match ← ovsdbParserMember name { types := [.integer], optional } with
  | some (.integer i) => return (BitVec.ofInt 64 i).toNat
  | _ => return 0

def raftParseOptionalUint64 (name : String) : Parse Nat := raftParseUint64 name true

def raftParseRequiredUint64 (name : String) : Parse Nat := raftParseUint64 name false

def raftParseString (name : String) (optional : Bool) : Parse (Option String) := do
  match ← ovsdbParserMember name { types := [.string], optional } with
  | some (.string s) => return some s
  | _ => return none

def raftParseRequiredString (name : String) : Parse (Option String) :=
  raftParseString name false

def raftParseOptionalString (name : String) : Parse (Option String) :=
  raftParseString name true

/-- `raft_parse_uuid`: `none` is the result false, with the UUID set to zero. -/
def raftParseUuid (name : String) (optional : Bool) : Parse (Option Uuid) := do
  match ← raftParseString name optional with
  | some s =>
    match uuidFromString s with
    | some uuid => return some uuid
    | none =>
      ovsdbParserRaiseError (name ++ " is not a valid UUID")
      return none
  | none => return none

def raftParseRequiredUuid (name : String) : Parse Uuid := do
  return (← raftParseUuid name false).getD 0

def raftParseOptionalUuid (name : String) : Parse (Option Uuid) := raftParseUuid name true

/-- `SID_FMT` with `SID_ARGS`, and `CID_FMT` with `CID_ARGS`. -/
def sidText (sid : Uuid) : String := String.ofList (hexits 4 (uuidPart sid 0 / 2 ^ 16))

/-! ## 2. Servers and addresses -/

/-- `raft_address_validate_json`, with the address if it is valid. -/
def raftAddressValidateJson (env : Env) (address : Json) : Except OvsdbError String :=
  match address with
  | .string s =>
    match raftAddressValidate env s with
    | none => .ok s
    | some error => .error error
  | _ => .error (ovsdbSyntaxError (some address) "server address is not string")

/-- The loop of `raft_addresses_from_json`; the result is a set. -/
def addressesLoop (env : Env) : List Json → List String → Except OvsdbError (List String)
  | [], addresses => .ok addresses
  | json :: rest, addresses =>
    match raftAddressValidateJson env json with
    | .ok address => addressesLoop env rest (addresses.insert address)
    | .error error => .error error

def raftAddressesFromJson (env : Env) (elems : List Json) : Except OvsdbError (List String) :=
  if elems.isEmpty then
    .error (ovsdbSyntaxError (some (.array elems)) "at least one remote address is required")
  else
    addressesLoop env elems []

def raftAddressesToJson (addresses : List String) : Json :=
  .array (addresses.map Json.string)

def serversToJson (servers : Servers) : Json :=
  .object (servers.map (fun n => (uuidToString n.1, Json.string n.2)))

/-- The loop of `raft_servers_from_json__` over the members of `json`. -/
def serversLoop (env : Env) (json : Json) :
    List (String × Json) → Except OvsdbError Servers
  | [] => .ok []
  | (name, address) :: rest =>
    match uuidFromString name with
    | none => .error (ovsdbSyntaxError (some json) (name ++ " is not a UUID"))
    | some sid =>
      match raftAddressValidateJson env address with
      | .error error => .error error
      | .ok address => (serversLoop env json rest).map ((sid, address) :: ·)

/-- `raft_servers_from_json`, and `raft_servers_validate_json`, which only looks at the error. -/
def raftServersFromJson (env : Env) (json : Json) : Except OvsdbError Servers :=
  match json with
  | .object members =>
    if members.isEmpty then
      .error (ovsdbSyntaxError (some json) "must have at least one server")
    else
      serversLoop env json members
  | _ => .error (ovsdbSyntaxError (some json) "servers must be JSON object")

/-- A `servers` member: the value is validated where it is read. -/
def raftParseServers (env : Env) (name : String) (optional : Bool) :
    Parse (Option Servers) := do
  match ← ovsdbParserMember name { types := [.object], optional } with
  | some json =>
    match raftServersFromJson env json with
    | .ok servers => return some servers
    | .error error =>
      ovsdbParserPutError (some error)
      return none
  | none => return none

/-! ## 3. The header -/

/-- The `remote_addresses` of a header.  With a missing `local_address` C would
    follow a null pointer here; that member's error is already set then. -/
def raftParseRemoteAddresses (env : Env) (elems : List Json) (localAddress : Option String) :
    Parse (List String) := do
  match raftAddressesFromJson env elems with
  | .error error =>
    ovsdbParserPutError (some error)
    return []
  | .ok addresses =>
    let others := addresses.filter (fun a => some a ≠ localAddress)
    if others.isEmpty then
      ovsdbParserRaiseError
        "at least one remote address (other than the local address) is required"
    return others

/-- The snapshot of a header: "term, index, and snapshot are optional, but if
    any of them is present, all of them must be". -/
def raftParseSnapshot (env : Env) : Parse (Nat × Entry) := do
  let servers ← raftParseServers env "prev_servers" false
  let snapIndex ← raftParseOptionalUint64 "prev_index"
  if snapIndex ≠ 0 then
    let data ← ovsdbParserMember "prev_data" { types := OP_ANY }
    let eid ← raftParseRequiredUuid "prev_eid"
    let term ← raftParseRequiredUint64 "prev_term"
    let electionTimer ← raftParseOptionalUint64 "prev_election_timer"
    return (snapIndex, { term, data, eid, servers, electionTimer })
  else
    return (0, { servers })

def raftHeaderFromJson__ (env : Env) : Parse Header := do
  let sid ← raftParseRequiredUuid "server_id"
  let name ← raftParseRequiredString "name"
  let localAddress ← raftParseRequiredString "local_address"
  match ← ovsdbParserMember "remote_addresses" { types := [.array], optional := true } with
  | some (.array elems) =>
    let remoteAddresses ← raftParseRemoteAddresses env elems localAddress
    let cid ← raftParseUuid "cluster_id" true
    return { sid, cid := cid.getD 0, name := name.getD "",
             localAddress := localAddress.getD "", joining := true, remoteAddresses }
  | _ =>
    let (snapIndex, snap) ← raftParseSnapshot env
    let cid ← raftParseUuid "cluster_id" false
    return { sid, cid := cid.getD 0, name := name.getD "",
             localAddress := localAddress.getD "", snapIndex, snap }

def raftHeaderFromJson (env : Env) (json : Json) : Except OvsdbError Header :=
  ovsdbParse "raft header" json (raftHeaderFromJson__ env)

def raftHeaderToJson (h : Header) : Json :=
  .object
    ([("server_id", jsonUuid h.sid)]
      ++ nonzeroUuidMember "cluster_id" h.cid
      ++ [("local_address", .string h.localAddress), ("name", .string h.name)]
      ++ (if h.remoteAddresses.isEmpty then []
          else [("remote_addresses", raftAddressesToJson h.remoteAddresses)])
      ++ optionalMember "prev_servers" (h.snap.servers.map serversToJson)
      ++ (if h.snapIndex ≠ 0 then
            [("prev_index", jsonUint64 h.snapIndex), ("prev_term", jsonUint64 h.snap.term)]
              ++ optionalMember "prev_data" h.snap.data
              ++ [("prev_eid", jsonUuid h.snap.eid)]
              ++ nonzeroMember "prev_election_timer" h.snap.electionTimer
          else []))

/-! ## 4. Records -/

/-- The `eid` of a record: required if there is `data`, and else not read. -/
def raftParseEid (data : Option Json) : Parse Uuid :=
  if data.isSome then raftParseRequiredUuid "eid" else pure 0

/-- The part of `raft_record_from_json__` that reads a log entry. -/
def raftParseEntry (env : Env) (index : Nat) : Parse RecordBody := do
  let servers ← raftParseServers env "servers" true
  let electionTimer ← raftParseOptionalUint64 "election_timer"
  let data ← ovsdbParserMember "data" { types := [.object, .array], optional := true }
  let eid ← raftParseEid data
  return .entry index data servers electionTimer eid

def raftRecordFromJson__ (env : Env) : Parse Record := do
  let comment ← raftParseOptionalString "comment"
  match ← raftParseOptionalString "note" with
  | some note => return { comment, body := .note note }
  | none =>
  let commitIndex ← raftParseOptionalUint64 "commit_index"
  if commitIndex ≠ 0 then
    return { comment, body := .commitIndex commitIndex }
  let term ← raftParseRequiredUint64 "term"
  match ← raftParseOptionalUuid "leader" with
  | some sid =>
    if sid = 0 then
      ovsdbParserRaiseError "record says leader is all-zeros SID"
    return { comment, term, body := .leader sid }
  | none =>
  match ← raftParseOptionalUuid "vote" with
  | some sid =>
    if sid = 0 then
      ovsdbParserRaiseError "record votes for all-zeros SID"
    return { comment, term, body := .vote sid }
  | none =>
  let index ← raftParseOptionalUint64 "index"
  if index = 0 then
    return { comment, term, body := .term }
  else
    return { comment, term, body := ← raftParseEntry env index }

def raftRecordFromJson (env : Env) (json : Json) : Except OvsdbError Record :=
  ovsdbParse "raft log record" json (raftRecordFromJson__ env)

/-- The members that `raft_record_to_json` writes for each type of record. -/
def recordMembers (term : Nat) : RecordBody → List (String × Json)
  | .entry index data servers electionTimer eid =>
    [("term", jsonUint64 term), ("index", jsonUint64 index)]
      ++ optionalMember "data" data
      ++ optionalMember "servers" (servers.map serversToJson)
      ++ nonzeroMember "election_timer" electionTimer
      ++ nonzeroUuidMember "eid" eid
  | .term => [("term", jsonUint64 term)]
  | .vote sid => [("term", jsonUint64 term), ("vote", jsonUuid sid)]
  | .note note => [("note", .string note)]
  | .commitIndex commitIndex => [("commit_index", jsonUint64 commitIndex)]
  | .leader sid => [("term", jsonUint64 term), ("leader", jsonUuid sid)]

def raftRecordToJson (r : Record) : Json :=
  let comment := r.comment.getD ""
  .object ((if comment = "" then [] else [("comment", .string comment)])
    ++ recordMembers r.term r.body)

end Ovsgw.Cluster
