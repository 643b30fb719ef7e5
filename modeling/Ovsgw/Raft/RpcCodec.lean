/-
  **The JSON-RPC form of Raft RPCs** (`ovsdb/raft-rpc.c`).

  A Raft RPC is a JSON-RPC notification whose method is the type of the RPC and
  whose only parameter is an object.  The object has a few members that are the
  same for every type, and then those of the type.
-/
import Ovsgw.Raft.Codec

namespace Ovsgw.Cluster

/-! ## 1. Types of RPCs -/

inductive RpcType where
  | helloRequest
  | appendRequest
  | appendReply
  | voteRequest
  | voteReply
  | addServerRequest
  | addServerReply
  | removeServerRequest
  | removeServerReply
  | installSnapshotRequest
  | installSnapshotReply
  | becomeLeader
  | executeCommandRequest
  | executeCommandReply
deriving DecidableEq, Repr

/-- In the order of `RAFT_RPC_TYPES`. -/
def RpcType.all : List RpcType :=
  [.helloRequest, .appendRequest, .appendReply, .voteRequest, .voteReply, .addServerRequest,
   .addServerReply, .removeServerRequest, .removeServerReply, .installSnapshotRequest,
   .installSnapshotReply, .becomeLeader, .executeCommandRequest, .executeCommandReply]

def Body.type : Body → RpcType
  | .helloRequest _ => .helloRequest
  | .appendRequest _ => .appendRequest
  | .appendReply _ => .appendReply
  | .voteRequest _ => .voteRequest
  | .voteReply _ => .voteReply
  | .addServerRequest _ => .addServerRequest
  | .addServerReply _ _ => .addServerReply
  | .removeServerRequest _ _ => .removeServerRequest
  | .removeServerReply _ _ => .removeServerReply
  | .installSnapshotRequest _ => .installSnapshotRequest
  | .installSnapshotReply _ => .installSnapshotReply
  | .becomeLeader _ => .becomeLeader
  | .executeCommandRequest _ _ _ => .executeCommandRequest
  | .executeCommandReply _ _ _ => .executeCommandReply

def raftRpcTypeToString : RpcType → String
  | .helloRequest => "hello_request"
  | .appendRequest => "append_request"
  | .appendReply => "append_reply"
  | .voteRequest => "vote_request"
  | .voteReply => "vote_reply"
  | .addServerRequest => "add_server_request"
  | .addServerReply => "add_server_reply"
  | .removeServerRequest => "remove_server_request"
  | .removeServerReply => "remove_server_reply"
  | .installSnapshotRequest => "install_snapshot_request"
  | .installSnapshotReply => "install_snapshot_reply"
  | .becomeLeader => "become_leader"
  | .executeCommandRequest => "execute_command_request"
  | .executeCommandReply => "execute_command_reply"

def raftRpcTypeFromString (s : String) : Option RpcType :=
  RpcType.all.find? (fun type => s == raftRpcTypeToString type)

def raftAppendResultToString : AppendResult → String
  | .ok => "OK"
  | .inconsistency => "inconsistency"
  | .ioError => "I/O error"

def raftAppendResultFromString (s : String) : Option AppendResult :=
  [.ok, .inconsistency, .ioError].find? (fun result => s == raftAppendResultToString result)

def raftCommandStatusToString : CommandStatus → String
  | .incomplete => "operation still in progress"
  | .success => "success"
  | .notLeader => "not leader"
  | .badPrereq => "prerequisite check failed"
  | .lostLeadership => "lost leadership"
  | .shutdown => "server shutdown"
  | .ioError => "I/O error"
  | .timeout => "timeout"

def raftCommandStatusFromString (s : String) : Option CommandStatus :=
  [.incomplete, .success, .notLeader, .badPrereq, .lostLeadership, .shutdown, .ioError,
   .timeout].find? (fun status => s == raftCommandStatusToString status)

/-! ## 2. Members -/

/-- `raft_parse_boolean__`: `none` is the result -1. -/
def raftParseBoolean (name : String) (optional : Bool) : Parse (Option Bool) := do
  match ← ovsdbParserMember name { types := [.false, .true], optional } with
  | some (.bool b) => return some b
  | _ => return none

/-- `raft_parse_required_boolean`: -1 counts as true. -/
def raftParseRequiredBoolean (name : String) : Parse Bool := do
  return (← raftParseBoolean name false).getD true

def raftParseOptionalBoolean (name : String) : Parse (Option Bool) := raftParseBoolean name true

def raftEntryToJson (e : Entry) : Json :=
  .object
    ([("term", jsonUint64 e.term)]
      ++ (match e.data with
          | some data => [("data", data), ("eid", jsonUuid e.eid)]
          | none => [])
      ++ optionalMember "servers" (e.servers.map serversToJson)
      ++ nonzeroMember "election_timer" e.electionTimer)

/-- The members that `raft_entry_from_json` reads. -/
def raftParseLogEntry (env : Env) : Parse Entry := do
  let term ← raftParseRequiredUint64 "term"
  let data ← ovsdbParserMember "data" { types := [.object, .array], optional := true }
  let eid ← raftParseEid data
  let servers ← raftParseServers env "servers" true
  let electionTimer ← raftParseOptionalUint64 "election_timer"
  return { term, data, eid, servers, electionTimer }

def raftEntryFromJson (env : Env) (json : Json) : Except OvsdbError Entry :=
  ovsdbParse "raft log entry" json (raftParseLogEntry env)

/-! ## 3. The members of each type -/

/-- `raft_hello_request_to_jsonrpc` and `raft_add_server_request_to_jsonrpc`. -/
def addressMembers (address : String) : List (String × Json) := [("address", .string address)]

/-- `raft_hello_request_from_jsonrpc` and `raft_add_server_request_from_jsonrpc`. -/
def raftParseAddress : Parse String := do
  return (← raftParseRequiredString "address").getD ""

def raftAppendRequestToJsonrpc (rq : AppendRequest) : List (String × Json) :=
  [("term", jsonUint64 rq.term), ("prev_log_index", jsonUint64 rq.prevLogIndex),
   ("prev_log_term", jsonUint64 rq.prevLogTerm), ("leader_commit", jsonUint64 rq.leaderCommit),
   ("log", .array (rq.entries.map raftEntryToJson))]

/-- The loop of `raft_append_request_from_jsonrpc`: it stops at the first error. -/
def raftParseEntries (env : Env) : List Json → Parse (List Entry)
  | [] => return []
  | json :: rest => do
    match raftEntryFromJson env json with
    | .error error =>
      ovsdbParserPutError (some error)
      return []
    | .ok e => return e :: (← raftParseEntries env rest)

def raftParseLog (env : Env) : Parse (List Entry) := do
  match ← ovsdbParserMember "log" { types := [.array] } with
  | some (.array elems) => raftParseEntries env elems
  | _ => return []

def raftAppendRequestFromJsonrpc (env : Env) : Parse AppendRequest := do
  let term ← raftParseRequiredUint64 "term"
  let prevLogIndex ← raftParseRequiredUint64 "prev_log_index"
  let prevLogTerm ← raftParseRequiredUint64 "prev_log_term"
  let leaderCommit ← raftParseRequiredUint64 "leader_commit"
  let entries ← raftParseLog env
  return { term, prevLogIndex, prevLogTerm, leaderCommit, entries }

def raftAppendReplyToJsonrpc (rpy : AppendReply) : List (String × Json) :=
  [("term", jsonUint64 rpy.term), ("log_end", jsonUint64 rpy.logEnd),
   ("prev_log_index", jsonUint64 rpy.prevLogIndex), ("prev_log_term", jsonUint64 rpy.prevLogTerm),
   ("n_entries", jsonUint64 rpy.nEntries), ("result", .string (raftAppendResultToString rpy.result))]

/-- The `result` of an append reply; an unknown one is stored as 0. -/
def raftParseAppendResult : Parse AppendResult := do
  match ← raftParseRequiredString "result" with
  | some s =>
    match raftAppendResultFromString s with
    | some result => return result
    | none =>
      ovsdbParserRaiseError ("unknown result \"" ++ s ++ "\"")
      return .ok
  | none => return .ok

/-- `raft_append_reply_from_jsonrpc`; `n_entries` is an `unsigned int`. -/
def raftAppendReplyFromJsonrpc : Parse AppendReply := do
  let term ← raftParseRequiredUint64 "term"
  let logEnd ← raftParseRequiredUint64 "log_end"
  let prevLogIndex ← raftParseRequiredUint64 "prev_log_index"
  let prevLogTerm ← raftParseRequiredUint64 "prev_log_term"
  let nEntries ← raftParseRequiredUint64 "n_entries"
  let result ← raftParseAppendResult
  return { term, logEnd, prevLogIndex, prevLogTerm, nEntries := nEntries % 2 ^ 32, result }

def raftVoteRequestToJsonrpc (rq : VoteRequest) : List (String × Json) :=
  [("term", jsonUint64 rq.term), ("last_log_index", jsonUint64 rq.lastLogIndex),
   ("last_log_term", jsonUint64 rq.lastLogTerm)]
    ++ optionalMember "leadership_transfer"
      (if rq.leadershipTransfer then some (.bool true) else none)

def raftVoteRequestFromJsonrpc : Parse VoteRequest := do
  let term ← raftParseRequiredUint64 "term"
  let lastLogIndex ← raftParseRequiredUint64 "last_log_index"
  let lastLogTerm ← raftParseRequiredUint64 "last_log_term"
  let leadershipTransfer ← raftParseOptionalBoolean "leadership_transfer"
  return { term, lastLogIndex, lastLogTerm, leadershipTransfer := leadershipTransfer == some true }

def raftVoteReplyToJsonrpc (rpy : VoteReply) : List (String × Json) :=
  [("term", jsonUint64 rpy.term), ("vote", jsonUuid rpy.vote)]

def raftVoteReplyFromJsonrpc : Parse VoteReply := do
  let term ← raftParseRequiredUint64 "term"
  let vote ← raftParseRequiredUuid "vote"
  return { term, vote }

def raftAddServerReplyToJsonrpc (success : Bool) (remoteAddresses : List String) :
    List (String × Json) :=
  [("success", .bool success)]
    ++ optionalMember "remote_addresses"
      (if remoteAddresses.isEmpty then none else some (raftAddressesToJson remoteAddresses))

/-- The `remote_addresses` of an `add_server_reply`. -/
def raftParseReplyAddresses (env : Env) : Parse (List String) := do
  match ← ovsdbParserMember "remote_addresses" { types := [.array], optional := true } with
  | some (.array elems) =>
    match raftAddressesFromJson env elems with
    | .ok addresses => return addresses
    | .error error =>
      ovsdbParserPutError (some error)
      return []
  | _ => return []

def raftAddServerReplyFromJsonrpc (env : Env) : Parse Body := do
  let success ← raftParseRequiredBoolean "success"
  let remoteAddresses ← raftParseReplyAddresses env
  return .addServerReply success remoteAddresses

/-- `raft_remove_server_request_to_jsonrpc`; `requester_conn` is not sent. -/
def raftRemoveServerRequestToJsonrpc (sid : Uuid) : List (String × Json) :=
  [("server_id", jsonUuid sid)]

def raftRemoveServerRequestFromJsonrpc : Parse Body := do
  return .removeServerRequest (← raftParseRequiredUuid "server_id") none

def raftRemoveServerReplyToJsonrpc (success : Bool) (targetSid : Uuid) : List (String × Json) :=
  nonzeroUuidMember "target_server" targetSid ++ [("success", .bool success)]

def raftRemoveServerReplyFromJsonrpc : Parse Body := do
  let success ← raftParseRequiredBoolean "success"
  let targetSid ← raftParseOptionalUuid "target_server"
  return .removeServerReply success (targetSid.getD 0)

def raftInstallSnapshotRequestToJsonrpc (rq : InstallSnapshotRequest) : List (String × Json) :=
  [("term", jsonUint64 rq.term), ("last_index", jsonUint64 rq.lastIndex),
   ("last_term", jsonUint64 rq.lastTerm), ("last_servers", serversToJson rq.lastServers),
   ("last_eid", jsonUuid rq.lastEid), ("election_timer", jsonUint64 rq.electionTimer),
   ("data", rq.data)]

def raftInstallSnapshotRequestFromJsonrpc (env : Env) : Parse InstallSnapshotRequest := do
  let lastServers ← raftParseServers env "last_servers" false
  let term ← raftParseRequiredUint64 "term"
  let lastIndex ← raftParseRequiredUint64 "last_index"
  let lastTerm ← raftParseRequiredUint64 "last_term"
  let lastEid ← raftParseRequiredUuid "last_eid"
  let electionTimer ← raftParseRequiredUint64 "election_timer"
  let data ← ovsdbParserMember "data" { types := [.object, .array] }
  return { term, lastIndex, lastTerm, lastEid, lastServers := lastServers.getD [], electionTimer
           data := data.getD .null }

def raftInstallSnapshotReplyToJsonrpc (rpy : InstallSnapshotReply) : List (String × Json) :=
  [("term", jsonUint64 rpy.term), ("last_index", jsonUint64 rpy.lastIndex),
   ("last_term", jsonUint64 rpy.lastTerm)]

def raftInstallSnapshotReplyFromJsonrpc : Parse InstallSnapshotReply := do
  let term ← raftParseRequiredUint64 "term"
  let lastIndex ← raftParseRequiredUint64 "last_index"
  let lastTerm ← raftParseRequiredUint64 "last_term"
  return { term, lastIndex, lastTerm }

def raftExecuteCommandRequestToJsonrpc (data : Json) (prereq result : Uuid) :
    List (String × Json) :=
  [("data", data), ("prereq", jsonUuid prereq), ("result", jsonUuid result)]

def raftExecuteCommandRequestFromJsonrpc : Parse Body := do
  let data ← ovsdbParserMember "data" { types := [.object, .array] }
  let prereq ← raftParseRequiredUuid "prereq"
  let result ← raftParseRequiredUuid "result"
  return .executeCommandRequest (data.getD .null) prereq result

def raftExecuteCommandReplyToJsonrpc (result : Uuid) (status : CommandStatus) (commitIndex : Nat) :
    List (String × Json) :=
  [("result", jsonUuid result), ("status", .string (raftCommandStatusToString status))]
    ++ nonzeroMember "commit_index" commitIndex

/-- The `status` of an `execute_command_reply`; an unknown one is stored as 0. -/
def raftParseCommandStatus : Parse CommandStatus := do
  match ← raftParseRequiredString "status" with
  | some s =>
    match raftCommandStatusFromString s with
    | some status => return status
    | none =>
      ovsdbParserRaiseError ("unknown status \"" ++ s ++ "\"")
      return .incomplete
  | none => return .incomplete

def raftExecuteCommandReplyFromJsonrpc : Parse Body := do
  let result ← raftParseRequiredUuid "result"
  let status ← raftParseCommandStatus
  let commitIndex ← raftParseOptionalUint64 "commit_index"
  return .executeCommandReply result status commitIndex

/-! ## 4. RPCs -/

/-- The members of the type: the `switch` of `raft_rpc_to_jsonrpc`. -/
def bodyMembers : Body → List (String × Json)
  | .helloRequest address => addressMembers address
  | .appendRequest rq => raftAppendRequestToJsonrpc rq
  | .appendReply rpy => raftAppendReplyToJsonrpc rpy
  | .voteRequest rq => raftVoteRequestToJsonrpc rq
  | .voteReply rpy => raftVoteReplyToJsonrpc rpy
  | .addServerRequest address => addressMembers address
  | .addServerReply success remoteAddresses => raftAddServerReplyToJsonrpc success remoteAddresses
  | .removeServerRequest sid _ => raftRemoveServerRequestToJsonrpc sid
  | .removeServerReply success targetSid => raftRemoveServerReplyToJsonrpc success targetSid
  | .installSnapshotRequest rq => raftInstallSnapshotRequestToJsonrpc rq
  | .installSnapshotReply rpy => raftInstallSnapshotReplyToJsonrpc rpy
  | .becomeLeader term => [("term", jsonUint64 term)]
  | .executeCommandRequest data prereq result =>
    raftExecuteCommandRequestToJsonrpc data prereq result
  | .executeCommandReply result status commitIndex =>
    raftExecuteCommandReplyToJsonrpc result status commitIndex

/-- The `switch` of `raft_rpc_from_jsonrpc`. -/
def raftParseBody (env : Env) : RpcType → Parse Body
  | .helloRequest => .helloRequest <$> raftParseAddress
  | .appendRequest => .appendRequest <$> raftAppendRequestFromJsonrpc env
  | .appendReply => .appendReply <$> raftAppendReplyFromJsonrpc
  | .voteRequest => .voteRequest <$> raftVoteRequestFromJsonrpc
  | .voteReply => .voteReply <$> raftVoteReplyFromJsonrpc
  | .addServerRequest => .addServerRequest <$> raftParseAddress
  | .addServerReply => raftAddServerReplyFromJsonrpc env
  | .removeServerRequest => raftRemoveServerRequestFromJsonrpc
  | .removeServerReply => raftRemoveServerReplyFromJsonrpc
  | .installSnapshotRequest =>
    .installSnapshotRequest <$> raftInstallSnapshotRequestFromJsonrpc env
  | .installSnapshotReply => .installSnapshotReply <$> raftInstallSnapshotReplyFromJsonrpc
  | .becomeLeader => .becomeLeader <$> raftParseRequiredUint64 "term"
  | .executeCommandRequest => raftExecuteCommandRequestFromJsonrpc
  | .executeCommandReply => raftExecuteCommandReplyFromJsonrpc

inductive JsonrpcMsgType where
  | request
  | notify
  | reply
  | error
deriving DecidableEq, Repr

def jsonrpcMsgTypeToString : JsonrpcMsgType → String
  | .request => "request"
  | .notify => "notification"
  | .reply => "reply"
  | .error => "error"

/-- What `raft_rpc_from_jsonrpc` reads of a `struct jsonrpc_msg`; `params` holds
    the elements of the array. -/
structure JsonrpcMsg where
  type : JsonrpcMsgType
  method : String
  params : List Json

def commonMembers (cid sid : Uuid) (rpc : Rpc) : List (String × Json) :=
  nonzeroUuidMember "cluster" cid ++ nonzeroUuidMember "to" rpc.sid
    ++ [("from", jsonUuid sid)] ++ optionalMember "comment" (rpc.comment.map Json.string)

def raftRpcToJsonrpc (cid sid : Uuid) (rpc : Rpc) : JsonrpcMsg :=
  { type := .notify
    method := raftRpcTypeToString rpc.body.type
    params := [.object (commonMembers cid sid rpc ++ bodyMembers rpc.body)] }

/-- The `cluster` of an RPC: returns the new value of `*cidp`. -/
def raftParseCluster (cid : Uuid) (optional : Bool) : Parse Uuid := do
  match ← raftParseUuid "cluster" optional with
  | some cluster =>
    if cluster = cid then
      return cid
    else if cid = 0 then
      return cluster
    else
      ovsdbParserRaiseError
        ("wrong cluster " ++ sidText cluster ++ " (expected " ++ sidText cid ++ ")")
      return cid
  | none => return cid

def raftParseTo (sid : Uuid) (optional : Bool) : Parse Unit := do
  match ← raftParseUuid "to" optional with
  | some dst =>
    if dst ≠ sid then
      ovsdbParserRaiseError ("misrouted message (addressed to " ++ sidText dst ++ " but we're "
        ++ sidText sid ++ ")")
  | none => return ()

def raftParseRpc (env : Env) (cid sid : Uuid) (type : RpcType) : Parse Rpc := do
  let isHello := type == .helloRequest
  let isAdd := type == .addServerRequest
  let _ ← raftParseCluster cid isAdd
  raftParseTo sid (isAdd || isHello)
  let source ← raftParseRequiredUuid "from"
  let comment ← raftParseOptionalString "comment"
  let body ← raftParseBody env type
  return { sid := source, comment, body }

/-- `raft_rpc_from_jsonrpc`: the new value of `*cidp`, which is learned even if
    an error follows, and the RPC. -/
def raftRpcFromJsonrpc (env : Env) (cid sid : Uuid) (msg : JsonrpcMsg) :
    Uuid × Except OvsdbError Rpc :=
  if msg.type ≠ .notify then
    (cid, .error (ovsdbError
      ("expecting notify RPC but received " ++ jsonrpcMsgTypeToString msg.type)))
  else
    match raftRpcTypeFromString msg.method with
    | none => (cid, .error (ovsdbError ("unknown method " ++ msg.method)))
    | some type =>
      match msg.params with
      | [json] =>
        let title := "raft " ++ msg.method ++ " RPC"
        (((raftParseCluster cid (type == .addServerRequest)).run
            (ovsdbParserInit (some json) title)).1,
          ovsdbParse title json (raftParseRpc env cid sid type))
      | params => (cid, .error (ovsdbError
          (msg.method ++ " RPC has " ++ toString params.length ++ " parameters (expected 1)")))

end Ovsgw.Cluster
