/-
  **Commands, append requests and the replies about membership.**

  What a server sends on its own account: append requests and snapshots to peers, the outcome of
  commands, and the answers to `add_server_request` and `remove_server_request`.  The human-readable
  answers to `ovs-appctl` callers are left out.
-/
import Ovsgw.Raft.Log

namespace Ovsgw.Cluster

/-! ## 1. Pointers to servers -/

/-- A `struct raft_server *` that a handler keeps across calls: an element of
    `servers` or of `add_servers`. -/
inductive ServerRef where
  | peer (sid : Uuid)
  | new (sid : Uuid)
deriving DecidableEq

def ServerRef.sid : ServerRef → Uuid
  | .peer sid => sid
  | .new sid => sid

/-- The server a pointer refers to.  `raft_run_reconfigure` may in the meantime have moved it from
    `add_servers` to `servers`, or from `servers` to `remove_server`. -/
def Raft.deref (r : Raft) : ServerRef → Option Server
  | .peer sid => (raftFindServer r sid).or (r.removeServer.filter (·.sid == sid))
  | .new sid => (raftFindNewServer r sid).or (raftFindServer r sid)

def Raft.assign (r : Raft) (s : ServerRef) (f : Server → Server) : Raft :=
  match s with
  | .peer sid =>
    if (raftFindServer r sid).isSome then
      { r with servers := updateServer r.servers sid f }
    else
      { r with removeServer := r.removeServer.map (fun s => if s.sid = sid then f s else s) }
  | .new sid =>
    if (raftFindNewServer r sid).isSome then
      { r with addServers := updateServer r.addServers sid f }
    else
      { r with servers := updateServer r.servers sid f }

/-- `raft_find_peer`, and `raft_find_new_server` if there is no such peer. -/
def raftFindPeerOrNew (r : Raft) (sid : Uuid) : Option ServerRef :=
  if (raftFindPeer r sid).isSome then
    some (.peer sid)
  else if (raftFindNewServer r sid).isSome then
    some (.new sid)
  else
    none

/-! ## 2. Append requests and snapshots -/

/-- `raft_send_append_request`: the entries are `n` entries from `next_index`.

    For `next_index = 0` the C expression `next_index - 1` is `UINT64_MAX`, so
    the term is read far outside the array; that is a fault here, and so is a
    read past the end.  With `n = 0` the address of the first entry is taken
    but not followed. -/
def raftSendAppendRequest (peer : Server) (n : Nat) (comment : Option String) : M Unit := do
  let r ← get
  ovsAssert .raftSendAppendRequest (r.role = .leader)
  if peer.nextIndex = 0 then
    fault (.access .raftSendAppendRequest)
  let prevLogTerm ←
    if r.logStart ≤ peer.nextIndex - 1 then
      (do return (← entryAt .raftSendAppendRequest (peer.nextIndex - 1)).term)
    else
      pure r.snap.term
  if n ≠ 0 ∧ ¬ (r.logStart ≤ peer.nextIndex ∧ peer.nextIndex + n ≤ r.logEnd) then
    fault (.access .raftSendAppendRequest)
  let _ ← raftSend
    { sid := peer.sid
      comment
      body := .appendRequest
        { term := r.term
          prevLogIndex := peer.nextIndex - 1
          prevLogTerm
          leaderCommit := r.commitIndex
          entries := (r.entries.drop (peer.nextIndex - r.logStart)).take n } }

def raftSendInstallSnapshotRequest (s : ServerRef) (comment : Option String) : M Unit := do
  let r ← get
  match r.deref s with
  | none => fault (.access .raftSendInstallSnapshotRequest)
  | some server =>
    if server.installSnapshotRequestInProgress then
      return ()
    match r.snap.servers, r.snap.data with
    | some lastServers, some data =>
      let sent ← raftSend
        { sid := server.sid
          comment
          body := .installSnapshotRequest
            { term := r.term
              lastIndex := r.logStart - 1
              lastTerm := r.snap.term
              lastServers
              lastEid := r.snap.eid
              data
              electionTimer := r.electionTimer } }
      modify (·.assign s ({ · with installSnapshotRequestInProgress := sent }))
    -- `json_clone` or `raft_rpc_to_jsonrpc` follows a null pointer.
    | _, _ => fault (.access .raftSendInstallSnapshotRequest)

/-! ## 3. Completion of commands -/

def raftSendExecuteCommandReply (sid eid : Uuid) (status : CommandStatus)
    (commitIndex : Nat) : M Unit := do
  let _ ← raftSend { sid, body := .executeCommandReply eid status commitIndex }

def raftCommandComplete (cmd : Command) (status : CommandStatus) : M Unit := do
  if cmd.sid ≠ 0 then
    raftSendExecuteCommandReply cmd.sid cmd.eid status
      (if status = .success then cmd.index else 0)
  emit (.complete cmd.eid status cmd.index)
  modify fun r => { r with commands := r.commands.erase cmd }

/-- Assignment to a command of the `commands` map; yields the new value. -/
def updateCommand (cmd : Command) (f : Command → Command) : M Command := do
  modify fun r => { r with commands := r.commands.replace cmd (f cmd) }
  pure (f cmd)

def raftCompleteAllCommands (status : CommandStatus) : M Unit := do
  forEach (← get).commands (fun cmd => raftCommandComplete cmd status)

def raftFindCommandByEid (r : Raft) (eid : Uuid) : Option Command :=
  r.commands.find? (fun cmd => cmd.eid == eid)

/-! ## 4. Initiating commands -/

/-- What `raft_command_execute__` returns: the status of a command that is
    already completed, or a command that is now in `commands`. -/
inductive CommandHandle where
  | completed (status : CommandStatus)
  | incomplete (cmd : Command)

/-- The loop of `raft_command_initiate` that writes to remote logs; it has gone
    through the servers in `visited`. -/
def announceToServers (index : Nat) : List Server → List Server → M Unit
  | _, [] => pure ()
  | visited, s :: rest => do
    if s.sid ≠ (← get).sid ∧ s.nextIndex = index then
      raftSendAppendRequest s 1 (some "execute command")
      let s := { s with nextIndex := s.nextIndex + 1 }
      modify fun r => { r with servers := visited ++ s :: rest }
      announceToServers index (visited ++ [s]) rest
    else
      announceToServers index (visited ++ [s]) rest

/-- The part of `raft_command_initiate` after the write to the local log, which
    succeeded iff `ok`. -/
def announceEntry (index : Nat) (eid : Uuid) (ok : Bool) : M CommandHandle := do
  if ¬ (← raftHandleWriteError ok) then
    return .completed .ioError
  let cmd : Command := { eid, index, timestamp := (← getEnv).now }
  modify fun r => { r with commands := r.commands ++ [cmd] }
  raftWaiterCreate (.entry index) true
  announceToServers index [] (← get).servers
  raftResetPingTimer
  return .incomplete cmd

def raftCommandInitiate (data : Option Json) (servers : Option Servers)
    (electionTimer : Nat) (eid : Uuid) : M CommandHandle := do
  let r ← get
  let ok ← raftWriteEntry r.term data (some eid) servers electionTimer
  announceEntry r.logEnd eid ok

/-- `raft_command_execute__`; `*result` is the returned eid. -/
def raftCommandExecute__ (data : Option Json) (servers : Option Servers)
    (electionTimer : Nat) (prereq : Option Uuid) : M (CommandHandle × Option Uuid) := do
  let r ← get
  if r.joining ∨ r.leaving ∨ r.left ∨ r.failed then
    return (.completed .shutdown, none)
  if r.role ≠ .leader then
    -- Consider proxying the command to the leader.
    match data, prereq with
    | some data, some prereq =>
      if servers.isSome ∨ electionTimer ≠ 0 ∨ r.role ≠ .follower ∨ r.leaderSid = 0 then
        return (.completed .notLeader, none)
      let eid := (← getEnv).uuidRandom
      let sent ← raftSend
        { sid := r.leaderSid, body := .executeCommandRequest data prereq eid }
      if ¬ sent then
        return (.completed .notLeader, some eid)
      let cmd : Command := { eid, index := 0, timestamp := (← getEnv).now }
      modify fun r => { r with commands := r.commands ++ [cmd] }
      return (.incomplete cmd, some eid)
    | _, _ => return (.completed .notLeader, none)
  else
    let env ← getEnv
    let eid := if data.isSome then env.uuidRandom else 0
    let currentEid ← raftCurrentEid
    if prereq.isSome ∧ prereq ≠ some currentEid then
      return (.completed .badPrereq, some eid)
    emit (.accept prereq data eid (← get))
    return (← raftCommandInitiate data servers electionTimer eid, some eid)

/-! ## 5. Replies about membership -/

def raftSendAddServerReply__ (sid : Uuid) (success : Bool) (comment : String) : M Unit := do
  let r ← get
  let remoteAddresses :=
    if r.joining then [] else (r.servers.filter (·.sid ≠ r.sid)).map (·.address)
  let _ ← raftSend
    { sid, comment := some comment, body := .addServerReply success remoteAddresses }

def raftFinishedLeavingCluster : M Unit := do
  raftRecordNote "left" "this server left the cluster"
  modify fun r => { r with leaving := false, left := true }

def raftSendRemoveServerReplyRpc (dstSid targetSid : Uuid) (success : Bool)
    (comment : String) : M Unit := do
  let r ← get
  if r.sid = dstSid then
    if success ∧ r.sid = targetSid then
      raftFinishedLeavingCluster
  else
    let _ ← raftSend
      { sid := dstSid
        comment := some comment
        body := .removeServerReply success (if dstSid = targetSid then 0 else targetSid) }

def raftSendRemoveServerReply__ (targetSid requesterSid : Uuid) (success : Bool)
    (comment : String) : M Unit := do
  if requesterSid ≠ 0 then
    raftSendRemoveServerReplyRpc requesterSid targetSid success comment
  if requesterSid ≠ targetSid then
    raftSendRemoveServerReplyRpc targetSid targetSid success comment

end Ovsgw.Cluster
