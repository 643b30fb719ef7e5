/-
  **One server: every RPC, timer and call that can change its state.**

  `Input` lists what can happen to a server, `Input.run` says what the code does about it.
  `raft_run` is one long function whose blocks are independent of each other; each block is an input
  of its own here, so a run of this model may take them in any order and at any time.
-/
import Ovsgw.Raft.Append

namespace Ovsgw.Cluster

/-! ## 1. Membership changes -/

def raftHandleAddServerRequest (src : Uuid) (address : String) : M Unit := do
  let r ← get
  if r.role ≠ .leader then
    raftSendAddServerReply__ src false "not leader"
  else
    match raftFindServer r src with
    | some s =>
      if s.phase = .remove then
        -- If the server is scheduled to be removed, cancel it.
        modify fun r =>
          { r with servers := updateServer r.servers src ({ · with phase := .stable }) }
        raftSendAddServerReply__ src false "canceled"
      else
        if s.phase ≠ .stable then
          raftSendAddServerReply__ src false "in progress"
        raftSendAddServerReply__ src true "already in cluster"
    | none =>
      if r.removeServer.any (·.sid == src) then
        raftSendAddServerReply__ src false "committing"
      else if (raftFindNewServer r src).isSome then
        raftSendAddServerReply__ src false "in progress"
      else
        let s := { raftServerInitLeader r.logEnd { sid := src, address } with
                   requesterSid := src, phase := .catchup }
        modify fun r => { r with addServers := r.addServers ++ [s] }
        raftSendAppendRequest s 0 (some "initialize new server")

def raftHandleAddServerReply (success : Bool) (remoteAddresses : List String) : M Unit := do
  let r ← get
  if ¬ r.joining then
    return ()
  if success then
    modify fun r => { r with joining := false }
  else
    modify fun r =>
      { r with remoteAddresses := r.remoteAddresses ++
          remoteAddresses.filter (fun a => ¬ r.remoteAddresses.contains a) }

/-- `raft_handle_remove_server_request`; `requesterConn` is set if the request
    came in via `ovs-appctl`, and then the requester's ID is zero. -/
def raftHandleRemoveServerRequest (src sid : Uuid) (requesterConn : Option Nat) : M Unit := do
  let r ← get
  if r.role ≠ .leader then
    raftSendRemoveServerReply__ sid src false "not leader"
  else if (raftFindNewServer r sid).isSome then
    -- If the server to remove is currently waiting to be added, cancel it.
    raftSendAddServerReply__ sid false "canceled"
    modify fun r => { r with addServers := r.addServers.eraseP (·.sid == sid) }
  else
    match raftFindServer r sid with
    | none => raftSendRemoveServerReply__ sid src true "already not in cluster"
    | some target =>
      if target.phase = .committing then
        raftSendRemoveServerReply__ sid src false "committing"
      else if target.phase = .remove then
        raftSendRemoveServerReply__ sid src false "in progress"
      else if (r.servers.filter (fun s => s.sid ≠ sid ∧ s.phase ≠ .remove)).isEmpty then
        raftSendRemoveServerReply__ sid src false "empty"
      else
        -- Mark the server for removal.
        modify fun r =>
          { r with servers := updateServer r.servers sid fun s =>
              { s with
                phase := .remove
                requesterSid := if requesterConn.isSome then 0 else src
                requesterConn := if requesterConn.isSome then s.requesterConn else none } }
        raftRunReconfigure

def raftHandleRemoveServerReply (success : Bool) (targetSid : Uuid) : M Unit := do
  let r ← get
  if success ∧ (targetSid = 0 ∨ targetSid = r.sid) then
    raftFinishedLeavingCluster

/-! ## 2. Leadership transfer and forwarded commands -/

def raftHandleBecomeLeader : M Unit := do
  if (← get).role = .follower then
    raftStartElection true

def raftHandleExecuteCommandRequest__ (src : Uuid) (data : Json) (prereq result : Uuid) :
    M CommandStatus := do
  if (← get).role ≠ .leader then
    return .notLeader
  let currentEid ← raftCurrentEid
  if prereq ≠ currentEid then
    return .badPrereq
  emit (.accept (some prereq) (some data) result (← get))
  match ← raftCommandInitiate (some data) none 0 result with
  | .completed status => return status
  | .incomplete cmd =>
    let _ ← updateCommand cmd ({ · with sid := src })
    return .incomplete

def raftHandleExecuteCommandRequest (src : Uuid) (data : Json) (prereq result : Uuid) :
    M Unit := do
  let status ← raftHandleExecuteCommandRequest__ src data prereq result
  if status ≠ .incomplete then
    raftSendExecuteCommandReply src result status 0

def raftHandleExecuteCommandReply (result : Uuid) (status : CommandStatus)
    (commitIndex : Nat) : M Unit := do
  match raftFindCommandByEid (← get) result with
  | none => return ()
  | some cmd =>
    if status = .incomplete then
      let now := (← getEnv).now
      let _ ← updateCommand cmd ({ · with timestamp := now })
    else
      let cmd ← updateCommand cmd ({ · with index := commitIndex })
      raftCommandComplete cmd status

/-! ## 3. RPCs -/

/-- The `switch` of `raft_handle_rpc`. -/
def dispatch (rpc : Rpc) : M Unit :=
  match rpc.body with
  | .helloRequest _ => pure ()
  | .appendRequest rq => raftHandleAppendRequest rpc rq
  | .appendReply rpy => raftHandleAppendReply rpc.sid rpy
  | .voteRequest rq => raftHandleVoteRequest rpc.sid rq
  | .voteReply rpy => raftHandleVoteReply rpc.sid rpy
  | .addServerRequest address => raftHandleAddServerRequest rpc.sid address
  | .addServerReply success remoteAddresses => raftHandleAddServerReply success remoteAddresses
  | .removeServerRequest sid requesterConn =>
    raftHandleRemoveServerRequest rpc.sid sid requesterConn
  | .removeServerReply success targetSid => raftHandleRemoveServerReply success targetSid
  | .installSnapshotRequest rq => raftHandleInstallSnapshotRequest rpc.sid rq
  | .installSnapshotReply rpy => raftHandleInstallSnapshotReply rpc.sid rpy
  | .becomeLeader _ => raftHandleBecomeLeader
  | .executeCommandRequest data prereq result =>
    raftHandleExecuteCommandRequest rpc.sid data prereq result
  | .executeCommandReply result status commitIndex =>
    raftHandleExecuteCommandReply result status commitIndex

def raftHandleRpc (rpc : Rpc) : M Unit := do
  let env ← getEnv
  let r ← get
  let term := raftRpcGetTerm rpc
  -- A suppressed vote request is not dropped: it skips the term check and
  -- reaches the handler.
  let proceed ←
    if term ≠ 0 ∧ ¬ raftShouldSuppressDisruptiveServer env.now r rpc then
      raftReceiveTerm__ term
    else
      pure true
  if proceed then
    dispatch rpc
  else
    match rpc.body with
    | .appendRequest rq => raftSendAppendReply rpc.sid rq .inconsistency "stale term"
    | _ => return ()

/-! ## 4. Waiters -/

def raftWaiterCompleteRpc (rpc : Rpc) : M Unit := do
  let r ← get
  let term := raftRpcGetTerm rpc
  if term ≠ 0 ∧ term < r.term then
    -- Drop the message because it's for an expired term.
    return ()
  if ¬ raftIsRpcSynced r rpc then
    return ()
  if raftFindConnBySid r rpc.sid then
    let _ ← raftSendToConn rpc

def raftWaiterComplete (w : WaiterBody) : M Unit :=
  match w with
  | .entry index => do
    if (← get).role = .leader then
      raftUpdateOurMatchIndex index
    modify fun r => { r with logSynced := index }
  | .term term vote => modify fun r => { r with syncedTerm := term, syncedVote := vote }
  | .rpc rpc => raftWaiterCompleteRpc rpc

/-- The loop of `raft_waiters_run` over the waiters that are there at its
    start.  A waiter added on the way is left to the next run. -/
def completeWaiters (cur : Nat) : List Waiter → M Unit
  | [] => pure ()
  | w :: ws => do
    if cur < w.commitTicket then
      return ()
    raftWaiterComplete w.body
    modify fun r => { r with waiters := r.waiters.tail }
    completeWaiters cur ws

def raftWaitersRun : M Unit := do
  let r ← get
  completeWaiters r.log.cur r.waiters

/-! ## 5. Timers -/

def runElectionTimer : M Unit := do
  let env ← getEnv
  let r ← get
  if r.joining ∨ env.now < r.electionTimeout then
    return ()
  if r.role = .leader then
    if r.servers.length / 2 ≤ r.servers.countP (·.replied) then
      modify fun r => { r with servers := r.servers.map ({ · with replied := false }) }
      raftResetElectionTimer
    else
      raftBecomeFollower
      raftStartElection false
  else
    raftStartElection false

def raftSendRemoveServerRequests : M Unit := do
  let env ← getEnv
  let r ← get
  forEach r.servers fun s => do
    if s.sid ≠ r.sid then
      let _ ← raftSend { sid := s.sid, body := .removeServerRequest r.sid none }
  modify fun r => { r with leaveTimeout := env.now + r.electionTimer }

def runLeaveTimer : M Unit := do
  let env ← getEnv
  let r ← get
  if r.leaving ∧ r.leaveTimeout ≤ env.now then
    raftSendRemoveServerRequests

def runJoinTimer : M Unit := do
  let env ← getEnv
  let r ← get
  if r.joining ∧ r.joinTimeout ≤ env.now then
    modify fun r => { r with joinTimeout := env.now + 1000 }
    forEach r.conns fun sid => do
      let _ ← raftSendToConn { sid, body := .addServerRequest r.localAddress }

def runPingTimer : M Unit := do
  let env ← getEnv
  let r ← get
  if r.pingTimeout ≤ env.now then
    if r.role = .leader then
      raftSendHeartbeats
    forEach (← get).commands fun cmd => do
      if cmd.timestamp ≠ 0 ∧ r.electionTimer * 2 < env.now - cmd.timestamp then
        raftCommandComplete cmd .timeout
    raftResetPingTimer

def raftClose__ : M Unit := do
  raftCompleteAllCommands .shutdown
  reportRemoved false "shutdown"
  modify fun r => { r with conns := [], closed := true }

def runClose : M Unit := do
  let r ← get
  if r.left ∨ r.failed then
    raftClose__

/-! ## 6. Sessions -/

def runConnected (sid : Uuid) : M Unit := do
  modify fun r =>
    { r with
      conns := sid :: r.conns
      servers := updateServer r.servers sid
        ({ · with installSnapshotRequestInProgress := false }) }
  let r ← get
  let body : Body :=
    if r.joining then .addServerRequest r.localAddress
    else if r.leaving then .removeServerRequest r.sid none
    else .helloRequest r.localAddress
  let _ ← raftSendToConn { sid, body }

def runDisconnected (sid : Uuid) : M Unit :=
  modify fun r =>
    { r with
      conns := r.conns.erase sid
      servers := updateServer r.servers sid
        ({ · with installSnapshotRequestInProgress := false }) }

/-! ## 7. Calls -/

def raftTransferLeadership (reason : String) : M Unit := do
  let r ← get
  if r.role = .leader then
    match r.servers.find? (fun s =>
        s.sid != r.sid && s.phase == .stable && raftFindConnBySid r s.sid) with
    | some s =>
      let _ ← raftSendToConn
        { sid := s.sid, comment := some reason, body := .becomeLeader r.term }
      raftRecordNote "transfer leadership" ("transferring leadership because " ++ reason)
    | none => return ()

def raftLeave : M Unit := do
  let r ← get
  if r.joining ∨ r.failed ∨ r.leaving ∨ r.left then
    return ()
  modify fun r => { r with leaving := true }
  raftTransferLeadership "this server is leaving the cluster"
  raftBecomeFollower
  raftSendRemoveServerRequests

def raftTakeLeadership : M Unit := do
  if (← get).role ≠ .leader then
    raftStartElection true

/-- `raft_unixctl_kick`, for the server with ID `sid`. -/
def raftUnixctlKick (sid : Uuid) : M Unit := do
  let r ← get
  if (raftFindServer r sid).isSome then
    if sid = r.sid then
      raftLeave
    else if r.role = .leader then
      raftHandleRemoveServerRequest 0 sid (some 0)
    else
      let _ ← raftSend
        { sid := r.leaderSid, comment := some "via unixctl"
          body := .removeServerRequest sid none }

def raftUnixctlChangeElectionTimer (electionTimer : Nat) : M Unit := do
  let r ← get
  if r.role = .leader ∧ r.electionTimerNew = 0 ∧ electionTimer ≠ r.electionTimer
      ∧ 100 ≤ electionTimer ∧ electionTimer ≤ 600000
      ∧ electionTimer ≤ r.electionTimer * 2 then
    modify fun r => { r with electionTimerNew := electionTimer }
    let _ ← raftCommandExecute__ none none electionTimer none

/-! ## 8. Inputs -/

inductive Input where
  | rpc (rpc : Rpc)
  /-- The disk reports progress up to ticket `cur`. -/
  | synced (cur : Nat)
  | waiters
  | electionTimer
  | leaveTimer
  | joinTimer
  | pingTimer
  | close
  | connected (sid : Uuid)
  | disconnected (sid : Uuid)
  /-- A message with a cluster ID arrives. -/
  | clusterId (cid : Uuid)
  | command (data : Option Json) (prereq : Option Uuid)
  | nextEntry
  | hasNextEntry
  | snapshot (data : Json)
  | takeLeadership
  | transferLeadership (reason : String)
  | changeElectionTimer (electionTimer : Nat)
  | kick (sid : Uuid)
  | leave
  /-- The maps of servers, new servers and commands are rehashed. -/
  | rehash (servers addServers : List Server) (commands : List Command)

def Input.run : Input → M Unit
  | .rpc msg => raftHandleRpc msg
  | .synced cur => modify fun r =>
      if r.log.cur ≤ cur ∧ cur ≤ r.log.next then
        { r with log := { r.log with cur } }
      else r
  | .waiters => raftWaitersRun
  | .electionTimer => runElectionTimer
  | .leaveTimer => runLeaveTimer
  | .joinTimer => runJoinTimer
  | .pingTimer => runPingTimer
  | .close => runClose
  | .connected sid => runConnected sid
  | .disconnected sid => runDisconnected sid
  | .clusterId cid => modify fun r => if r.cid = 0 then { r with cid } else r
  | .command data prereq => do let _ ← raftCommandExecute__ data none 0 prereq
  | .nextEntry => do let _ ← raftGetNextEntry
  | .hasNextEntry => do let _ ← raftPeekNextEntry
  | .snapshot data => do let _ ← raftStoreSnapshot data
  | .takeLeadership => raftTakeLeadership
  | .transferLeadership reason => raftTransferLeadership reason
  | .changeElectionTimer timer => raftUnixctlChangeElectionTimer timer
  | .kick sid => raftUnixctlKick sid
  | .leave => raftLeave
  | .rehash servers addServers commands => modify fun r =>
      if servers.isPerm r.servers ∧ addServers.isPerm r.addServers
          ∧ commands.isPerm r.commands then
        { r with servers, addServers, commands }
      else r

/-- The inputs that a closed server no longer takes: its sessions are gone and
    `raft_run` returns at once. -/
def Input.needsOpen : Input → Bool
  | .rpc _ | .waiters | .electionTimer | .leaveTimer | .joinTimer | .pingTimer | .close
  | .connected _ | .clusterId _ => true
  | _ => false

end Ovsgw.Cluster
