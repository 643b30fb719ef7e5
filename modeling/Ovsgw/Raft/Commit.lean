/-
  **The set of servers, and how the commit index advances.**

  Committing an entry that carries `servers` lets the next membership change
  go ahead, which appends a new entry; so the two live together.
-/
import Ovsgw.Raft.Commands

namespace Ovsgw.Cluster

/-! ## 1. The set of servers -/

def raftServerInitLeader (logEnd : Nat) (s : Server) : Server :=
  { s with
    nextIndex := logEnd
    matchIndex := 0
    phase := .stable
    replied := false
    installSnapshotRequestInProgress := false }

def addMissing (logEnd : Nat) (servers : List Server) (n : Uuid × String) : List Server :=
  if (raftServerFind servers n.1).isSome then servers
  else servers ++ [raftServerInitLeader logEnd { sid := n.1, address := n.2 }]

/-- The new value of `raft->servers` in `raft_set_servers`.  Its assertion
    compares pointers: `remove_server` is never an element of `servers`. -/
def setServers (logEnd : Nat) (old : List Server) (newServers : Servers) : List Server :=
  newServers.foldl (addMissing logEnd)
    (old.filter (fun s => newServers.any (fun n => n.1 == s.sid)))

def raftSetServers (newServers : Servers) : M Unit :=
  modify fun r => { r with servers := setServers r.logEnd r.servers newServers }

/-- `raft_get_servers_from_log`: it asserts that `raft_servers_from_json` reports no error, which
    means that there is an object with at least one member and that every address in it is valid. -/
def raftGetServersFromLog : M Unit := do
  let env ← getEnv
  let r ← get
  match latestServers r.snap.servers r.entries with
  | some servers =>
    ovsAssert .raftGetServersFromLog
      (servers ≠ [] ∧ servers.all (fun n => env.addressValid n.2))
    raftSetServers servers
  | none => fault (.assert .raftGetServersFromLog)

def raftGetElectionTimerFromLog : M Unit :=
  modify fun r =>
    let timer := if r.snap.electionTimer ≠ 0 then r.snap.electionTimer else r.electionTimer
    let committed := r.entries.take (r.commitIndex + 1 - r.logStart)
    { r with electionTimer :=
        committed.foldl (fun acc e => if e.electionTimer ≠ 0 then e.electionTimer else acc) timer }

/-- `raft_servers_to_json`, in parsed form: a later server replaces an earlier
    one with the same ID. -/
def raftServersToJson (servers : List Server) : Servers :=
  servers.foldl (fun acc s => acc.filter (fun n => n.1 ≠ s.sid) ++ [(s.sid, s.address)]) []

/-! ## 2. Reconfiguration -/

def raftHasUncommittedConfiguration : M Bool := do
  let r ← get
  -- The assertion in the loop compares the index with `log_start`, so it can
  -- fail only in the first iteration.
  ovsAssert .raftHasUncommittedConfiguration
    (r.commitIndex + 1 < r.logEnd → r.logStart ≤ r.commitIndex + 1)
  pure ((r.entries.drop (r.commitIndex + 1 - r.logStart)).any (fun e => e.servers.isSome))

def raftLogReconfiguration : M Unit := do
  let r ← get
  let _ ← raftCommandExecute__ none (some (raftServersToJson r.servers)) 0 none

/-- The first loop of `raft_run_reconfigure`: report and forget the servers
    whose addition is now committed. -/
def reportCommitted : M Unit := do
  forEach (← get).servers fun s => do
    if s.phase = .committing then
      raftSendAddServerReply__ s.sid true "completed"
      modify fun r =>
        { r with servers := updateServer r.servers s.sid ({ · with phase := .stable }) }

/-- Report a removal that is now committed, or that is given up. -/
def reportRemoved (success : Bool) (comment : String) : M Unit := do
  match (← get).removeServer with
  | some s =>
    raftSendRemoveServerReply__ s.sid s.requesterSid success comment
    modify fun r => { r with removeServer := none }
  | none => pure ()

def raftRunReconfigure : M Unit := do
  ovsAssert .raftRunReconfigure ((← get).role = .leader)
  -- Reconfiguration only progresses when configuration changes commit.
  if ← raftHasUncommittedConfiguration then
    return ()
  reportCommitted
  reportRemoved true "completed"
  let r ← get
  -- If a new server is caught up, add it to the configuration.
  match r.addServers.find? (·.phase == .caughtUp) with
  | some s =>
    emit (.reconfigure r)
    modify fun r =>
      { r with addServers := r.addServers.erase s
               servers := r.servers ++ [{ s with phase := .committing }] }
    raftLogReconfiguration
  | none =>
    -- Remove a server, if one is scheduled for removal.
    match r.servers.find? (·.phase == .remove) with
    | some s =>
      emit (.reconfigure r)
      modify fun r => { r with servers := r.servers.erase s, removeServer := some s }
      raftLogReconfiguration
    | none => return ()

/-! ## 3. The commit index -/

/-- Complete the command with the given eid, if it is pending, after changing its index by `f`. -/
def completeByEid (eid : Uuid) (f : Command → Command) : M Unit := do
  match raftFindCommandByEid (← get) eid with
  | some cmd =>
    let cmd ← updateCommand cmd f
    raftCommandComplete cmd .success
  | none => pure ()

/-- What the leader does about the entry that it has just committed. -/
def leaderCommitted (index : Nat) (e : Entry) : M Unit := do
  if e.data.isSome then
    completeByEid e.eid (fun cmd => if cmd.index = 0 then { cmd with index } else cmd)
  if e.electionTimer ≠ 0 then
    modify fun r => { r with electionTimer := e.electionTimer, electionTimerNew := 0 }
  if e.servers.isSome then
    raftRunReconfigure

/-- One iteration of the leader's loop in `raft_update_commit_index`. -/
def commitOneAsLeader : M Unit := do
  modify fun r => { r with commitIndex := r.commitIndex + 1 }
  let index := (← get).commitIndex
  let e ← raftGetEntry index
  leaderCommitted index e

/-- One iteration of the loop for other roles. -/
def commitOneAsFollower : M Unit := do
  modify fun r => { r with commitIndex := r.commitIndex + 1 }
  let e ← raftGetEntry (← get).commitIndex
  if e.electionTimer ≠ 0 then
    modify fun r => { r with electionTimer := e.electionTimer }

def repeatM : Nat → M Unit → M Unit
  | 0, _ => pure ()
  | n + 1, m => do
    m
    repeatM n m

def raftUpdateCommitIndex (newCommitIndex : Nat) : M Bool := do
  let r ← get
  if newCommitIndex ≤ r.commitIndex then
    return false
  if r.role = .leader then
    repeatM (newCommitIndex - r.commitIndex) commitOneAsLeader
  else
    repeatM (newCommitIndex - r.commitIndex) commitOneAsFollower
    -- Check if any pending command can be completed, and complete it.
    let eid ← raftGetEid newCommitIndex
    completeByEid eid ({ · with index := newCommitIndex })
  let r ← get
  let _ ← ovsdbLogWrite { body := .commitIndex r.commitIndex }
  return true

def raftSendHeartbeats : M Unit := do
  let r ← get
  forEach r.servers fun s => do
    if s.sid ≠ r.sid then
      raftSendAppendRequest s 0 (some "heartbeat")
  -- Send anyone waiting for a command to complete a ping.
  forEach r.commands fun cmd => do
    if cmd.sid ≠ 0 then
      raftSendExecuteCommandReply cmd.sid cmd.eid .incomplete 0
  raftResetPingTimer

def matchCount (servers : List Server) (idx : Nat) : Nat :=
  servers.countP (fun s => idx ≤ s.matchIndex)

/-- May the leader commit the entry with index `idx` on its own count? -/
def Raft.committable (r : Raft) (idx : Nat) : Bool :=
  (r.entryAt? idx).any (·.term == r.term) && r.servers.length / 2 < matchCount r.servers idx

def newCommitIndex (r : Raft) : Nat :=
  let first := max (r.commitIndex + 1) r.logStart
  (List.range' first (r.logEnd - first)).foldl
    (fun acc idx => if r.committable idx then idx else acc) r.commitIndex

def raftConsiderUpdatingCommitIndex : M Unit := do
  let r ← get
  ovsAssert .raftConsiderUpdatingCommitIndex (r.role = .leader)
  if ← raftUpdateCommitIndex (newCommitIndex r) then
    raftSendHeartbeats

def raftUpdateMatchIndex (s : ServerRef) (minIndex : Nat) : M Unit := do
  let r ← get
  ovsAssert .raftUpdateMatchIndex (r.role = .leader)
  match r.deref s with
  | none => fault (.access .raftUpdateMatchIndex)
  | some server =>
    if server.matchIndex < minIndex then
      modify (·.assign s ({ · with matchIndex := minIndex }))
      raftConsiderUpdatingCommitIndex

def raftUpdateOurMatchIndex (minIndex : Nat) : M Unit := do
  let r ← get
  if (raftFindServer r r.sid).isSome then
    raftUpdateMatchIndex (.peer r.sid) minIndex

end Ovsgw.Cluster
