/-
  **Replication: append requests and replies, and snapshots.**
-/
import Ovsgw.Raft.Election

namespace Ovsgw.Cluster

/-! ## 1. Append requests -/

def sendAppendReplyRpc (src : Uuid) (rq : AppendRequest) (result : AppendResult)
    (comment : String) : M Unit := do
  let r ← get
  let _ ← raftSend
    { sid := src
      comment := some comment
      body := .appendReply
        { term := r.term
          logEnd := r.logEnd
          prevLogIndex := rq.prevLogIndex
          prevLogTerm := rq.prevLogTerm
          nEntries := rq.entries.length
          result } }

def raftSendAppendReply (src : Uuid) (rq : AppendRequest) (result : AppendResult)
    (comment : String) : M Unit := do
  let r ← get
  if result = .ok ∧ r.commitIndex < rq.leaderCommit then
    let _ ← raftUpdateCommitIndex
      (min rq.leaderCommit (u64 (rq.prevLogIndex + rq.entries.length)))
  sendAppendReplyRpc src rq result comment

/-- `match_index_and_term`: the explanation of a mismatch, or `none`. -/
def matchIndexAndTerm (r : Raft) (prevLogIndex prevLogTerm : Nat) : Option String :=
  if prevLogIndex < r.logStart - 1 then
    some "mismatch before start of log"
  else if prevLogIndex = r.logStart - 1 then
    if prevLogTerm ≠ r.snap.term then some "prev_term mismatch" else none
  else
    match r.entryAt? prevLogIndex with
    | some e => if e.term ≠ prevLogTerm then some "term mismatch" else none
    | none => some "mismatch past end of log"

/-- The first loop of `raft_handle_append_entries`: skip the entries that are
    already in the log, and cut the log at the first conflict.  Returns the
    entries still to be written and whether `servers` may have changed. -/
def skipPresent : Nat → List Entry → M (List Entry × Bool)
  | _, [] => pure ([], false)
  | logIndex, e :: es => do
    if (← get).logEnd ≤ logIndex then
      pure (e :: es, false)
    else
      let old ← entryAt .raftHandleAppendEntries logIndex
      if old.term ≠ e.term then
        let changed ← raftTruncate logIndex
        pure (e :: es, changed)
      else
        skipPresent (logIndex + 1) es

/-- What the second loop of `raft_handle_append_entries` has done. -/
structure Written where
  anyWritten : Bool := false
  serversChanged : Bool := false
  error : Bool := false

/-- The second loop of `raft_handle_append_entries`. -/
def writeEntries : List Entry → Written → M Written
  | [], w => pure w
  | e :: es, w => do
    if ¬ (← raftWriteEntry e.term e.data (some e.eid) e.servers e.electionTimer) then
      return { w with error := true }
    writeEntries es
      { w with anyWritten := true, serversChanged := w.serversChanged || e.servers.isSome }

def waitForLastEntry : M Unit := do
  raftWaiterCreate (.entry ((← get).logEnd - 1)) true

def finishAppend (rpc : Rpc) (rq : AppendRequest) (w : Written) : M Unit := do
  if w.anyWritten then
    waitForLastEntry
  if w.serversChanged then
    raftGetServersFromLog
  if w.error then
    raftSendAppendReply rpc.sid rq .ioError "I/O error"
  else
    raftSendAppendReply rpc.sid rq .ok "log updated"

def raftHandleAppendEntries (rpc : Rpc) (rq : AppendRequest)
    (prevLogIndex prevLogTerm : Nat) (entries : List Entry) : M Unit := do
  match matchIndexAndTerm (← get) prevLogIndex prevLogTerm with
  | some mismatch => raftSendAppendReply rpc.sid rq .inconsistency mismatch
  | none =>
    let (rest, changed) ← skipPresent (prevLogIndex + 1) entries
    if rest.isEmpty then
      -- No change.
      raftSendAppendReply rpc.sid rq .ok
        (if rpc.comment = some "heartbeat" then "heartbeat" else "no change")
    else
      finishAppend rpc rq (← writeEntries rest { serversChanged := changed })

/-- The part of `raft_update_leader` that notes a new leader, in memory and in the log file. -/
def recordLeader (sid : Uuid) : M Unit := do
  raftSetLeader sid
  let _ ← ovsdbLogWrite { term := (← get).term, body := .leader sid }

def raftUpdateLeader (sid : Uuid) : M Bool := do
  let r ← get
  if r.role = .leader then
    return false
  if sid ≠ r.leaderSid then
    recordLeader sid
  if r.role = .candidate then
    modify fun r => { r with role := .follower }
  return true

def raftHandleAppendRequest (rpc : Rpc) (rq : AppendRequest) : M Unit := do
  if ¬ (← raftUpdateLeader rpc.sid) then
    raftSendAppendReply rpc.sid rq .inconsistency "usurped leadership"
  else
    raftResetElectionTimer
    let r ← get
    let firstEntryIndex := u64 (rq.prevLogIndex + 1)
    let nthEntryIndex := u64 (rq.prevLogIndex + rq.entries.length)
    if r.logStart ≤ firstEntryIndex then
      raftHandleAppendEntries rpc rq rq.prevLogIndex rq.prevLogTerm rq.entries
    else if nthEntryIndex < r.logStart - 1 then
      raftSendAppendReply rpc.sid rq .ok "append before log start"
    else if nthEntryIndex = r.logStart - 1 then
      let lastTerm := (rq.entries.getLast?.map (·.term)).getD rq.prevLogTerm
      if r.snap.term = lastTerm then
        raftSendAppendReply rpc.sid rq .ok "no change"
      else
        raftSendAppendReply rpc.sid rq .inconsistency "term mismatch"
    else
      let ofs := r.logStart - firstEntryIndex
      match rq.entries[ofs - 1]? with
      | some e =>
        raftHandleAppendEntries rpc rq (r.logStart - 1) e.term (rq.entries.drop ofs)
      | none => fault (.access .raftHandleAppendRequest)

/-! ## 2. Append replies -/

def sendNext (s : ServerRef) : M Unit := do
  let r ← get
  match r.deref s with
  | none => fault (.access .raftHandleAppendReply)
  | some server =>
    if server.nextIndex < r.logStart then
      -- Case 1.
      raftSendInstallSnapshotRequest s none
    else if server.nextIndex < r.logEnd then
      -- Case 2.
      raftSendAppendRequest server (r.logEnd - server.nextIndex) none
    else if server.phase = .catchup then
      -- Case 3.
      modify (·.assign s ({ · with phase := .caughtUp }))
      raftRunReconfigure

def raftHandleAppendReply (src : Uuid) (rpy : AppendReply) : M Unit := do
  let r ← get
  if r.role ≠ .leader then
    return ()
  match raftFindPeerOrNew r src with
  | none => return ()
  | some s =>
    emit (.appendReply src rpy r)
    modify (·.assign s ({ · with replied := true }))
    if rpy.result = .ok then
      let minIndex := u64 (rpy.prevLogIndex + rpy.nEntries + 1)
      modify (·.assign s (fun s => { s with nextIndex := max s.nextIndex minIndex }))
      raftUpdateMatchIndex s (u64 (minIndex + (2 ^ 64 - 1)))
    else
      modify (·.assign s (fun s => { s with nextIndex := min (s.nextIndex - 1) rpy.logEnd }))
      if rpy.result = .ioError then
        return ()
    sendNext s

/-! ## 3. Writing a snapshot -/

def entryRecord (index : Nat) (e : Entry) : Record :=
  { term := e.term, body := .entry index e.data e.servers e.electionTimer e.eid }

/-- The records for a list of entries, the first of which has index `index`. -/
def entryRecords : Nat → List Entry → List Record
  | _, [] => []
  | index, e :: es => entryRecord index e :: entryRecords (index + 1) es

/-- The records of a new log file: the log entries, term and vote, and the
    commit index if it is past the snapshot. -/
def snapshotRecords (newLogStart : Nat) (entries : List Entry) (term : Nat) (vote : Uuid)
    (commitIndex : Nat) : List Record :=
  entryRecords newLogStart entries
    ++ [stateRecord term vote]
    ++ (if newLogStart ≤ commitIndex then [{ body := .commitIndex commitIndex }] else [])

/-- `raft_write_snapshot`: the header and the records of the new log file. -/
def raftWriteSnapshot (r : Raft) (newLogStart : Nat) (newSnapshot : Entry) :
    Header × List Record :=
  ({ sid := r.sid
     cid := r.cid
     name := r.name
     localAddress := r.localAddress
     snapIndex := newLogStart - 1
     snap := newSnapshot },
   snapshotRecords newLogStart (r.entries.drop (newLogStart - r.logStart)) r.term r.vote
     r.commitIndex)

/-- `raft_save_snapshot`, true if there is no error. -/
def raftSaveSnapshot (newStart : Nat) (newSnapshot : Entry) : M Bool := do
  let env ← getEnv
  if ¬ env.saveOk then
    return false
  modify fun r =>
    let file := raftWriteSnapshot r newStart newSnapshot
    { r with log := r.log.replace file.1 file.2 }
  return true

/-! ## 4. Snapshots from the leader, and local ones -/

def InstallSnapshotRequest.snapshot (rq : InstallSnapshotRequest) : Entry :=
  { term := rq.lastTerm
    data := some rq.data
    eid := rq.lastEid
    servers := some rq.lastServers
    electionTimer := rq.electionTimer }

def raftHandleInstallSnapshotRequest__ (rq : InstallSnapshotRequest) : M Bool := do
  raftResetElectionTimer
  let r ← get
  let newLogStart := u64 (rq.lastIndex + 1)
  if newLogStart < r.logEnd then
    -- Cases 1 and 2: the new snapshot covers less than our current one, or
    -- starts in the middle of our log.
    return true
  -- Case 3: the new snapshot starts past the end of our current log.
  emit (.install rq r)
  if ¬ (← raftSaveSnapshot newLogStart rq.snapshot) then
    return false
  modify fun r =>
    { r with
      entries := []
      logStart := newLogStart
      logSynced := newLogStart - 1
      commitIndex := newLogStart - 1
      lastApplied := if r.lastApplied < newLogStart - 1 then newLogStart - 2 else r.lastApplied
      snap := rq.snapshot }
  raftGetServersFromLog
  raftGetElectionTimerFromLog
  return true

def raftHandleInstallSnapshotRequest (src : Uuid) (rq : InstallSnapshotRequest) : M Unit := do
  if ← raftHandleInstallSnapshotRequest__ rq then
    let r ← get
    let _ ← raftSend
      { sid := src
        body := .installSnapshotReply
          { term := r.term, lastIndex := rq.lastIndex, lastTerm := rq.lastTerm } }

def raftHandleInstallSnapshotReply (src : Uuid) (rpy : InstallSnapshotReply) : M Unit := do
  let r ← get
  match raftFindPeerOrNew r src with
  | none => return ()
  | some s =>
    modify (·.assign s ({ · with installSnapshotRequestInProgress := false }))
    if rpy.lastIndex ≠ r.logStart - 1 ∨ rpy.lastTerm ≠ r.snap.term then
      raftSendInstallSnapshotRequest s (some "installed obsolete snapshot")
    else
      modify (·.assign s ({ · with nextIndex := r.logStart }))
      match (← get).deref s with
      | none => fault (.access .raftHandleInstallSnapshotReply)
      | some server =>
        raftSendAppendRequest server (r.logEnd - server.nextIndex) (some "snapshot installed")

/-- `raft_store_snapshot`, the error message if it fails. -/
def raftStoreSnapshot (newSnapshotData : Json) : M (Except String Unit) := do
  let r ← get
  if r.joining then
    return .error "cannot store a snapshot while joining cluster"
  if r.leaving then
    return .error "cannot store a snapshot while leaving cluster"
  if r.left then
    return .error "cannot store a snapshot after leaving cluster"
  if r.failed then
    return .error "cannot store a snapshot following failure"
  if r.lastApplied < r.logStart then
    return .error "not storing a duplicate snapshot"
  let newLogStart := r.lastApplied + 1
  let term ← raftGetTerm (newLogStart - 1)
  let eid ← raftGetEid (newLogStart - 1)
  let servers ← raftServersForIndex (newLogStart - 1)
  -- `json_clone` follows its argument.
  if servers.isNone then
    fault (.access .raftStoreSnapshot)
  let newSnapshot : Entry :=
    { term, data := some newSnapshotData, eid, servers, electionTimer := r.electionTimer }
  if ¬ (← raftSaveSnapshot newLogStart newSnapshot) then
    return .error "could not save snapshot"
  modify fun r =>
    { r with
      logSynced := r.logEnd - 1
      snap := newSnapshot
      entries := r.entries.drop (newLogStart - r.logStart)
      logStart := newLogStart }
  return .ok ()

/-! ## 5. Handing entries to the database -/

/-- The loop of `raft_peek_next_entry`: `n` is the number of entries between
    `last_applied` and `commit_index`. -/
def skipApplied : Nat → M (Option (Json × Uuid))
  | 0 => pure none
  | n + 1 => do
    let e ← raftGetEntry ((← get).lastApplied + 1)
    match e.data with
    | some data => pure (some (data, e.eid))
    | none => do
      modify fun r => { r with lastApplied := r.lastApplied + 1 }
      skipApplied n

def raftPeekNextEntry : M (Option (Json × Uuid)) := do
  let r ← get
  ovsAssert .raftPeekNextEntry (r.logStart ≤ r.lastApplied + 2)
  ovsAssert .raftPeekNextEntry (r.lastApplied ≤ r.commitIndex)
  ovsAssert .raftPeekNextEntry (r.commitIndex < r.logEnd)
  if r.joining ∨ r.failed then
    return none
  if r.logStart = r.lastApplied + 2 then
    return r.snap.data.map (fun data => (data, r.snap.eid))
  skipApplied (r.commitIndex - r.lastApplied)

/-- `raft_get_next_entry`, which `raft_next_entry` returns. -/
def raftGetNextEntry : M (Option (Json × Uuid)) := do
  let entry ← raftPeekNextEntry
  if entry.isSome then
    modify fun r => { r with lastApplied := r.lastApplied + 1 }
  return entry

end Ovsgw.Cluster
