/-
  **Opening a log file**: `raft_apply_record`, `raft_read_header`, `raft_read_log` and `raft_open`.

  A file is the list of the JSON values that `ovsdb_log_read` returns for it.  `raft_read_log`
  treats a read error as the end of the file, so the list ends before the first such error.
-/
import Ovsgw.Raft.Codec
import Ovsgw.Raft.Server

namespace Ovsgw.Cluster

/-! ## 1. Applying a record -/

/-- The start of every error of `raft_apply_record`. -/
def recordError (recIdx : Nat) (text : String) : Option OvsdbError :=
  some (ovsdbError ("record " ++ toString recIdx ++ text))

/-- The term of a record: a newer one replaces the current term. -/
def Raft.applyTerm (r : Raft) (term : Nat) : Raft :=
  if term > r.term then
    { r with term, syncedTerm := term, vote := 0, syncedVote := 0 }
  else
    r

def truncateTo (index : Nat) : M Unit := do
  if index < (← get).logEnd then
    let _ ← raftTruncate index

def applyEntry (recIdx index : Nat) (e : Entry) : M (Option OvsdbError) := do
  let r ← get
  if index < r.commitIndex then
    return recordError recIdx (" attempts to truncate log from " ++ toString r.logEnd ++ " to "
      ++ toString index ++ " entries, but commit index is already " ++ toString r.commitIndex)
  else if index > r.logEnd then
    return recordError recIdx (" with index " ++ toString index ++ " skips past expected index "
      ++ toString r.logEnd)
  else
    truncateTo index
    let r ← get
    if e.term < r.lastLogTerm then
      return recordError recIdx (" with index " ++ toString index ++ " term " ++ toString e.term
        ++ " precedes previous entry's term " ++ toString r.lastLogTerm)
    else
      let index ← raftAddEntry e.term e.data (some e.eid) e.servers e.electionTimer
      modify fun r => { r with logSynced := index }
      return none

def applyVote (recIdx term : Nat) (sid : Uuid) : M (Option OvsdbError) := do
  let r ← get
  if term < r.term then
    return recordError recIdx (" votes for term " ++ toString term ++ " but current term is "
      ++ toString r.term)
  else if r.vote ≠ 0 ∧ r.vote ≠ sid then
    return recordError recIdx (" votes for " ++ sidText r.vote ++ " in term " ++ toString term
      ++ " but a previous record for the same term voted for " ++ sidText sid)
  else
    modify fun r => { r with vote := sid, syncedVote := sid }
    return none

def applyCommitIndex (recIdx commitIndex : Nat) : M (Option OvsdbError) := do
  let r ← get
  if commitIndex < r.commitIndex then
    return recordError recIdx (" regresses commit index from " ++ toString r.commitIndex ++ " to "
      ++ toString commitIndex)
  else if commitIndex ≥ r.logEnd then
    return recordError recIdx (" advances commit index to " ++ toString commitIndex
      ++ " but last log index is " ++ toString (u64 (r.logEnd + (2 ^ 64 - 1))))
  else
    modify fun r => { r with commitIndex }
    return none

/-- `raft_apply_record`: the error, or `none` if the record was applied. -/
def raftApplyRecord (recIdx : Nat) (rec : Record) : M (Option OvsdbError) := do
  modify (·.applyTerm rec.term)
  match rec.body with
  | .entry index data servers electionTimer eid =>
    applyEntry recIdx index { term := rec.term, data, eid, servers, electionTimer }
  | .term => return none
  | .vote sid => applyVote recIdx rec.term sid
  | .note note =>
    if note = "left" then
      return recordError recIdx (" indicates server has left the cluster; it cannot be added "
        ++ "back (use \"ovsdb-tool join-cluster\" to add a new server)")
    else
      return none
  | .commitIndex commitIndex => applyCommitIndex recIdx commitIndex
  | .leader _ => return none

/-! ## 2. Reading a file -/

def raftAlloc (log : LogFile) : Raft :=
  { log, cid := 0, sid := 0, localAddress := "", name := "", joinTimeout := 2 ^ 63 - 1 }

/-- What `raft_read_header` takes from the header. -/
def Raft.applyHeader (r : Raft) (h : Header) : Raft :=
  let r := { r with
    sid := h.sid, cid := h.cid, name := h.name, localAddress := h.localAddress,
    joining := h.joining }
  if h.joining then
    { r with remoteAddresses := h.remoteAddresses }
  else
    { r with
      snap := h.snap
      entries := []
      logStart := u64 (h.snapIndex + 1)
      logSynced := h.snapIndex
      commitIndex := h.snapIndex
      lastApplied := u64 (h.snapIndex + (2 ^ 64 - 1)) }

/-- `raft_read_header`; at the end of the file there is no error. -/
def raftReadHeader (file : List Json) : M (Option OvsdbError) := do
  let env ← getEnv
  match file with
  | [] => return none
  | json :: _ =>
    match raftHeaderFromJson env json with
    | .error error => return some error
    | .ok h =>
      modify (·.applyHeader h)
      return none

/-- The loop of `raft_read_log`; `i` is the number of the next record. -/
def readRecords : Nat → List Json → M (Option OvsdbError)
  | _, [] => return none
  | i, json :: rest => do
    let env ← getEnv
    let name := (← get).name
    let msg := "error reading record " ++ toString i ++ " from " ++ name ++ " log"
    match raftRecordFromJson env json with
    | .error error => return some (ovsdbWrapError error msg)
    | .ok rec =>
      match ← raftApplyRecord i rec with
      | some error => return some (ovsdbWrapError error msg)
      | none => readRecords (i + 1) rest

/-- `raft_read_log`, for the values after the header. -/
def raftReadLog (records : List Json) : M (Option OvsdbError) := do
  match ← readRecords 1 records with
  | some error => return some error
  | none =>
    raftGetServersFromLog
    raftGetElectionTimerFromLog
    return none

/-! ## 3. Opening -/

def LogFile.json (log : LogFile) : List Json :=
  raftHeaderToJson log.header :: log.records.map (fun rec => raftRecordToJson rec.1)

/-- The part of `raft_open` that reads the file. -/
def raftLoad : M (Option OvsdbError) := do
  let env ← getEnv
  let file := (← get).log.json
  match ← raftReadHeader file with
  | some error => return some error
  | none =>
    if (← get).joining then
      modify fun r => { r with joinTimeout := env.now + 1000 }
      return none
    else
      match ← raftReadLog file.tail with
      | some error => return some error
      | none =>
        let r ← get
        if (raftFindServer r r.sid).isNone then
          return some (ovsdbError "server does not belong to cluster")
        else
          return none

/-- The part of `raft_open` after that: a cluster of one server starts its election right away. -/
def raftStart : M Unit := do
  let r ← get
  if ¬ r.joining ∧ r.servers.length = 1 then
    raftStartElection false
  raftResetPingTimer
  raftResetElectionTimer

end Ovsgw.Cluster
