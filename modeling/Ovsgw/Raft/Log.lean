/-
  **The log, the log file, waiters and the send path.**

  The functions of `raft.c` that everything else is built from: reading and extending the in-memory
  log, writing records, the queue of actions that wait for the disk, and the rule that an RPC leaves
  only when the state it speaks about is synced.
-/
import Ovsgw.Raft.Monad

namespace Ovsgw.Cluster

/-! ## 1. Reading the log -/

/-- The entry with the given index, if the log has it. -/
def Raft.entryAt? (r : Raft) (index : Nat) : Option Entry :=
  if r.logStart ≤ index then r.entries[index - r.logStart]? else none

/-- `raft->entries[index - raft->log_start]`, with the bounds that C leaves unchecked. -/
def entryAt (site : Site) (index : Nat) : M Entry := do
  let r ← get
  match r.entryAt? index with
  | some e => pure e
  | none => fault (.access site)

def raftGetEntry (index : Nat) : M Entry := do
  let r ← get
  ovsAssert .raftGetEntry (r.logStart ≤ index)
  ovsAssert .raftGetEntry (index < r.logEnd)
  entryAt .raftGetEntry index

theorem Raft.entryAt?_eq_some {r : Raft} {i : Nat} (hlow : r.logStart ≤ i) (hhigh : i < r.logEnd) :
    ∃ e, r.entryAt? i = some e := by
  have hlt : i - r.logStart < r.entries.length := by
    simp only [Raft.logEnd] at hhigh
    omega
  exact ⟨r.entries[i - r.logStart], by simp [Raft.entryAt?, hlow, hlt]⟩

theorem raftGetEntry_run (env : Env) (r : Raft) {i : Nat} (hlow : r.logStart ≤ i)
    (hhigh : i < r.logEnd) :
    ∃ e, r.entryAt? i = some e ∧ raftGetEntry i env r = ⟨.ok e, r, []⟩ := by
  obtain ⟨e, he⟩ := r.entryAt?_eq_some hlow hhigh
  exact ⟨e, he, by simp [raftGetEntry, ovsAssert, entryAt, hlow, hhigh, he]⟩

theorem raftGetEntry_fault (env : Env) (r : Raft) {i : Nat}
    (h : ¬ (r.logStart ≤ i ∧ i < r.logEnd)) :
    raftGetEntry i env r = ⟨.error (.assert .raftGetEntry), r, []⟩ := by
  by_cases hlow : r.logStart ≤ i
  · have hhigh : ¬ i < r.logEnd := fun hhigh => h ⟨hlow, hhigh⟩
    simp [raftGetEntry, ovsAssert, hlow, hhigh]
  · simp [raftGetEntry, ovsAssert, hlow]

def raftGetTerm (index : Nat) : M Nat := do
  let r ← get
  if index = r.logStart - 1 then
    pure r.snap.term
  else
    return (← raftGetEntry index).term

/-- The last `servers` among `entries`, or `servers` if there is none. -/
def latestServers (servers : Option Servers) (entries : List Entry) : Option Servers :=
  entries.foldl (fun acc e => e.servers.or acc) servers

def raftServersForIndex (index : Nat) : M (Option Servers) := do
  let r ← get
  ovsAssert .raftServersForIndex (r.logStart - 1 ≤ index)
  ovsAssert .raftServersForIndex (index < r.logEnd)
  pure (latestServers r.snap.servers (r.entries.take (index + 1 - r.logStart)))

/-- The eid of the last entry among `entries` that carries data, or `eid`. -/
def latestEid (eid : Uuid) (entries : List Entry) : Uuid :=
  entries.foldl (fun acc e => if e.data.isSome then e.eid else acc) eid

/-- `raft_get_eid`: the backward search from `index` as a forward scan.  For an
    index past the end the C code fails the assertion of `raft_get_entry`. -/
def raftGetEid (index : Nat) : M Uuid := do
  let r ← get
  if r.logStart ≤ index then
    ovsAssert .raftGetEntry (index < r.logEnd)
  pure (latestEid r.snap.eid (r.entries.take (index + 1 - r.logStart)))

def raftCurrentEid : M Uuid := do
  raftGetEid ((← get).logEnd - 1)

/-! ## 2. Extending and cutting the log -/

/-- `raft_add_entry`: returns the index of the new entry. -/
def raftAddEntry (term : Nat) (data : Option Json) (eid : Option Uuid)
    (servers : Option Servers) (electionTimer : Nat) : M Nat := do
  let r ← get
  let index := r.logEnd
  if 2 ^ 64 ≤ index + 1 then
    fault .overflow
  modify fun r =>
    { r with entries := r.entries ++
        [{ term, data, eid := eid.getD 0, servers, electionTimer }] }
  pure index

/-- `raft_truncate`: returns true if a removed entry carries `servers`. -/
def raftTruncate (newEnd : Nat) : M Bool := do
  let r ← get
  emit (.truncate newEnd r)
  ovsAssert .raftTruncate (r.logStart ≤ newEnd)
  modify fun r => { r with entries := r.entries.take (newEnd - r.logStart) }
  pure ((r.entries.drop (newEnd - r.logStart)).any (fun e => e.servers.isSome))

/-! ## 3. The log file -/

/-- `ovsdb_log_write_and_free`, true if there is no error. -/
def ovsdbLogWrite (rec : Record) : M Bool := do
  let env ← getEnv
  let r ← get
  let ok := env.writeOk r.writes
  modify fun r =>
    { r with log := if ok then r.log.add rec else r.log
             writes := r.writes + 1 }
  pure ok

/-- `ovsdb_log_commit_start`: returns the ticket to wait for. -/
def ovsdbLogCommitStart : M Nat := do
  modify fun r => { r with log := r.log.start }
  pure (← get).log.next

/-- `raft_handle_write_error`, for a write that succeeded iff `ok`. -/
def raftHandleWriteError (ok : Bool) : M Bool := do
  if ¬ ok then
    modify fun r => { r with failed := true }
  pure (¬ (← get).failed)

/-- `raft_write_entry`, true if there is no error. -/
def raftWriteEntry (term : Nat) (data : Option Json) (eid : Option Uuid)
    (servers : Option Servers) (electionTimer : Nat) : M Bool := do
  let index ← raftAddEntry term data eid servers electionTimer
  ovsdbLogWrite
    { term, body := .entry index data servers electionTimer (eid.getD 0) }

def stateRecord (term : Nat) (vote : Uuid) : Record :=
  { term, body := if vote ≠ 0 then .vote vote else .term }

/-- `raft_write_state`; a null `vote` is zero. -/
def raftWriteState (term : Nat) (vote : Uuid) : M Bool :=
  ovsdbLogWrite (stateRecord term vote)

def raftRecordNote (note comment : String) : M Unit := do
  let _ ← ovsdbLogWrite { comment := some comment, body := .note note }

/-! ## 4. Waiters and sending -/

def raftWaiterCreate (body : WaiterBody) (startCommit : Bool) : M Unit := do
  let commitTicket ← if startCommit then ovsdbLogCommitStart else pure 0
  modify fun r => { r with waiters := r.waiters ++ [{ commitTicket, body }] }

def raftSetTerm (term : Nat) (vote : Uuid) : M Bool := do
  let ok ← raftWriteState term vote
  if ¬ (← raftHandleWriteError ok) then
    return false
  raftWaiterCreate (.term term vote) true
  modify fun r => { r with term, vote }
  return true

def raftIsRpcSynced (r : Raft) (rpc : Rpc) : Bool :=
  raftRpcGetTerm rpc ≤ r.syncedTerm
    && raftRpcGetMinSyncIndex rpc ≤ r.logSynced
    && (raftRpcGetVote rpc).all (· == r.syncedVote)

/-- `raft_find_conn_by_sid`: is there a connected session with `sid`? -/
def raftFindConnBySid (r : Raft) (sid : Uuid) : Bool :=
  sid != 0 && r.conns.contains sid

def raftSendToConn (rpc : Rpc) : M Bool := do
  if (← getEnv).sendOk rpc.sid then
    emit (.sent rpc (← get))
    return true
  else
    return false

def raftSend (rpc : Rpc) : M Bool := do
  let r ← get
  if rpc.sid = r.sid then
    return false
  if ¬ raftFindConnBySid r rpc.sid then
    return false
  if ¬ raftIsRpcSynced r rpc then
    raftWaiterCreate (.rpc rpc) false
    return true
  raftSendToConn rpc

/-! ## 5. Timers -/

def raftResetElectionTimer : M Unit := do
  let env ← getEnv
  modify fun r =>
    { r with electionBase := env.now,
             electionTimeout := env.now + (r.electionTimer + env.random) }

def raftResetPingTimer : M Unit := do
  let env ← getEnv
  modify fun r => { r with pingTimeout := env.now + r.electionTimer / 3 }

end Ovsgw.Cluster
