/-
  **The data model of `ovsdb/raft.c`**: `raft-private.h`, `raft-rpc.h` and `struct raft` itself.

  Reading guide.

    * A `struct json *` that is null is `none`.  The one JSON value that the
      code itself interprets, the `servers` object of a log entry, is kept in
      its parsed form (`raft_servers_from_json`), a list of server IDs with
      their addresses; its text form is the business of the codec.
    * The log is `logStart` together with the list of entries; `log_end` is
      computed from the two, so "entry `i` is in `entries[i - log_start]`" and
      "`log_end` is the index of the last entry plus 1" hold by construction.
    * An `hmap` is the list of its elements.  Its iteration order is
      unspecified in C; `Input.rehash` (in `Server.lean`) permutes the lists.
    * Nicknames, log messages and reference counts are left out: no modelled
      function reads them.
-/
import Ovsgw.Json

namespace Ovsgw.Cluster

open Ovsgw

/-! ## 1. Enumerations -/

inductive Role where
  | follower
  | candidate
  | leader
deriving DecidableEq, Repr

inductive CommandStatus where
  | incomplete
  | success
  | notLeader
  | badPrereq
  | lostLeadership
  | shutdown
  | ioError
  | timeout
deriving DecidableEq, Repr

inductive Phase where
  | stable
  | catchup
  | caughtUp
  | committing
  | remove
deriving DecidableEq, Repr

inductive AppendResult where
  | ok
  | inconsistency
  | ioError
deriving DecidableEq, Repr

/-! ## 2. Servers and log entries -/

/-- The parsed `servers` object of an entry: server ID and address. -/
abbrev Servers := List (Uuid × String)

structure Server where
  sid : Uuid
  address : String
  vote : Uuid := 0
  nextIndex : Nat := 0
  matchIndex : Nat := 0
  phase : Phase := .stable
  replied : Bool := false
  installSnapshotRequestInProgress : Bool := false
  requesterSid : Uuid := 0
  requesterConn : Option Nat := none
deriving DecidableEq

structure Entry where
  term : Nat := 0
  data : Option Json := none
  eid : Uuid := 0
  servers : Option Servers := none
  electionTimer : Nat := 0

/-! ## 3. On-disk records -/

/-- `struct raft_header`, the first record of a log file. -/
structure Header where
  sid : Uuid
  cid : Uuid
  name : String
  localAddress : String
  joining : Bool := false
  remoteAddresses : List String := []
  snapIndex : Nat := 0
  snap : Entry := {}

/-- The union of `struct raft_record`, by record type. -/
inductive RecordBody where
  | entry (index : Nat) (data : Option Json) (servers : Option Servers)
      (electionTimer : Nat) (eid : Uuid)
  | term
  | vote (sid : Uuid)
  | note (note : String)
  | commitIndex (commitIndex : Nat)
  | leader (sid : Uuid)

/-- `struct raft_record`, a further record of a log file. -/
structure Record where
  comment : Option String := none
  term : Nat := 0
  body : RecordBody

/-- The part of `struct ovsdb_log` that the Raft code can observe.

    A record is stored with the ticket that covers it: the first ticket handed
    out by `ovsdb_log_commit_start` after the record was written.  The record
    is known to be on disk once the progress `cur` reaches that ticket. -/
structure LogFile where
  header : Header
  records : List (Record × Nat) := []
  next : Nat := 0
  cur : Nat := 0

def LogFile.add (log : LogFile) (rec : Record) : LogFile :=
  { log with records := log.records ++ [(rec, log.next + 1)] }

def LogFile.start (log : LogFile) : LogFile :=
  { log with next := log.next + 1 }

/-- A new file in place of the old one: it is synced before the switch, and its
    tickets start past every ticket handed out for the old file. -/
def LogFile.replace (log : LogFile) (header : Header) (records : List Record) : LogFile :=
  { header
    records := records.map (fun rec => (rec, log.next + 1))
    next := log.next + 1
    cur := log.next + 1 }

/-! ## 4. RPCs -/

structure AppendRequest where
  term : Nat
  prevLogIndex : Nat
  prevLogTerm : Nat
  leaderCommit : Nat
  entries : List Entry

structure AppendReply where
  term : Nat
  logEnd : Nat
  prevLogIndex : Nat
  prevLogTerm : Nat
  nEntries : Nat
  result : AppendResult

structure VoteRequest where
  term : Nat
  lastLogIndex : Nat
  lastLogTerm : Nat
  leadershipTransfer : Bool

structure VoteReply where
  term : Nat
  vote : Uuid

structure InstallSnapshotRequest where
  term : Nat
  lastIndex : Nat
  lastTerm : Nat
  lastEid : Uuid
  lastServers : Servers
  electionTimer : Nat
  data : Json

structure InstallSnapshotReply where
  term : Nat
  lastIndex : Nat
  lastTerm : Nat

/-- The type-specific part of `union raft_rpc`. -/
inductive Body where
  | helloRequest (address : String)
  | appendRequest (rq : AppendRequest)
  | appendReply (rpy : AppendReply)
  | voteRequest (rq : VoteRequest)
  | voteReply (rpy : VoteReply)
  | addServerRequest (address : String)
  | addServerReply (success : Bool) (remoteAddresses : List String)
  | removeServerRequest (sid : Uuid) (requesterConn : Option Nat)
  | removeServerReply (success : Bool) (targetSid : Uuid)
  | installSnapshotRequest (rq : InstallSnapshotRequest)
  | installSnapshotReply (rpy : InstallSnapshotReply)
  | becomeLeader (term : Nat)
  | executeCommandRequest (data : Json) (prereq result : Uuid)
  | executeCommandReply (result : Uuid) (status : CommandStatus) (commitIndex : Nat)

/-- `union raft_rpc`.  `sid` is the destination of an RPC being sent and the
    source of one being received, as in `struct raft_rpc_common`. -/
structure Rpc where
  sid : Uuid
  comment : Option String := none
  body : Body

def raftRpcGetTerm (rpc : Rpc) : Nat :=
  match rpc.body with
  | .appendRequest rq => rq.term
  | .appendReply rpy => rpy.term
  | .voteRequest rq => rq.term
  | .voteReply rpy => rpy.term
  | .installSnapshotRequest rq => rq.term
  | .installSnapshotReply rpy => rpy.term
  | .becomeLeader term => term
  | _ => 0

def raftRpcGetVote (rpc : Rpc) : Option Uuid :=
  match rpc.body with
  | .voteReply rpy => some rpy.vote
  | _ => none

def raftRpcGetMinSyncIndex (rpc : Rpc) : Nat :=
  match rpc.body with
  | .appendReply rpy => rpy.logEnd - 1
  | .voteRequest rq => rq.lastLogIndex
  | .installSnapshotRequest rq => rq.lastIndex
  | .installSnapshotReply rpy => rpy.lastIndex
  | _ => 0

/-! ## 5. `struct raft` -/

/-- The union of `struct raft_waiter`, by waiter type. -/
inductive WaiterBody where
  | entry (index : Nat)
  | term (term : Nat) (vote : Uuid)
  | rpc (rpc : Rpc)

/-- `struct raft_waiter`: an action deferred until a log write commits. -/
structure Waiter where
  commitTicket : Nat
  body : WaiterBody

/-- `struct raft_command`: a command in the `commands` map is incomplete, so
    its status is not stored. -/
structure Command where
  eid : Uuid
  index : Nat := 0
  timestamp : Nat := 0
  sid : Uuid := 0
deriving DecidableEq

structure Raft where
  log : LogFile
  -- The number of writes to the log file so far.
  writes : Nat := 0
  -- Persistent derived state.
  cid : Uuid
  sid : Uuid
  localAddress : String
  name : String
  servers : List Server := []
  electionTimer : Nat := 1000
  electionTimerNew : Nat := 0
  -- Persistent state on all servers.
  term : Nat := 0
  vote : Uuid := 0
  syncedTerm : Nat := 0
  syncedVote : Uuid := 0
  entries : List Entry := []
  logStart : Nat := 1
  logSynced : Nat := 0
  snap : Entry := {}
  -- Volatile state.
  role : Role := .follower
  commitIndex : Nat := 0
  lastApplied : Nat := 0
  leaderSid : Uuid := 0
  electionBase : Nat := 0
  electionTimeout : Nat := 0
  joining : Bool := false
  remoteAddresses : List String := []
  joinTimeout : Nat := 0
  leaving : Bool := false
  left : Bool := false
  leaveTimeout : Nat := 0
  failed : Bool := false
  waiters : List Waiter := []
  -- The server IDs of the connected sessions in `conns`.
  conns : List Uuid := []
  -- Leaders only.
  addServers : List Server := []
  removeServer : Option Server := none
  commands : List Command := []
  pingTimeout : Nat := 0
  -- Candidates only.
  nVotes : Nat := 0
  -- Followers and candidates only.
  candidateRetrying : Bool := false
  hadLeader : Bool := false
  everHadLeader : Bool := false
  -- `raft_close__` has run.
  closed : Bool := false

/-- `log_end`: the index of the last entry in the log, plus 1. -/
def Raft.logEnd (r : Raft) : Nat := r.logStart + r.entries.length

/-- The term of the last log entry, or of the snapshot if the log is empty. -/
def Raft.lastLogTerm (r : Raft) : Nat :=
  match r.entries.getLast? with
  | some e => e.term
  | none => r.snap.term

def raftServerFind (servers : List Server) (sid : Uuid) : Option Server :=
  servers.find? (fun s => s.sid == sid)

def raftFindServer (r : Raft) (sid : Uuid) : Option Server := raftServerFind r.servers sid

def raftFindPeer (r : Raft) (sid : Uuid) : Option Server :=
  if sid = r.sid then none else raftFindServer r sid

def raftFindNewServer (r : Raft) (sid : Uuid) : Option Server :=
  raftServerFind r.addServers sid

/-- Update in place of the element of an `hmap` of servers with the given ID. -/
def updateServer (servers : List Server) (sid : Uuid) (f : Server → Server) : List Server :=
  servers.map (fun s => if s.sid = sid then f s else s)

end Ovsgw.Cluster
