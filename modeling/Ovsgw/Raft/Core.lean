/-
  **The part of a server's state that the properties are about.**

  `Core` keeps terms, votes, the log, its file and the waiters, and of each server what counts: ID,
  address, vote, match index and phase.  Timers, connections, pending commands and the other fields
  of `struct raft` only decide *when* something happens.

  Three ghost fields follow the code where a single assignment is too early or
  too late to talk about it:

    * `lim` is the commit index that `raft_update_commit_index` is heading for,
    * `dirty` says that the log has changed and `servers` has not been read
      from it again yet,
    * `granted` lists the servers whose votes have been counted.
-/
import Ovsgw.Raft.Server

namespace Ovsgw.Cluster

/-! ## 1. Servers -/

/-- What counts of a `struct raft_server`. -/
structure Peer where
  sid : Uuid
  address : String
  vote : Uuid := 0
  matchIndex : Nat := 0
  phase : Phase := .stable
deriving DecidableEq

def Server.peer (s : Server) : Peer :=
  { sid := s.sid, address := s.address, vote := s.vote, matchIndex := s.matchIndex
    phase := s.phase }

/-- `updateServer` for peers. -/
def updatePeer (ps : List Peer) (sid : Uuid) (f : Peer → Peer) : List Peer :=
  ps.map (fun p => if p.sid = sid then f p else p)

/-- `raftServerInitLeader` for peers. -/
def Peer.initLeader (p : Peer) : Peer :=
  { p with matchIndex := 0, phase := .stable }

/-- `setServers` for peers. -/
def setPeers (old : List Peer) (newServers : Servers) : List Peer :=
  newServers.foldl
    (fun ps n => if (ps.find? (fun p => p.sid == n.1)).isSome then ps
      else ps ++ [{ sid := n.1, address := n.2 }])
    (old.filter (fun p => newServers.any (fun n => n.1 == p.sid)))

/-- `raftServersToJson` for peers. -/
def peersToJson (ps : List Peer) : Servers :=
  ps.foldl (fun acc p => acc.filter (fun n => n.1 ≠ p.sid) ++ [(p.sid, p.address)]) []

def sids (ps : List Peer) : List Uuid := ps.map (·.sid)

@[simp] theorem Server.peer_sid (s : Server) : s.peer.sid = s.sid := rfl

variable {servers : List Server} {sid : Uuid} {f : Server → Server}

theorem map_peer_updateServer {g : Peer → Peer} (hf : ∀ s, (f s).peer = g s.peer) :
    (updateServer servers sid f).map Server.peer = updatePeer (servers.map Server.peer) sid g := by
  simp only [updateServer, updatePeer, List.map_map]
  refine List.map_congr_left fun s _ => ?_
  by_cases hs : s.sid = sid <;> simp [hs, hf]

theorem updatePeer_id {ps : List Peer} : updatePeer ps sid id = ps := by
  simp [updatePeer]

theorem map_peer_updateServer_of_peer_eq (hf : ∀ s, (f s).peer = s.peer)
    (servers : List Server) (sid : Uuid) :
    (updateServer servers sid f).map Server.peer = servers.map Server.peer := by
  rw [map_peer_updateServer (g := id) hf, updatePeer_id]

theorem map_peer_setServers {logEnd : Nat} {old : List Server} {newServers : Servers} :
    (setServers logEnd old newServers).map Server.peer =
      setPeers (old.map Server.peer) newServers := by
  have hkept : (old.map Server.peer).filter (fun p => newServers.any (fun n => n.1 == p.sid)) =
      (old.filter (fun s => newServers.any (fun n => n.1 == s.sid))).map Server.peer := by
    rw [List.filter_map]
    rfl
  rw [setServers, setPeers, hkept]
  refine (List.foldl_hom (List.map Server.peer) ?_).symm
  intro servers n
  have hfind : ((servers.map Server.peer).find? (fun p => p.sid == n.1)).isSome =
      (raftServerFind servers n.1).isSome := by
    rw [List.find?_map, Option.isSome_map]
    rfl
  rw [hfind, addMissing]
  split
  · rfl
  · rw [List.map_append]
    rfl

theorem peersToJson_map_peer :
    peersToJson (servers.map Server.peer) = raftServersToJson servers := by
  rw [peersToJson, List.foldl_map]
  rfl

/-! ## 2. The core of a server -/

structure Ghost where
  lim : Nat := 0
  dirty : Bool := false
  granted : List Uuid := []

structure Core where
  sid : Uuid
  servers : List Peer
  addServers : List Peer
  term : Nat
  vote : Uuid
  syncedTerm : Nat
  syncedVote : Uuid
  entries : List Entry
  logStart : Nat
  logSynced : Nat
  snap : Entry
  role : Role
  commitIndex : Nat
  lastApplied : Nat
  nVotes : Nat
  waiters : List Waiter
  log : LogFile
  ghost : Ghost

def Raft.core (r : Raft) (g : Ghost) : Core :=
  { sid := r.sid
    servers := r.servers.map Server.peer
    addServers := r.addServers.map Server.peer
    term := r.term
    vote := r.vote
    syncedTerm := r.syncedTerm
    syncedVote := r.syncedVote
    entries := r.entries
    logStart := r.logStart
    logSynced := r.logSynced
    snap := r.snap
    role := r.role
    commitIndex := r.commitIndex
    lastApplied := r.lastApplied
    nVotes := r.nVotes
    waiters := r.waiters
    log := r.log
    ghost := g }

namespace Core

def logEnd (c : Core) : Nat := c.logStart + c.entries.length

def entryAt? (c : Core) (index : Nat) : Option Entry :=
  if c.logStart ≤ index then c.entries[index - c.logStart]? else none

/-- The term at an index: the log has one for each of its entries and for the
    last index of the snapshot. -/
def termAt (c : Core) (index : Nat) : Option Nat :=
  if index = c.logStart - 1 then some c.snap.term else (c.entryAt? index).map (·.term)

def lastLogTerm (c : Core) : Nat :=
  match c.entries.getLast? with
  | some e => e.term
  | none => c.snap.term

def currentEid (c : Core) : Uuid := latestEid c.snap.eid c.entries

def logServers (c : Core) : Option Servers := latestServers c.snap.servers c.entries

/-- The bounds that the comment in `struct raft` states, and what the loop of
    `raft_update_commit_index` needs. -/
structure IndexOk (c : Core) : Prop where
  start : 1 ≤ c.logStart
  applied_low : c.logStart ≤ c.lastApplied + 2
  applied : c.lastApplied ≤ c.commitIndex
  commit : c.commitIndex < c.logEnd
  commit_low : c.logStart ≤ c.commitIndex + 1
  lim : c.ghost.lim ≤ c.commitIndex ∨ c.ghost.lim < c.logEnd

/-- The state of `r` with the ghost fields of `c` is `c`. -/
def Is (c : Core) (r : Raft) : Prop := r.core c.ghost = c

end Core

/-- The log index invariant of a server. -/
structure Raft.IndexOk (r : Raft) : Prop where
  start : 1 ≤ r.logStart
  applied_low : r.logStart ≤ r.lastApplied + 2
  applied : r.lastApplied ≤ r.commitIndex
  commit : r.commitIndex < r.logEnd
  commit_low : r.logStart ≤ r.commitIndex + 1

@[simp] theorem Raft.core_logEnd (r : Raft) (g : Ghost) : (r.core g).logEnd = r.logEnd := rfl

@[simp] theorem Raft.core_entry? (r : Raft) (g : Ghost) (i : Nat) :
    (r.core g).entryAt? i = r.entryAt? i := rfl

@[simp] theorem Raft.core_lastLogTerm (r : Raft) (g : Ghost) :
    (r.core g).lastLogTerm = r.lastLogTerm := rfl

end Ovsgw.Cluster
