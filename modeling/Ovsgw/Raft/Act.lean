/-
  **What the code can do to a server, one act at a time.**

  Every function of the model is a sequence of `Act`s, each with the guard under which the code gets
  there.  An act changes the `Core` and may leave events in the trace.  Invariants are proved per
  act; no proof about whole runs looks at the code again.
-/
import Ovsgw.Raft.Core

namespace Ovsgw.Cluster

/-! ## 1. The occasion of an act -/

/-- The input being handled and its environment, the state in which the handling
    started, and whether `servers` was behind the log in it. -/
structure Ctx where
  input : Option Input
  env : Env
  start : Raft
  dirty : Bool

def Ctx.msg (ctx : Ctx) : Option Rpc :=
  match ctx.input with
  | some (.rpc rpc) => some rpc
  | _ => none

/-- The RPC reaches its handler without a look at its term. -/
def Ctx.Unscreened (ctx : Ctx) (rpc : Rpc) : Prop :=
  raftRpcGetTerm rpc = 0 ∨ raftShouldSuppressDisruptiveServer ctx.env.now ctx.start rpc = true

def Env.Writes (env : Env) : Prop := ∀ n, env.writeOk n = true

/-- The input asks for a change of membership. -/
def Input.changesMembership : Input → Bool
  | .rpc { body := .addServerRequest _, .. } => true
  | .rpc { body := .removeServerRequest _ _, .. } => true
  | .kick _ => true
  | .leave => true
  | _ => false

def Ctx.ChangesMembership (ctx : Ctx) : Prop := ∃ inp, ctx.input = some inp ∧ inp.changesMembership

namespace AppendRequest

def last (rq : AppendRequest) : Nat := rq.prevLogIndex + rq.entries.length

/-- No sum of indexes that the handler forms wraps around. -/
def Fits (rq : AppendRequest) : Prop := rq.last + 1 < 2 ^ 64

def entryAt (rq : AppendRequest) (index : Nat) : Option Entry :=
  if rq.prevLogIndex < index then rq.entries[index - rq.prevLogIndex - 1]? else none

def termAt (rq : AppendRequest) (index : Nat) : Option Nat :=
  if index = rq.prevLogIndex then some rq.prevLogTerm else (rq.entryAt index).map (·.term)

end AppendRequest

/-- `rq` is being handled, in its own term. -/
def Ctx.Appending (ctx : Ctx) (c : Core) (rq : AppendRequest) : Prop :=
  (∃ src comment, ctx.msg = some ⟨src, comment, .appendRequest rq⟩) ∧
    (rq.term = c.term ∨ rq.term = 0)

namespace Core

/-- The log and the request have the same term at `index`. -/
def Agrees (c : Core) (rq : AppendRequest) (index : Nat) : Prop :=
  ∃ t, c.termAt index = some t ∧ rq.termAt index = some t

/-- What a positive reply to `rq` stands for. -/
def Acknowledges (c : Core) (rq : AppendRequest) : Prop :=
  rq.Fits → rq.last < c.logStart - 1 ∨ c.Agrees rq rq.last

/-- The log and the request conflict at `newEnd`, and not just before it. -/
def Conflicts (c : Core) (rq : AppendRequest) (newEnd : Nat) : Prop :=
  c.logStart ≤ newEnd ∧ newEnd < c.logEnd ∧ (rq.Fits → c.Agrees rq (newEnd - 1) ∧
    ∃ old e, c.entryAt? newEnd = some old ∧ rq.entryAt newEnd = some e ∧ old.term ≠ e.term)

/-- The request is a part of the log, with the term of the entry before it. -/
structure Segment (c : Core) (rq : AppendRequest) : Prop where
  before : rq.prevLogIndex < c.logStart → rq.prevLogTerm = c.snap.term
  within : c.logStart ≤ rq.prevLogIndex →
    ∃ e, c.entryAt? rq.prevLogIndex = some e ∧ rq.prevLogTerm = e.term
  entries : rq.entries <+: c.entries.drop (rq.prevLogIndex + 1 - c.logStart)
  start : rq.entries ≠ [] → c.logStart ≤ rq.prevLogIndex + 1

/-- The voter's log is not more up-to-date than the candidate's. -/
def Allows (c : Core) (rq : VoteRequest) : Prop :=
  ¬ (rq.lastLogTerm < c.lastLogTerm ∨
    (c.lastLogTerm = rq.lastLogTerm ∧ rq.lastLogIndex < c.logEnd - 1))

def Synced (c : Core) (rpc : Rpc) : Prop :=
  raftRpcGetTerm rpc ≤ c.syncedTerm ∧ raftRpcGetMinSyncIndex rpc ≤ c.logSynced ∧
    ∀ vote, raftRpcGetVote rpc = some vote → vote = c.syncedVote

/-- No entry past the commit index carries `servers`. -/
def NoUncommittedServers (c : Core) : Prop :=
  ∀ e ∈ c.entries.drop (c.commitIndex + 1 - c.logStart), e.servers = none

/-- A majority of `servers` is known to have the entry with index `idx`. -/
def Majority (c : Core) (idx : Nat) : Prop :=
  c.servers.length / 2 < c.servers.countP (fun p => idx ≤ p.matchIndex)

/-- The entry with index `idx` is from the leader's own term. -/
def OwnTerm (c : Core) (idx : Nat) : Prop := ∃ e, c.entryAt? idx = some e ∧ e.term = c.term

/-- The first ticket handed out from now on. -/
def ticket (c : Core) : Nat := c.log.next + 1

end Core

/-- What a server's message says about the server. -/
def MsgOk (ctx : Ctx) (c : Core) (rpc : Rpc) : Prop :=
  match rpc.body with
  | .appendRequest rq =>
    c.role = .leader ∧ rq.term = c.term ∧ rq.leaderCommit = c.commitIndex ∧ c.Segment rq
  | .appendReply rpy =>
    rpy.term = c.term ∧ (rpy.result = .ok → ∃ rq, ctx.Appending c rq ∧ c.Acknowledges rq ∧
      rpy.prevLogIndex = rq.prevLogIndex ∧ rpy.nEntries = rq.entries.length)
  | .voteRequest rq =>
    c.role = .candidate ∧ rq.term = c.term ∧ rq.lastLogIndex = c.logEnd - 1 ∧
      rq.lastLogTerm = c.lastLogTerm
  | .voteReply rpy => rpy.term = c.term ∧ rpy.vote = c.vote ∧ c.vote ≠ 0
  | .installSnapshotRequest rq =>
    rq.term = c.term ∧ rq.lastIndex = c.logStart - 1 ∧ rq.lastTerm = c.snap.term ∧
      rq.lastEid = c.snap.eid ∧ some rq.lastServers = c.snap.servers
  | _ => True

/-- The messages that are sent without a look at what is synced. -/
def Body.unsynced : Body → Bool
  | .helloRequest _ | .addServerRequest _ | .removeServerRequest _ _ | .becomeLeader _ => true
  | _ => false

/-- How `raft_run_reconfigure` may change the set of servers. -/
inductive Change (c : Core) : List Peer → List Peer → Prop where
  | add (p : Peer) (hp : p ∈ c.addServers) (hphase : p.phase = .caughtUp) :
      Change c (c.servers ++ [{ p with phase := .committing }]) (c.addServers.erase p)
  | remove (p : Peer) (hp : p ∈ c.servers) (hphase : p.phase = .remove) :
      Change c (c.servers.erase p) c.addServers

/-- `raft_command_execute__` turns commands down. -/
def Raft.refuses (r : Raft) : Prop := r.joining ∨ r.leaving ∨ r.left ∨ r.failed

/-! ## 2. Events without effect -/

/-- What holds when an event is put in the trace. -/
def Marks (ctx : Ctx) (c : Core) : Event → Prop
  | .sent _ _ => False
  | .complete _ _ _ => True
  | .accept prereq _ _ r =>
    ∀ eid, prereq = some eid → c.Is r ∧ c.role = .leader ∧ eid = c.currentEid
  | .truncate newEnd r => c.Is r ∧ ∃ rq, ctx.Appending c rq ∧ c.Conflicts rq newEnd
  | .vote src rq r => c.Is r ∧ src ≠ 0 ∧ c.vote = 0 ∧ c.Allows rq ∧
      ∃ comment, ctx.msg = some ⟨src, comment, .voteRequest rq⟩ ∧
        (rq.term = c.term ∨ (r = ctx.start ∧ ctx.Unscreened ⟨src, comment, .voteRequest rq⟩))
  | .campaign r => c.Is r
  | .becomeLeader r => c.Is r ∧ c.role = .candidate ∧ c.servers.length / 2 < c.nVotes
  | .reconfigure r => c.Is r ∧ c.role = .leader ∧ c.NoUncommittedServers ∧
      (c.addServers.any (·.phase == .caughtUp) ∨ c.servers.any (·.phase == .remove))
  | .appendReply _ _ r => c.Is r ∧ c.role = .leader
  | .install rq r => c.Is r ∧
      (∃ src comment, ctx.msg = some ⟨src, comment, .installSnapshotRequest rq⟩) ∧
      c.logEnd ≤ u64 (rq.lastIndex + 1)

/-! ## 3. Acts -/

namespace Core

def withServers (c : Core) (servers addServers : List Peer) : Core :=
  { c with servers, addServers }

/-- `raft_set_term`, when the write succeeds. -/
def setTerm (c : Core) (term : Nat) (vote : Uuid) : Core :=
  { c with
    log := (c.log.add (stateRecord term vote)).start
    waiters := c.waiters ++ [⟨c.ticket, .term term vote⟩]
    term
    vote }

/-- A new entry in memory, and in the file if the write succeeds. -/
def push (c : Core) (e : Entry) (ok : Bool) : Core :=
  { c with
    entries := c.entries ++ [e]
    log := if ok then c.log.add (entryRecord c.logEnd e) else c.log }

def configEntry (c : Core) (servers : List Peer) : Entry :=
  { term := c.term, servers := some (peersToJson servers) }

def appliedSnapshot (c : Core) (e : Entry) (data : Json) (electionTimer : Nat) : Entry :=
  { term := e.term
    data := some data
    eid := latestEid c.snap.eid (c.entries.take (c.lastApplied + 1 - c.logStart))
    servers := latestServers c.snap.servers (c.entries.take (c.lastApplied + 1 - c.logStart))
    electionTimer }

/-- A header for a file that starts at `newLogStart` with the given snapshot. -/
def HeaderFor (c : Core) (header : Header) (newLogStart : Nat) (snap : Entry) : Prop :=
  header.sid = c.sid ∧ header.snapIndex = newLogStart - 1 ∧ header.snap = snap ∧
    header.joining = false

def install (c : Core) (rq : InstallSnapshotRequest) (header : Header) : Core :=
  let newLogStart := u64 (rq.lastIndex + 1)
  { c with
    log := c.log.replace header
      (snapshotRecords newLogStart (c.entries.drop (newLogStart - c.logStart)) c.term c.vote
        c.commitIndex)
    entries := []
    logStart := newLogStart
    logSynced := newLogStart - 1
    commitIndex := newLogStart - 1
    lastApplied := if c.lastApplied < newLogStart - 1 then newLogStart - 2 else c.lastApplied
    snap := rq.snapshot
    ghost := { c.ghost with dirty := true } }

def store (c : Core) (snap : Entry) (header : Header) : Core :=
  let newLogStart := c.lastApplied + 1
  { c with
    log := c.log.replace header
      (snapshotRecords newLogStart (c.entries.drop (newLogStart - c.logStart)) c.term c.vote
        c.commitIndex)
    logSynced := c.logEnd - 1
    snap
    entries := c.entries.drop (newLogStart - c.logStart)
    logStart := newLogStart }

end Core

/-- One act.  The names of the constructors are those of what the server does;
    the guards say what the code has checked by then. -/
inductive Act (ctx : Ctx) (c : Core) : List Event → Core → Prop where
  -- Disk and waiters.
  | write (rec : Record) :
      Act ctx c [] { c with log := c.log.add rec }
  | progress (cur : Nat) (hlow : c.log.cur ≤ cur) (hhigh : cur ≤ c.log.next) :
      Act ctx c [] { c with log := { c.log with cur } }
  | waitEntry :
      Act ctx c [] { c with
        log := c.log.start
        waiters := c.waiters ++ [⟨c.ticket, .entry (c.logEnd - 1)⟩] }
  | syncTerm (w : Waiter) (term : Nat) (vote : Uuid) (hw : c.waiters.head? = some w)
      (hbody : w.body = .term term vote) (hticket : w.commitTicket ≤ c.log.cur) :
      Act ctx c [] { c with syncedTerm := term, syncedVote := vote }
  | syncEntry (w : Waiter) (index : Nat) (hw : c.waiters.head? = some w)
      (hbody : w.body = .entry index) (hticket : w.commitTicket ≤ c.log.cur) :
      Act ctx c [] { c with logSynced := index }
  | drop : Act ctx c [] { c with waiters := c.waiters.tail }
  -- Messages and marks.
  | send (rpc : Rpc) (r : Raft) (hr : c.Is r) (hok : MsgOk ctx c rpc)
      (hsync : c.Synced rpc ∨ rpc.body.unsynced) :
      Act ctx c [.sent rpc r] c
  | sendLater (rpc : Rpc) (hok : MsgOk ctx c rpc) :
      Act ctx c [] { c with waiters := c.waiters ++ [⟨0, .rpc rpc⟩] }
  | sendNow (w : Waiter) (rpc : Rpc) (r : Raft) (hr : c.Is r) (hw : c.waiters.head? = some w)
      (hbody : w.body = .rpc rpc) (hterm : raftRpcGetTerm rpc = 0 ∨ c.term ≤ raftRpcGetTerm rpc)
      (hsync : c.Synced rpc) :
      Act ctx c [.sent rpc r] c
  | mark (ev : Event) (hev : Marks ctx c ev) : Act ctx c [ev] c
  -- Terms and elections.
  | observe (term : Nat) (hterm : c.term < term) :
      Act ctx c [] { c.setTerm term 0 with role := .follower }
  | stepDown : Act ctx c [] { c with role := .follower }
  | campaign (r : Raft) (hev : Marks ctx c (.campaign r)) (hrole : c.role ≠ .leader)
      (hdirty : c.ghost.dirty = ctx.dirty) (hself : c.sid ∈ sids c.servers) :
      Act ctx c [.campaign r] { c.setTerm (u64 (c.term + 1)) c.sid with
        role := .candidate
        nVotes := 0
        ghost := { c.ghost with granted := [] } }
  | clearVote (sid : Uuid) (hgranted : c.ghost.granted = []) :
      Act ctx c [] { c with servers := updatePeer c.servers sid ({ · with vote := 0 }) }
  | vote (src : Uuid) (rq : VoteRequest) (r : Raft) (hev : Marks ctx c (.vote src rq r)) :
      Act ctx c [.vote src rq r] (c.setTerm c.term src)
  | countVote (p : Peer) (vote : Uuid) (hrole : c.role = .candidate)
      (hp : c.servers.find? (·.sid == p.sid) = some p) (hnew : p.vote ≠ vote)
      (hfrom : (p.sid = c.sid ∧ vote = c.sid) ∨ (p.sid ≠ c.sid ∧
        ∃ comment rpy, ctx.msg = some ⟨p.sid, comment, .voteReply rpy⟩ ∧ rpy.vote = vote ∧
          rpy.term = c.term)) :
      Act ctx c [] { c with
        servers := updatePeer c.servers p.sid ({ · with vote })
        nVotes := if vote = c.sid then c.nVotes + 1 else c.nVotes
        ghost := { c.ghost with
          granted := if vote = c.sid then c.ghost.granted ++ [p.sid] else c.ghost.granted } }
  | lead (r : Raft) (hev : Marks ctx c (.becomeLeader r)) (hdirty : c.ghost.dirty = ctx.dirty) :
      Act ctx c [.becomeLeader r]
        { c with role := .leader, servers := c.servers.map Peer.initLeader }
  -- Replication by a leader.
  | matchSelf (index : Nat) (hrole : c.role = .leader) :
      Act ctx c [] { c with
        servers := updatePeer c.servers c.sid ({ · with matchIndex := index }) }
  | matchPeer (src : Uuid) (comment : Option String) (rpy : AppendReply)
      (hrole : c.role = .leader) (hmsg : ctx.msg = some ⟨src, comment, .appendReply rpy⟩)
      (hterm : rpy.term = c.term ∨ rpy.term = 0) (hok : rpy.result = .ok) (hsrc : src ≠ c.sid) :
      Act ctx c [] { c with
        servers := updatePeer c.servers src
          ({ · with matchIndex := u64 (u64 (rpy.prevLogIndex + rpy.nEntries + 1) + (2 ^ 64 - 1)) }) }
  | matchNew (src : Uuid) (comment : Option String) (rpy : AppendReply)
      (hrole : c.role = .leader) (hmsg : ctx.msg = some ⟨src, comment, .appendReply rpy⟩)
      (hterm : rpy.term = c.term ∨ rpy.term = 0) (hok : rpy.result = .ok) :
      Act ctx c [] { c with
        addServers := updatePeer c.addServers src
          ({ · with matchIndex := u64 (u64 (rpy.prevLogIndex + rpy.nEntries + 1) + (2 ^ 64 - 1)) }) }
  | decide (index : Nat) (hrole : c.role = .leader) (hown : c.OwnTerm index)
      (hmajority : c.Majority index) (hdirty : c.ghost.dirty = ctx.dirty) :
      Act ctx c [] { c with ghost := { c.ghost with lim := index } }
  | advance (hlim : c.commitIndex < c.ghost.lim) (hlow : c.logStart ≤ c.commitIndex + 1)
      (hhigh : c.commitIndex + 1 < c.logEnd) :
      Act ctx c [] { c with commitIndex := c.commitIndex + 1 }
  | append (e : Entry) (ok : Bool) (hrole : c.role = .leader) (hterm : e.term = c.term)
      (hservers : e.servers = none) (hok : ctx.env.Writes → ok = true) :
      Act ctx c [] (c.push e ok)
  -- Changes of the set of servers by a leader.
  | reconfigure (r r' : Raft) (servers addServers : List Peer) (ok : Bool)
      (hev : Marks ctx c (.reconfigure r)) (hdirty : c.ghost.dirty = ctx.dirty)
      (hchange : Change c servers addServers) (hok : ctx.env.Writes → ok = true) :
      Act ctx c [.reconfigure r, .accept none none 0 r']
        ((c.withServers servers addServers).push (c.configEntry servers) ok)
  | reconfigureRefused (r : Raft) (servers addServers : List Peer)
      (hev : Marks ctx c (.reconfigure r)) (hrefuses : r.refuses) :
      Act ctx c [.reconfigure r] (c.withServers servers addServers)
  | addServer (p : Peer) (hinput : ctx.ChangesMembership) (hnew : p.sid ∉ sids c.servers)
      (hnew' : p.sid ∉ sids c.addServers) (hmatch : p.matchIndex = 0) :
      Act ctx c [] { c with addServers := c.addServers ++ [p] }
  | cancelAdd (sid : Uuid) :
      Act ctx c [] { c with addServers := c.addServers.eraseP (·.sid == sid) }
  | caughtUp (sid : Uuid) (hphase : ∃ p ∈ c.servers ++ c.addServers, p.phase = .catchup)
      (servers addServers : List Peer)
      (hset : (servers = updatePeer c.servers sid ({ · with phase := .caughtUp }) ∧
          addServers = c.addServers) ∨
        (servers = c.servers ∧
          addServers = updatePeer c.addServers sid ({ · with phase := .caughtUp }))) :
      Act ctx c [] (c.withServers servers addServers)
  | retire (sid : Uuid) (hinput : ctx.ChangesMembership) :
      Act ctx c [] { c with servers := updatePeer c.servers sid ({ · with phase := .remove }) }
  | settle (sid : Uuid) :
      Act ctx c [] { c with servers := updatePeer c.servers sid ({ · with phase := .stable }) }
  | rehash (servers addServers : List Peer) (hservers : servers.Perm c.servers)
      (hadd : addServers.Perm c.addServers) :
      Act ctx c [] (c.withServers servers addServers)
  -- Replication by a follower.
  | truncate (newEnd : Nat) (r : Raft) (hev : Marks ctx c (.truncate newEnd r))
      (hrole : c.role ≠ .leader) :
      Act ctx c [.truncate newEnd r] { c with
        entries := c.entries.take (newEnd - c.logStart)
        ghost := { c.ghost with
          dirty := c.ghost.dirty ||
            (c.entries.drop (newEnd - c.logStart)).any (·.servers.isSome) } }
  | adopt (rq : AppendRequest) (e : Entry) (ok : Bool) (hrole : c.role ≠ .leader)
      (hrq : ctx.Appending c rq) (hmem : e ∈ rq.entries)
      (he : rq.Fits → rq.entryAt c.logEnd = some e ∧ c.Agrees rq (c.logEnd - 1))
      (hok : ctx.env.Writes → ok = true) :
      Act ctx c [] { c.push e ok with
        ghost := { c.ghost with dirty := c.ghost.dirty || e.servers.isSome } }
  | setServers (servers : Servers) (hlog : c.logServers = some servers) :
      Act ctx c [] { c with
        servers := setPeers c.servers servers
        ghost := { c.ghost with dirty := false } }
  | follow (rq : AppendRequest) (index : Nat) (hrole : c.role ≠ .leader)
      (hrq : ctx.Appending c rq) (hack : c.Acknowledges rq) (hleader : index ≤ rq.leaderCommit)
      (hlast : index ≤ u64 rq.last) :
      Act ctx c [] { c with ghost := { c.ghost with lim := index } }
  -- Snapshots and the database.
  | install (rq : InstallSnapshotRequest) (r : Raft) (header : Header)
      (hev : Marks ctx c (.install rq r)) (hterm : rq.term = c.term ∨ rq.term = 0)
      (hheader : c.HeaderFor header (u64 (rq.lastIndex + 1)) rq.snapshot) :
      Act ctx c [.install rq r] (c.install rq header)
  | store (e : Entry) (data : Json) (electionTimer : Nat) (header : Header)
      (hstart : c.logStart ≤ c.lastApplied) (he : c.entryAt? c.lastApplied = some e)
      (hheader : c.HeaderFor header (c.lastApplied + 1) (c.appliedSnapshot e data electionTimer)) :
      Act ctx c [] (c.store (c.appliedSnapshot e data electionTimer) header)
  | apply (hnext : c.lastApplied < c.commitIndex ∨ c.logStart = c.lastApplied + 2) :
      Act ctx c [] { c with lastApplied := c.lastApplied + 1 }

/-- A sequence of acts, with the events of all of them. -/
inductive Acts (ctx : Ctx) : Core → List Event → Core → Prop where
  | nil (c : Core) : Acts ctx c [] c
  | cons {c c' c'' : Core} {evs evs' : List Event} (h : Act ctx c evs c')
      (t : Acts ctx c' evs' c'') : Acts ctx c (evs ++ evs') c''

variable {c c' : Core} {ctx : Ctx} {evs : List Event}

theorem Acts.one (h : Act ctx c evs c') : Acts ctx c evs c' := by
  simpa using Acts.cons h (.nil c')

theorem Acts.trans {c'' : Core} {evs' : List Event}
    (h : Acts ctx c evs c') (h' : Acts ctx c' evs' c'') : Acts ctx c (evs ++ evs') c'' := by
  induction h with
  | nil => exact h'
  | cons hact _ ih => simpa [List.append_assoc] using Acts.cons hact (ih h')

/-- An invariant of every act is an invariant of a sequence of acts.  `Cond` is
    assumed of every event on the way, `Good` is concluded. -/
theorem Acts.run {P : Core → Prop} {Cond Good : Event → Prop}
    (step : ∀ {c evs c'}, P c → Act ctx c evs c' → (∀ ev ∈ evs, Cond ev) →
      (∀ ev ∈ evs, Good ev) ∧ P c') (h : Acts ctx c evs c') (hc : P c)
    (hcond : ∀ ev ∈ evs, Cond ev) : (∀ ev ∈ evs, Good ev) ∧ P c' := by
  induction h with
  | nil => exact ⟨fun _ hev => absurd hev List.not_mem_nil, hc⟩
  | cons hact _ ih =>
    obtain ⟨hgood, hc'⟩ := step hc hact fun ev hev => hcond ev (List.mem_append_left _ hev)
    obtain ⟨hgood', hc''⟩ := ih hc' fun ev hev => hcond ev (List.mem_append_right _ hev)
    exact ⟨List.forall_mem_append.mpr ⟨hgood, hgood'⟩, hc''⟩

end Ovsgw.Cluster
