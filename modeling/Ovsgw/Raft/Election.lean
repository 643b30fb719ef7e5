/-
  **Roles, terms and votes.**
-/
import Ovsgw.Raft.Commit

namespace Ovsgw.Cluster

/-! ## 1. Roles -/

/-- The part of `raft_become_follower` that notifies clients about lost leadership. -/
def notifyLostLeadership : M Unit := do
  forEach (← get).addServers fun s =>
    raftSendAddServerReply__ s.sid false "lost leadership"
  reportRemoved false "lost leadership"
  raftCompleteAllCommands .lostLeadership

def raftBecomeFollower : M Unit := do
  modify fun r => { r with leaderSid := 0 }
  if (← get).role = .follower then
    return ()
  modify fun r => { r with role := .follower }
  raftResetElectionTimer
  notifyLostLeadership

def raftSetLeader (sid : Uuid) : M Unit :=
  modify fun r =>
    { r with leaderSid := sid, everHadLeader := true, hadLeader := true,
             candidateRetrying := false }

/-- The state changes of `raft_become_leader` before the match index is updated. -/
def enterLeaderRole : M Unit := do
  modify fun r => { r with role := .leader }
  raftSetLeader (← get).sid
  raftResetElectionTimer
  raftResetPingTimer
  modify fun r =>
    { r with servers := r.servers.map (raftServerInitLeader r.logEnd), electionTimerNew := 0 }

def raftBecomeLeader : M Unit := do
  let r ← get
  emit (.becomeLeader r)
  ovsAssert .raftBecomeLeader (r.role ≠ .leader)
  enterLeaderRole
  raftUpdateOurMatchIndex ((← get).logEnd - 1)
  -- Write the fact that we are leader to the log.
  let r ← get
  let _ ← ovsdbLogWrite { term := r.term, body := .leader r.sid }
  -- Initiate a no-op commit.
  let _ ← raftCommandExecute__ none none 0 none

/-! ## 2. Elections -/

/-- `raft_accept_vote`; `voter` is the element of `servers` that voted. -/
def raftAcceptVote (voter : Server) (vote : Uuid) : M Unit := do
  if voter.vote = vote then
    return ()
  modify fun r =>
    { r with servers := updateServer r.servers voter.sid ({ · with vote }) }
  let r ← get
  if vote = r.sid then
    modify fun r => { r with nVotes := r.nVotes + 1 }
    if r.servers.length / 2 < r.nVotes + 1 then
      raftBecomeLeader

def voteRequest (r : Raft) (leadershipTransfer : Bool) : VoteRequest :=
  { term := r.term
    lastLogIndex := r.logEnd - 1
    lastLogTerm := r.lastLogTerm
    leadershipTransfer }

def raftStartElection (leadershipTransfer : Bool) : M Unit := do
  let r ← get
  if r.leaving then
    return ()
  if (raftFindServer r r.sid).isNone then
    return ()
  emit (.campaign r)
  if ¬ (← raftSetTerm (u64 (r.term + 1)) r.sid) then
    return ()
  ovsAssert .raftStartElection (r.role ≠ .leader)
  modify fun r =>
    { r with
      leaderSid := 0
      role := .candidate
      candidateRetrying := ¬ r.hadLeader
      hadLeader := false
      nVotes := 0 }
  raftResetElectionTimer
  forEach r.servers fun peer => do
    modify fun r =>
      { r with servers := updateServer r.servers peer.sid ({ · with vote := 0 }) }
    if peer.sid ≠ r.sid then
      let r ← get
      let _ ← raftSend
        { sid := peer.sid, body := .voteRequest (voteRequest r leadershipTransfer) }
  -- Vote for ourselves.
  match raftFindServer (← get) r.sid with
  | some me => raftAcceptVote me r.sid
  | none => return ()

/-! ## 3. Terms -/

def raftReceiveTerm__ (term : Nat) : M Bool := do
  let r ← get
  if r.term < term then
    if ¬ (← raftSetTerm term 0) then
      -- Failed to update the term to `term`.
      return false
    raftBecomeFollower
    return true
  else
    return r.term ≤ term

def raftShouldSuppressDisruptiveServer (now : Nat) (r : Raft) (rpc : Rpc) : Bool :=
  match rpc.body with
  | .voteRequest rq =>
    if rq.leadershipTransfer then
      false
    else
      match r.role with
      | .leader => true
      | .follower => now < r.electionBase + r.electionTimer
      | .candidate => false
  | _ => false

/-! ## 4. Votes -/

/-- Is the log of this server more up-to-date than the candidate's? -/
def moreUpToDate (r : Raft) (rq : VoteRequest) : Prop :=
  rq.lastLogTerm < r.lastLogTerm
    ∨ (r.lastLogTerm = rq.lastLogTerm ∧ rq.lastLogIndex < r.logEnd - 1)

instance (r : Raft) (rq : VoteRequest) : Decidable (moreUpToDate r rq) :=
  inferInstanceAs (Decidable (_ ∨ _))

/-- `raft_handle_vote_request__`: returns true if a reply should be sent. -/
def raftHandleVoteRequest__ (src : Uuid) (rq : VoteRequest) : M Bool := do
  let r ← get
  if r.vote = src then
    -- Already voted for this candidate in this term.  Resend vote.
    return true
  if r.vote ≠ 0 then
    -- Already voted for a different candidate in this term.
    return true
  if moreUpToDate r rq then
    return false
  -- Record a vote for the peer.
  emit (.vote src rq r)
  if ¬ (← raftSetTerm r.term src) then
    return false
  raftResetElectionTimer
  return true

def raftHandleVoteRequest (src : Uuid) (rq : VoteRequest) : M Unit := do
  if ← raftHandleVoteRequest__ src rq then
    let r ← get
    let _ ← raftSend { sid := src, body := .voteReply { term := r.term, vote := r.vote } }

def raftHandleVoteReply (src : Uuid) (rpy : VoteReply) : M Unit := do
  if ¬ (← raftReceiveTerm__ rpy.term) then
    return ()
  let r ← get
  if r.role ≠ .candidate then
    return ()
  match raftFindPeer r src with
  | some s => raftAcceptVote s rpy.vote
  | none => return ()

end Ovsgw.Cluster
