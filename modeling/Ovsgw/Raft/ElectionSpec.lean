/-
  **The acts of terms, votes and elections.**
-/
import Ovsgw.Raft.CommitSpec

namespace Ovsgw.Cluster

/-- `servers` is as much behind the log as it was when the input came in. -/
def Clean {α : Type} (ctx : Ctx) : α → St → Prop := fun _ s => s.ghost.dirty = ctx.dirty

/-! ## 1. Terms -/

def Raft.withTerm (r : Raft) (term : Nat) (vote : Uuid) : Raft :=
  { r with
    log := (r.log.add (stateRecord term vote)).start
    writes := r.writes + 1
    waiters := r.waiters ++ [⟨r.log.next + 1, .term term vote⟩]
    term
    vote }

theorem raftSetTerm_ok {env : Env} {r : Raft} {term : Nat} {vote : Uuid}
    (hok : env.writeOk r.writes = true) (hfailed : r.failed = false) :
    raftSetTerm term vote env r = ⟨.ok true, r.withTerm term vote, []⟩ := by
  simp [raftSetTerm, raftWriteState, ovsdbLogWrite, raftHandleWriteError, hok, hfailed,
    raftWaiterCreate, ovsdbLogCommitStart, Raft.withTerm]
  rfl

theorem raftSetTerm_fail {env : Env} {r : Raft} {term : Nat} {vote : Uuid}
    (h : ¬ (env.writeOk r.writes = true ∧ r.failed = false)) : ∃ log failed,
    raftSetTerm term vote env r = ⟨.ok false, { r with log, writes := r.writes + 1, failed }, []⟩ ∧
      (log = r.log ∨ log = r.log.add (stateRecord term vote)) := by
  by_cases hok : env.writeOk r.writes = true
  · have hfailed : r.failed = true := by simpa [hok] using h
    refine ⟨_, r.failed, ?_, .inr rfl⟩
    simp [raftSetTerm, raftWriteState, ovsdbLogWrite, raftHandleWriteError, hok, hfailed]
  · refine ⟨_, true, ?_, .inl rfl⟩
    simp [raftSetTerm, raftWriteState, ovsdbLogWrite, raftHandleWriteError, hok]

/-- `raft_set_term` succeeds, or leaves at most a record in the file. -/
theorem raftSetTerm_cases (env : Env) (r : Raft) (term : Nat) (vote : Uuid) :
    raftSetTerm term vote env r = ⟨.ok true, r.withTerm term vote, []⟩ ∨
    ∃ r', raftSetTerm term vote env r = ⟨.ok false, r', []⟩ ∧
      ∀ ctx g, Acts ctx (r.core g) [] (r'.core g) ∧ St.Soft ⟨r, g⟩ ⟨r', g⟩ := by
  by_cases h : env.writeOk r.writes = true ∧ r.failed = false
  · exact .inl (raftSetTerm_ok h.1 h.2)
  · obtain ⟨log, failed, hrun, rfl | rfl⟩ := @raftSetTerm_fail env r term vote h
    · exact .inr ⟨_, hrun, fun ctx g => ⟨.nil _, .of_core_eq rfl⟩⟩
    · exact .inr ⟨_, hrun, fun ctx g => ⟨.one (.write _), ⟨List.prefix_refl _, rfl⟩, rfl⟩⟩

theorem softM_notifyLostLeadership : SoftM notifyLostLeadership :=
  .bind .get fun _ => .bind (.forEach fun _ _ => light_raftSendAddServerReply__.soft) fun _ =>
    .bind softM_reportRemoved fun _ => light_raftCompleteAllCommands.soft

variable {ctx : Ctx} {s : St} {leadershipTransfer : Bool} {src : Uuid} {comment : Option String}

theorem SoftM.clean {α : Type} {m : M α} (h : SoftM m) (hdirty : s.ghost.dirty = ctx.dirty) :
    Does ctx m s (Clean ctx) :=
  (h ctx s).weaken fun _ _ hs => hs.dirty.trans hdirty

theorem does_raftBecomeFollower :
    Does ctx raftBecomeFollower s (fun _ s' => s'.ghost = s.ghost ∧ s'.raft.role = .follower) := by
  refine .skip_bind rfl (.get_bind (.ite (fun hrole => .pure ⟨rfl, hrole⟩) fun _ => ?_))
  refine .modify_bind (g := s.ghost) .stepDown ?_
  refine (SoftM.bind light_raftResetElectionTimer.soft (fun _ => softM_notifyLostLeadership)
    ctx _).weaken fun _ s' h => ?_
  exact ⟨h.ghost, h.role⟩

/-- A term that is accepted is the current one afterwards. -/
theorem does_raftReceiveTerm__ {term : Nat} :
    Does ctx (raftReceiveTerm__ term) s (fun b s' => s'.ghost = s.ghost ∧
      s'.raft.logStart = s.raft.logStart ∧ (b = true → s'.raft.term = term)) := by
  refine .get_bind (.ite (fun hlt => .hold ?_) fun hle => .pure ⟨rfl, rfl, fun h => ?_⟩)
  · rcases raftSetTerm_cases ctx.env s.raft term 0 with hrun | ⟨r', hrun, hfail⟩
    · refine .run_bind hrun (.ite (fun h => absurd rfl h) fun _ => ?_)
      refine .bind (Q := fun _ s' => s'.ghost = s.ghost ∧ s'.raft.logStart = s.raft.logStart ∧
          s'.raft.term = term)
        (.modify_bind (.get_bind (.ite (fun hrole => ?_) fun _ => .modify_bind ?_)))
        fun _ s' h => .pure ⟨h.1, h.2.1, fun _ => h.2.2⟩
      · refine .release (g := s.ghost) (.one ?_) (.pure ⟨rfl, rfl, rfl⟩)
        have hsame : s.core.setTerm term 0 = { s.core.setTerm term 0 with role := .follower } := by
          rw [← show (s.core.setTerm term 0).role = .follower from hrole]
        show Act ctx s.core [] (s.core.setTerm term 0)
        rw [hsame]
        exact .observe term hlt
      · refine .release (g := s.ghost) (.one (.observe term hlt)) ?_
        refine (SoftM.bind light_raftResetElectionTimer.soft (fun _ => softM_notifyLostLeadership)
          ctx _).weaken fun _ s' h => ?_
        exact ⟨h.ghost, h.logStart, h.term⟩
    · refine .run_bind hrun (.ite (fun _ => ?_) fun h => absurd (by simp) h)
      have hsoft := (hfail ctx s.ghost).2
      exact .release (hfail ctx s.ghost).1
        (.pure ⟨rfl, hsoft.logStart, fun h => absurd h (by simp)⟩)
  · have := of_decide_eq_true h
    omega

/-! ## 2. Becoming leader -/

def Raft.leading (r : Raft) (env : Env) : Raft :=
  { r with
    role := .leader
    leaderSid := r.sid
    everHadLeader := true
    hadLeader := true
    candidateRetrying := false
    electionBase := env.now
    electionTimeout := env.now + (r.electionTimer + env.random)
    pingTimeout := env.now + r.electionTimer / 3
    servers := r.servers.map (raftServerInitLeader r.logEnd)
    electionTimerNew := 0 }

theorem enterLeaderRole_run (env : Env) (r : Raft) :
    enterLeaderRole env r = ⟨.ok (), r.leading env, []⟩ := by
  simp [enterLeaderRole, raftSetLeader, raftResetElectionTimer, raftResetPingTimer, Raft.leading,
    Raft.logEnd]

theorem Raft.core_leading (r : Raft) (env : Env) (g : Ghost) : (r.leading env).core g =
      { r.core g with
        role := .leader
        servers := (r.core g).servers.map Peer.initLeader } := by
  simp only [Raft.core, Raft.leading, List.map_map]
  rfl

/-! ## 3. Votes -/

theorem raftServerFind_peer (servers : List Server) (sid : Uuid) :
    (servers.map Server.peer).find? (·.sid == sid) =
      (raftServerFind servers sid).map Server.peer := by
  simp only [raftServerFind, List.find?_map]
  rfl

/-- A candidate whose count has not started. -/
structure St.Campaigning (ctx : Ctx) (sid : Uuid) (s : St) : Prop where
  role : s.raft.role = .candidate
  sid : s.raft.sid = sid
  granted : s.ghost.granted = []
  dirty : s.ghost.dirty = ctx.dirty

variable {sid : Uuid} {servers : List Server}

theorem St.Campaigning.of_soft {s' : St} (h : s.Campaigning ctx sid)
    (hs : s.Soft s') : s'.Campaigning ctx sid where
  role := hs.role.trans h.role
  sid := hs.sid.trans h.sid
  granted := by rw [hs.ghost, h.granted]
  dirty := hs.dirty.trans h.dirty

theorem mem_sids_of_raftServerFind
    (h : (raftServerFind servers sid).isNone ≠ true) : sid ∈ sids (servers.map Server.peer) := by
  cases hfind : raftServerFind servers sid with
  | none => simp [hfind] at h
  | some s =>
    have hmem := List.mem_of_find?_eq_some hfind
    have hsid : s.sid = sid := by simpa using List.find?_some hfind
    exact List.mem_map.mpr ⟨s.peer, List.mem_map_of_mem hmem, hsid⟩

theorem does_clearVotes (h : s.Campaigning ctx sid) :
    Does ctx (forEach servers fun peer => do
      modify fun r =>
        { r with servers := updateServer r.servers peer.sid ({ · with vote := 0 }) }
      if peer.sid ≠ sid then
        let r ← get
        let _ ← raftSend
          { sid := peer.sid, body := .voteRequest (voteRequest r leadershipTransfer) })
      s (fun _ s' => s'.Campaigning ctx sid) := by
  refine .forEach h fun peer _ s' hs' => ?_
  have hact : Act ctx s'.core [] _ := .of_updateServer (f := ({ · with vote := 0 }))
    (.clearVote peer.sid hs'.granted) fun _ => rfl
  have hcleared : St.Campaigning ctx sid ⟨{ s'.raft with
      servers := updateServer s'.raft.servers peer.sid ({ · with vote := 0 }) }, s'.ghost⟩ :=
    ⟨hs'.role, hs'.sid, hs'.granted, hs'.dirty⟩
  refine .modify_bind hact (.ite (fun _ => .get_bind ?_) fun _ => .pure hcleared)
  refine .bind (does_raftSend fun _ => ⟨hs'.role, rfl, rfl, rfl⟩) fun _ _ hs => .pure ?_
  exact hcleared.of_soft hs

/-! ## 4. Elections -/

variable (hdirty : s.ghost.dirty = ctx.dirty)
include hdirty

theorem does_raftBecomeLeader (hrole : s.raft.role = .candidate)
    (hvotes : s.core.servers.length / 2 < s.raft.nVotes) :
    Does ctx raftBecomeLeader s (Clean ctx) := by
  have hev : Marks ctx s.core (.becomeLeader s.raft) := ⟨rfl, hrole, hvotes⟩
  have hne : s.raft.role ≠ .leader := by simp [hrole]
  refine .get_bind (.hold (.emit_bind (.assert_bind (fun h => ⟨.one (.mark _ hev), absurd hne h⟩)
    fun _ => .run_bind (enterLeaderRole_run _ _)
      (.release (g := s.ghost) (.one ?_) (.get_bind ?_)))))
  · rw [Raft.core_leading]
    exact .lead s.raft hev hdirty
  · refine .bind (does_raftUpdateOurMatchIndex (by exact hdirty)) fun _ s1 h1 => .get_bind ?_
    refine .bind (softM_ovsdbLogWrite ctx s1) fun _ s2 h2 => ?_
    refine .bind does_raftCommandExecute__ fun _ s3 h3 => .pure ?_
    exact h3.dirty.trans (h2.dirty.trans (h1.dirty.trans hdirty))

theorem does_raftAcceptVote {voter : Server} {vote : Uuid} (hrole : s.raft.role = .candidate)
    (hvoter : raftServerFind s.raft.servers voter.sid = some voter)
    (hfrom : (voter.sid = s.raft.sid ∧ vote = s.raft.sid) ∨ (voter.sid ≠ s.raft.sid ∧
      ∃ comment rpy, ctx.msg = some ⟨voter.sid, comment, .voteReply rpy⟩ ∧ rpy.vote = vote ∧
        rpy.term = s.raft.term)) : Does ctx (raftAcceptVote voter vote) s (Clean ctx) := by
  unfold raftAcceptVote
  refine .ite (fun _ => .pure hdirty) fun hnew => .hold (.modify_bind (.get_bind ?_))
  have hp : s.core.servers.find? (·.sid == voter.peer.sid) = some voter.peer := by
    show (s.raft.servers.map Server.peer).find? (·.sid == voter.sid) = some voter.peer
    rw [raftServerFind_peer, hvoter]
    rfl
  have hact : Act ctx s.core [] _ := .countVote voter.peer vote hrole hp hnew hfrom
  have hservers : (updateServer s.raft.servers voter.sid ({ · with vote })).map Server.peer =
      updatePeer s.core.servers voter.sid ({ · with vote }) :=
    map_peer_updateServer (fun _ => rfl)
  refine .ite (fun hself => .modify_bind ?_) fun hself => ?_
  · have hself' : vote = s.core.sid := hself
    simp only [if_pos hself'] at hact
    refine .release (g := { s.ghost with granted := s.ghost.granted ++ [voter.sid] }) (.one ?_) ?_
    · simp only [Raft.core, hservers]
      exact hact
    · refine .ite (fun hmajority => ?_) fun _ => .pure hdirty
      refine does_raftBecomeLeader hdirty hrole ?_
      simpa [St.core, Raft.core] using hmajority
  · have hself' : ¬ vote = s.core.sid := hself
    simp only [if_neg hself'] at hact
    refine .release (g := s.ghost) (.one ?_) (.pure hdirty)
    simp only [Raft.core, hservers]
    exact hact

theorem does_raftStartElection : Does ctx (raftStartElection leadershipTransfer) s (Clean ctx) := by
  refine .get_bind (.ite (fun _ => .pure hdirty) fun _ => .ite (fun _ => .pure hdirty) fun hself => ?_)
  have hev : Marks ctx s.core (.campaign s.raft) := rfl
  rcases raftSetTerm_cases ctx.env s.raft (u64 (s.raft.term + 1)) s.raft.sid with
    hrun | ⟨r', hrun, hfail⟩
  · refine .hold (.emit_bind (.run_bind hrun (.ite (fun h => absurd rfl h) fun _ => .assert_bind
      (fun _ => ⟨.one (.mark _ hev), .of_not_indexed rfl _⟩) fun hrole => .modify_bind
      (.release (g := { s.ghost with granted := [] }) (.one ?_) ?_))))
    · exact .campaign _ hev hrole hdirty (mem_sids_of_raftServerFind hself)
    · refine .bind (light_raftResetElectionTimer.soft ctx _) fun _ s1 h1 => ?_
      have hcamp : s1.Campaigning ctx s.raft.sid :=
        .of_soft (by exact ⟨rfl, rfl, rfl, hdirty⟩) h1
      refine .bind (does_clearVotes hcamp) fun _ s2 h2 => .get_bind ?_
      cases hme : raftFindServer s2.raft s.raft.sid with
      | none => exact .pure h2.dirty
      | some me =>
        have hsid : me.sid = s.raft.sid := by simpa using List.find?_some hme
        refine does_raftAcceptVote h2.dirty h2.role ?_ (.inl ?_)
        · rw [hsid]
          exact hme
        · rw [h2.sid]
          exact ⟨hsid, rfl⟩
  · refine .hold (.emit_bind (.run_bind hrun (.ite (fun _ => ?_) fun h => absurd (by simp) h)))
    exact .release ((Acts.one (.mark _ hev)).trans (hfail ctx s.ghost).1) (.pure hdirty)

/-- A vote is cast in the current term, or screening was skipped. -/
theorem does_raftHandleVoteRequest
    {rq : VoteRequest} (hmsg : ctx.msg = some ⟨src, comment, .voteRequest rq⟩)
    (hterm : rq.term = s.raft.term ∨
      (s.raft = ctx.start ∧ ctx.Unscreened ⟨src, comment, .voteRequest rq⟩)) :
    Does ctx (raftHandleVoteRequest src rq) s (Clean ctx) := by
  have hvoted : Does ctx (raftHandleVoteRequest__ src rq) s (fun b s' =>
      s'.ghost = s.ghost ∧ (b = true → s'.raft.vote = src ∨ s'.raft.vote ≠ 0)) := by
    refine .get_bind (.ite (fun h => .pure ⟨rfl, fun _ => .inl h⟩) fun hsrc =>
      .ite (fun h => .pure ⟨rfl, fun _ => .inr h⟩) fun hzero =>
      .ite (fun _ => .pure ⟨rfl, fun h => absurd h (by simp)⟩) fun hlog => ?_)
    have hzero : s.raft.vote = 0 := Decidable.not_not.mp hzero
    have hev : Marks ctx s.core (.vote src rq s.raft) :=
      ⟨rfl, fun h => hsrc (hzero.trans h.symm), hzero, hlog, comment, hmsg, hterm⟩
    rcases raftSetTerm_cases ctx.env s.raft s.raft.term src with hrun | ⟨r', hrun, hfail⟩
    · refine .hold (.emit_bind (.run_bind hrun (.ite (fun h => absurd rfl h) fun _ =>
        .release (g := s.ghost) (.one (.vote src rq s.raft hev)) ?_)))
      refine .bind (light_raftResetElectionTimer.soft ctx _) fun _ s' h => .pure ⟨h.ghost, fun _ => ?_⟩
      exact .inl (h.vote.trans rfl)
    · refine .hold (.emit_bind (.run_bind hrun (.ite (fun _ => ?_) fun h => absurd (by simp) h)))
      exact .release ((Acts.one (.mark _ hev)).trans (hfail ctx s.ghost).1)
        (.pure ⟨rfl, fun h => absurd h (by simp)⟩)
  refine .bind hvoted ?_
  rintro b s1 ⟨hghost, hvote⟩
  have hdirty1 : s1.ghost.dirty = ctx.dirty := by rw [hghost, hdirty]
  refine .ite (fun hb => .get_bind ?_) fun _ => .pure hdirty1
  refine .bind (does_raftSend fun hsrc => ⟨rfl, rfl, ?_⟩) fun _ _ h => .pure ?_
  · rcases hvote hb with h | h
    · exact fun h0 => hsrc (h.symm.trans h0)
    · exact h
  · exact h.dirty.trans hdirty1

theorem does_raftHandleVoteReply
    {rpy : VoteReply} (hmsg : ctx.msg = some ⟨src, comment, .voteReply rpy⟩) :
    Does ctx (raftHandleVoteReply src rpy) s (Clean ctx) := by
  refine .bind does_raftReceiveTerm__ ?_
  rintro b s1 ⟨hghost, -, hterm⟩
  have hdirty1 : s1.ghost.dirty = ctx.dirty := by rw [hghost, hdirty]
  refine .ite (fun _ => .pure hdirty1) fun hb => .get_bind (.ite (fun _ => .pure hdirty1)
    fun hrole => ?_)
  cases hs : raftFindPeer s1.raft src with
  | none => exact .pure hdirty1
  | some peer =>
    simp only [raftFindPeer] at hs
    split at hs
    · cases hs
    · have hsid : peer.sid = src := by simpa using List.find?_some hs
      refine does_raftAcceptVote hdirty1 (Decidable.not_not.mp hrole) ?_ (.inr ?_)
      · rw [hsid]
        exact hs
      · rw [hsid]
        exact ⟨‹_›, comment, rpy, hmsg, rfl, (hterm (Decidable.not_not.mp hb)).symm⟩

end Ovsgw.Cluster
