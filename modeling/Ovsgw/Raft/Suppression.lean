/-
  **Vote requests of disruptive servers.**

  `raft_should_suppress_disruptive_server` says that a vote request is ignored.  In
  `raft_handle_rpc` it only takes the place of the look at the term: the request still reaches
  `raft_handle_vote_request`, which grants a vote in the term of the receiver.  It has no effect
  exactly if the receiver would not vote for the candidate anyway.
-/
import Ovsgw.Raft.Runs
import Ovsgw.Raft.Snapshot

namespace Ovsgw.Cluster

/-! ## 1. A request that gets no vote -/

/-- Sending adds at most a waiter. -/
theorem raftSend_state (rpc : Rpc) (env : Env) (r : Raft) :
    ∃ waiters, (raftSend rpc env r).state = { r with waiters } ∧
      (∀ w ∈ waiters, w ∈ r.waiters ∨ w.body = .rpc rpc) ∧
      ∀ ev ∈ (raftSend rpc env r).trace, ∃ r', ev = .sent rpc r' := by
  by_cases hself : rpc.sid = r.sid
  · exact ⟨r.waiters, by simp [raftSend, hself], fun _ => .inl, by simp [raftSend, hself]⟩
  by_cases hconn : raftFindConnBySid r rpc.sid = true
  · by_cases hsynced : raftIsRpcSynced r rpc = true
    · refine ⟨r.waiters, ?_, fun _ => .inl, ?_⟩ <;> by_cases hsend : env.sendOk rpc.sid = true <;>
        simp [raftSend, raftSendToConn, hself, hconn, hsynced, hsend]
    · refine ⟨r.waiters ++ [{ commitTicket := 0, body := .rpc rpc }], ?_, ?_, ?_⟩
      · simp [raftSend, raftWaiterCreate, hself, hconn, hsynced]
      · simp +contextual [or_imp]
      · simp [raftSend, raftWaiterCreate, hself, hconn, hsynced]
  · exact ⟨r.waiters, by simp [raftSend, hself, hconn], fun _ => .inl,
      by simp [raftSend, hself, hconn]⟩

/-- The handler of vote requests gives its vote: there is none yet in this term, the log of the
    receiver is not more up-to-date, and the vote can be written to the file. -/
structure Raft.Grants (r : Raft) (env : Env) (src : Uuid) (rq : VoteRequest) : Prop where
  free : r.vote = 0
  src : src ≠ 0
  log : ¬ moreUpToDate r rq
  write : env.writeOk r.writes = true
  failed : r.failed = false

/-- What a vote request has left alone: a reply tells of the vote that was there before. -/
structure Raft.Unmoved (r : Raft) (src : Uuid) (o : Outcome Unit) : Prop where
  term : o.state.term = r.term
  vote : o.state.vote = r.vote
  role : o.state.role = r.role
  entries : o.state.entries = r.entries
  logStart : o.state.logStart = r.logStart
  snap : o.state.snap = r.snap
  commitIndex : o.state.commitIndex = r.commitIndex
  waiters : ∀ w ∈ o.state.waiters, w ∈ r.waiters ∨
    w.body = .rpc ⟨src, none, .voteReply ⟨r.term, r.vote⟩⟩
  sent : ∀ rpc r', .sent rpc r' ∈ o.trace → rpc = ⟨src, none, .voteReply ⟨r.term, r.vote⟩⟩

variable {rq : VoteRequest} {r r' : Raft} {src : Uuid} {env : Env}

theorem raftHandleVoteRequest_granted (h : r.Grants env src rq) :
    (raftHandleVoteRequest src rq env r).state.vote = src ∧
      (raftHandleVoteRequest src rq env r).state.term = r.term := by
  have hsrc : ¬ r.vote = src := fun heq => h.src (heq.symm.trans h.free)
  have hset : raftSetTerm r.term src env r = ⟨.ok true, r.withTerm r.term src, []⟩ :=
    raftSetTerm_ok h.write h.failed
  -- No fault is possible, so there is a state at the end.
  have hvoted : Ensures (fun _ => True) (fun _ => True) env (raftHandleVoteRequest src rq) r
      (fun _ r' => r'.vote = src ∧ r'.term = r.term) := by
    refine .bind (Q := fun reply r' => reply = true ∧ r'.vote = src ∧ r'.term = r.term) ?_ ?_
    · refine .get_bind (.ite (fun h' => absurd h' hsrc) fun _ => .ite (fun h' => absurd h.free h')
        fun _ => .ite (fun h' => absurd h' h.log) fun _ => .emit_bind fun _ => .run_bind hset ?_)
      exact .ite (fun h => absurd rfl h) fun _ => .run_bind rfl (.pure ⟨rfl, rfl, rfl⟩)
    · rintro _ r' ⟨rfl, hvote⟩
      refine .ite (fun _ => .get_bind ?_) fun h => absurd rfl h
      refine .bind (Q := fun _ r'' => r''.vote = src ∧ r''.term = r.term) ?_ fun _ _ h => .pure h
      intro _
      obtain ⟨waiters, hstate, -, -⟩ :=
        raftSend_state ⟨src, none, .voteReply ⟨r'.term, r'.vote⟩⟩ env r'
      obtain ⟨-, -, hfault⟩ :=
        @mild_raftSend ⟨src, none, .voteReply ⟨r'.term, r'.vote⟩⟩ env r'
      cases hres : (raftSend ⟨src, none, .voteReply ⟨r'.term, r'.vote⟩⟩ env r').result with
      | error f => exact absurd trivial (hfault f hres)
      | ok b => exact hstate ▸ hvote
  have hend := hvoted fun _ _ => trivial
  revert hend
  cases (raftHandleVoteRequest src rq env r).result with
  | ok _ => exact id
  | error _ => exact fun h => absurd trivial h

/-- Without a vote only the log file may change. -/
theorem voteRequest_denied (h : ¬ r.Grants env src rq) : ∃ reply log writes failed tr,
    raftHandleVoteRequest__ src rq env r = ⟨.ok reply, { r with log, writes, failed }, tr⟩ ∧
      ∀ ev ∈ tr, ev = .vote src rq r := by
  by_cases hsrc : r.vote = src
  · exact ⟨true, r.log, r.writes, r.failed, [], by
      simp only [raftHandleVoteRequest__, bind_run, get_run, if_pos hsrc, pure_run,
        List.nil_append], by simp⟩
  by_cases hzero : r.vote = 0
  · have hzero' : ¬ r.vote ≠ 0 := fun h => h hzero
    by_cases hlog : moreUpToDate r rq
    · refine ⟨false, r.log, r.writes, r.failed, [], ?_, by simp⟩
      simp only [raftHandleVoteRequest__, bind_run, get_run, if_neg hsrc, if_neg hzero', if_pos hlog,
        pure_run, List.nil_append]
    · have hfails : ¬ (env.writeOk r.writes = true ∧ r.failed = false) := fun ⟨hwrite, hfailed⟩ =>
        h ⟨hzero, fun heq => hsrc (hzero.trans heq.symm), hlog, hwrite, hfailed⟩
      obtain ⟨log, failed, hset, -⟩ := @raftSetTerm_fail env r r.term src hfails
      refine ⟨false, log, r.writes + 1, failed, [.vote src rq r], ?_, by simp⟩
      simp only [raftHandleVoteRequest__, bind_run, get_run, emit_run, if_neg hsrc, if_neg hzero',
        if_neg hlog, hset]
      rfl
  · refine ⟨true, r.log, r.writes, r.failed, [], ?_, by simp⟩
    simp only [raftHandleVoteRequest__, bind_run, get_run, if_neg hsrc, if_pos hzero, pure_run,
      List.nil_append]

theorem raftHandleVoteRequest_denied (h : ¬ r.Grants env src rq) :
    r.Unmoved src (raftHandleVoteRequest src rq env r) := by
  obtain ⟨reply, log, writes, failed, tr, hrun, htr⟩ := voteRequest_denied h
  have hnone : ∀ rpc r', Event.sent rpc r' ∉ tr := fun _ _ hmem => by cases htr _ hmem
  rw [raftHandleVoteRequest, bind_run, hrun]
  cases reply with
  | false =>
    refine ⟨rfl, rfl, rfl, rfl, rfl, rfl, rfl, fun _ => .inl, fun rpc r' hmem => ?_⟩
    simp [hnone] at hmem
  | true =>
    obtain ⟨waiters, hstate, hwaiters, htrace⟩ :=
      raftSend_state ⟨src, none, .voteReply ⟨r.term, r.vote⟩⟩ env { r with log, writes, failed }
    have hrest : ∀ rpc r', .sent rpc r' ∈ tr ++ (raftSend ⟨src, none, .voteReply ⟨r.term, r.vote⟩⟩
        env { r with log, writes, failed }).trace →
        rpc = ⟨src, none, .voteReply ⟨r.term, r.vote⟩⟩ := by
      intro rpc r' hev
      rcases List.mem_append.mp hev with hmem | hmem
      · exact absurd hmem (hnone _ _)
      · obtain ⟨_, heq⟩ := htrace _ hmem
        cases heq
        rfl
    simp only [if_true, bind_run, get_run, List.nil_append]
    revert hstate hrest
    rcases raftSend ⟨src, none, .voteReply ⟨r.term, r.vote⟩⟩ env { r with log, writes, failed }
      with ⟨f | b, r', tr'⟩ <;> rintro rfl hrest
    · exact ⟨rfl, rfl, rfl, rfl, rfl, rfl, rfl, hwaiters, hrest⟩
    · refine ⟨rfl, rfl, rfl, rfl, rfl, rfl, rfl, hwaiters, fun rpc r' hmem => hrest rpc r' ?_⟩
      simpa using hmem

/-! ## 2. Votes for other servers -/

/-- Since the input was taken up, the vote has not been recorded anew, or it is
    no vote for another server, or it is one that the input asks for. -/
def Core.VoteOk (ctx : Ctx) (c : Core) : Prop :=
  c.sid = ctx.start.sid ∧
    ((c.term = ctx.start.term ∧ c.vote = ctx.start.vote) ∨ c.vote = 0 ∨ c.vote = c.sid ∨
      ∃ comment rq, ctx.msg = some ⟨c.vote, comment, .voteRequest rq⟩ ∧
        (rq.term = c.term ∨ ctx.Unscreened ⟨c.vote, comment, .voteRequest rq⟩))

variable {evs : List Event} {c' c : Core} {ctx : Ctx}

theorem voteOk_of_act (h : Act ctx c evs c') (hc : c.VoteOk ctx) : c'.VoteOk ctx := by
  cases h with
  | observe => exact ⟨hc.1, .inr (.inl rfl)⟩
  | campaign => exact ⟨hc.1, .inr (.inr (.inl rfl))⟩
  | vote src rq r hev =>
    obtain ⟨-, -, -, -, comment, hmsg, hterm⟩ := hev
    exact ⟨hc.1, .inr (.inr (.inr ⟨comment, rq, hmsg, hterm.imp_right And.right⟩))⟩
  | _ => exact hc

theorem voteOk_of_acts (h : Acts ctx c evs c') (hc : c.VoteOk ctx) : c'.VoteOk ctx := by
  induction h with
  | nil => exact hc
  | cons hact _ ih => exact ih (voteOk_of_act hact hc)

theorem Reachable.one_le_logStart {rule : Rule} (hr : Reachable rule r) : 1 ≤ r.logStart := by
  have hinv : Invariant rule (fun _ => True) (fun _ => True) :=
    ⟨fun _ _ _ => trivial, fun _ _ _ _ => ⟨fun _ _ => trivial, trivial⟩⟩
  obtain ⟨_, -, hone, -⟩ := hinv.reachable hr
  exact hone

/-- The RPC reaches its handler without a look at its term. -/
def Rpc.Unscreened (rpc : Rpc) (env : Env) (r : Raft) : Prop :=
  raftRpcGetTerm rpc = 0 ∨ raftShouldSuppressDisruptiveServer env.now r rpc = true

theorem Rpc.Unscreened.run {comment : Option String}
    (h : Rpc.Unscreened ⟨src, comment, .voteRequest rq⟩ env r) :
    raftHandleRpc ⟨src, comment, .voteRequest rq⟩ env r = raftHandleVoteRequest src rq env r := by
  have hskip : ¬ (raftRpcGetTerm ⟨src, comment, .voteRequest rq⟩ ≠ 0 ∧
      ¬ raftShouldSuppressDisruptiveServer env.now r ⟨src, comment, .voteRequest rq⟩ = true) :=
    fun ⟨hterm, hallowed⟩ => h.elim hterm hallowed
  simp only [raftHandleRpc, bind_run, getEnv_run, get_run, if_neg hskip, pure_run, if_true, dispatch,
    List.nil_append]

/-- A new vote for another server is one that the input asks for, in its own term. -/
def Raft.VotesInTerm (r r' : Raft) (inp : Input) : Prop :=
  ¬ (r'.term = r.term ∧ r'.vote = r.vote) → r'.vote ≠ 0 → r'.vote ≠ r.sid →
    ∃ comment rq, inp = .rpc ⟨r'.vote, comment, .voteRequest rq⟩ ∧ rq.term = r'.term

/-- A vote after screening is cast in the current term. -/
theorem votesInTerm_of_screened {rule : Rule} {inp : Input} {tr : List Event}
    (hr : Reachable rule r) (hrun : inp.run env r = ⟨.ok (), r', tr⟩)
    (hscreened : ∀ src comment rq, inp = .rpc ⟨src, comment, .voteRequest rq⟩ →
      ¬ Rpc.Unscreened ⟨src, comment, .voteRequest rq⟩ env r) : r.VotesInTerm r' inp := by
  intro hnew hzero hself
  obtain ⟨c, hacts, hend⟩ := input_acts hr.one_le_logStart
  have hok : (r.core {}).VoteOk (inp.ctx env r {}) := ⟨rfl, .inl ⟨rfl, rfl⟩⟩
  have hvote : c.VoteOk (inp.ctx env r {}) := voteOk_of_acts hacts hok
  obtain ⟨g, rfl, -⟩ := hend (by rw [hrun])
  rw [hrun] at hvote
  rcases hvote.2 with h | h | h | ⟨comment, rq, hmsg, hterm⟩
  · exact absurd h hnew
  · exact absurd h hzero
  · exact absurd (h.trans hvote.1) hself
  · cases inp with
    | rpc rpc =>
      cases hmsg
      exact ⟨comment, rq, rfl, hterm.resolve_right (hscreened _ _ _ rfl)⟩
    | _ => cases hmsg

/-- A suppressed request has no effect exactly if the receiver would not grant its vote, and a
    step from a reachable state records a vote for another server only in the term of a request
    for it, unless it grants a request of another term that was not screened. -/
theorem suppressed_no_effect (env : Env) (r : Raft) :
    (∀ (src : Uuid) (comment : Option String) (rq : VoteRequest),
      raftShouldSuppressDisruptiveServer env.now r ⟨src, comment, .voteRequest rq⟩ = true →
      (r.Unmoved src (raftHandleRpc ⟨src, comment, .voteRequest rq⟩ env r) ↔
        ¬ r.Grants env src rq)) ∧
    ∀ (rule : Rule) (r' : Raft) (inp : Input) (tr : List Event), Reachable rule r →
      inp.run env r = ⟨.ok (), r', tr⟩ →
      (r.VotesInTerm r' inp ↔ ∀ src comment rq, inp = .rpc ⟨src, comment, .voteRequest rq⟩ →
        Rpc.Unscreened ⟨src, comment, .voteRequest rq⟩ env r → r.Grants env src rq →
        rq.term = r.term ∨ src = r.sid) := by
  constructor
  · intro src comment rq hsuppress
    rw [Rpc.Unscreened.run (.inr hsuppress)]
    refine ⟨fun hsame hgrants => ?_, raftHandleVoteRequest_denied⟩
    obtain ⟨hvote, -⟩ := raftHandleVoteRequest_granted hgrants
    exact hgrants.src (hvote.symm.trans (hsame.vote.trans hgrants.free))
  · intro rule r' inp tr hr hrun
    constructor
    · rintro hvotes src comment rq rfl hskip hgrants
      obtain ⟨hvote, hterm⟩ := raftHandleVoteRequest_granted hgrants
      rw [← hskip.run, show raftHandleRpc _ env r = _ from hrun] at hvote hterm
      obtain rfl : r'.vote = src := hvote
      by_cases hself : r'.vote = r.sid
      · exact .inr hself
      obtain ⟨_, _, heq, hrq⟩ := hvotes (fun h => hgrants.src (h.2.trans hgrants.free))
        hgrants.src hself
      cases heq
      exact .inl (hrq.trans hterm)
    · intro hcond
      by_cases hskip : ∃ src comment rq, inp = .rpc ⟨src, comment, .voteRequest rq⟩ ∧
          Rpc.Unscreened ⟨src, comment, .voteRequest rq⟩ env r
      · obtain ⟨src, comment, rq, rfl, hskip⟩ := hskip
        by_cases hgrants : r.Grants env src rq
        · obtain ⟨hvote, hterm⟩ := raftHandleVoteRequest_granted hgrants
          rw [← hskip.run, show raftHandleRpc _ env r = _ from hrun] at hvote hterm
          intro _ _ hself
          obtain rfl : r'.vote = src := hvote
          exact ⟨comment, rq, rfl, ((hcond _ _ _ rfl hskip hgrants).resolve_right hself).trans
            hterm.symm⟩
        · have hsame := raftHandleVoteRequest_denied hgrants
          rw [← hskip.run, show raftHandleRpc _ env r = _ from hrun] at hsame
          exact fun hnew => absurd ⟨hsame.term, hsame.vote⟩ hnew
      · exact votesInTerm_of_screened hr hrun fun src comment rq hinp hbad =>
          hskip ⟨src, comment, rq, hinp, hbad⟩

def asking (term : Nat) (leadershipTransfer : Bool) : VoteRequest :=
  { term, lastLogIndex := 9, lastLogTerm := 9, leadershipTransfer }

def inTermFive (vote : Uuid) : Raft := { bareRaft with term := 5, vote }

/-- A server that has voted for server 3 stays with it, and one votes for the leader's choice. -/
theorem suppressed_no_effect_sample :
    (inTermFive 3).Unmoved 2
        (raftHandleRpc ⟨2, none, .voteRequest (asking 3 false)⟩ {} (inTermFive 3)) ∧
      ∃ comment rq, Input.rpc ⟨2, none, .voteRequest (asking 3 true)⟩ =
          .rpc ⟨2, comment, .voteRequest rq⟩ ∧
        rq.term = (raftHandleRpc ⟨2, none, .voteRequest (asking 3 true)⟩ {} pairRaft).state.term := by
  constructor
  · refine ((suppressed_no_effect {} (inTermFive 3)).1 2 none (asking 3 false) rfl).mpr fun h => ?_
    exact absurd h.free (by decide)
  · refine ((suppressed_no_effect {} pairRaft).2 {} _ (.rpc ⟨2, none, .voteRequest (asking 3 true)⟩)
      _ (reachable_pairRaft trivial) rfl).mpr ?_ (by decide) (by decide) (by decide)
    rintro _ _ _ ⟨⟩ hskip
    exact absurd hskip (by simp only [Rpc.Unscreened]; decide)

/-- A follower that has just heard from the leader of term 5 ignores a request
    from term 3, and votes for its sender. -/
theorem suppressed_grants_vote : raftShouldSuppressDisruptiveServer 0 (inTermFive 0)
        ⟨2, none, .voteRequest (asking 3 false)⟩ = true ∧
      (raftHandleRpc ⟨2, none, .voteRequest (asking 3 false)⟩ {} (inTermFive 0)).state.term = 5 ∧
      (raftHandleRpc ⟨2, none, .voteRequest (asking 3 false)⟩ {} (inTermFive 0)).state.vote = 2 := by
  decide +kernel

end Ovsgw.Cluster
