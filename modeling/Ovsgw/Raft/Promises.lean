/-
  **What a server has made sure of.**

  `Run` keeps the events of all inputs, so a message can be compared with those that were sent long
  before it.  As in `Runs`, an invariant is proved per act.  Terms grow as long as no election
  starts in the last one that 64 bits hold: there the next term is 0, and old votes count no more.
-/
import Ovsgw.Raft.Runs

namespace Ovsgw.Cluster

open List

/-! ## 1. Runs with their events -/

/-- Inputs take the server from `r` to another state, with these events. -/
inductive Run (rule : Rule) (r : Raft) : List Event → Raft → Prop where
  | nil : Run rule r [] r
  | input (env : Env) (inp : Input) {r1 r2 : Raft} {tr evs : List Event} (h : Run rule r tr r1)
      (hrun : inp.run env r1 = ⟨.ok (), r2, evs⟩) (hinput : rule.input (some inp) env)
      (hevents : ∀ ev ∈ evs, rule.event ev) : Run rule r (tr ++ evs) r2

variable {rule : Rule} {r r' : Raft} {tr evs : List Event} {ctx : Ctx} {c c' : Core} {rpc : Rpc}

/-- What each act keeps holds along a run. -/
theorem Run.invariant {P : List Event → Core → Prop}
    (hact : ∀ {tr ctx c evs c'}, rule.input ctx.input ctx.env → P tr c → Act ctx c evs c' →
      (∀ ev ∈ evs, rule.event ev) → P (tr ++ evs) c')
    (h : Run rule r tr r') (hone : 1 ≤ r.logStart) (hr : P [] (r.core {})) :
    ∃ g, P tr (r'.core g) ∧ 1 ≤ r'.logStart := by
  have hacts {tr ctx c evs c'} (hinput : rule.input ctx.input ctx.env) (h : Acts ctx c evs c')
      (hc : P tr c ∧ 1 ≤ c.logStart) (hevents : ∀ ev ∈ evs, rule.event ev) :
      P (tr ++ evs) c' ∧ 1 ≤ c'.logStart := by
    induction h generalizing tr with
    | nil => simpa using hc
    | cons h _ ih =>
      obtain ⟨hevs, hrest⟩ := forall_mem_append.mp hevents
      simpa using ih ⟨hact hinput hc.1 h hevs, one_le_logStart_of_act h hc.2⟩ hrest
  induction h with
  | nil => exact ⟨{}, hr, hone⟩
  | input env inp _ hrun hinput hevents ih =>
    obtain ⟨g, hc⟩ := ih
    obtain ⟨c, h, hend⟩ := input_acts hc.2
    rw [hrun] at h hend
    obtain ⟨g', rfl, -⟩ := hend rfl
    exact ⟨g', hacts hinput h hc hevents⟩

/-! ## 2. Votes -/

/-- The RPC is sent, or it waits until it may be sent. -/
def Said (tr : List Event) (c : Core) (rpc : Rpc) : Prop :=
  (∃ r, Event.sent rpc r ∈ tr) ∨ ∃ w ∈ c.waiters, w.body = .rpc rpc

theorem Said.of_act (h : Act ctx c evs c') (hsaid : Said (tr ++ evs) c' rpc) :
    Said tr c rpc ∨ MsgOk ctx c rpc ∧ c'.term = c.term ∧ c'.vote = c.vote := by
  cases h with
  | sendNow | mark | drop =>
    simp only [Said] at hsaid ⊢
    grind [Marks, mem_of_head?, mem_of_mem_tail]
  | _ =>
    simp only [Said, Core.setTerm, Core.push, Core.withServers, Core.install, Core.store]
      at hsaid ⊢
    grind

/-- The server has become leader in the term. -/
def Won (tr : List Event) (term : Nat) : Prop := ∃ r, .becomeLeader r ∈ tr ∧ r.term = term

/-- The server has told of a vote, in a reply or by becoming leader. -/
def Claims (tr : List Event) (c : Core) (term : Nat) (vote : Uuid) : Prop :=
  (∃ rpc, Said tr c rpc ∧ rpc.body = .voteReply ⟨term, vote⟩) ∨ vote = c.sid ∧ Won tr term

/-- The event is not the start of an election in the last term. -/
def Event.fits : Event → Bool
  | .campaign r => r.term + 1 < 2 ^ 64
  | _ => true

theorem sid_of_act (h : Act ctx c evs c') : c'.sid = c.sid := by cases h <;> rfl

/-- Terms do not go down, and a vote in a term stays. -/
theorem vote_of_act (h : Act ctx c evs c') (hfits : ∀ ev ∈ evs, ev.fits = true) :
    c.term ≤ c'.term ∧ (c'.term = c.term → c.vote ≠ 0 → c'.vote = c.vote) ∧
    (c'.role = .candidate → c'.vote = c.sid ∨ c.role = .candidate ∧ c'.term = c.term) := by
  cases h with
  | observe _ hterm =>
    exact ⟨Nat.le_of_lt hterm, fun h => absurd h (Nat.ne_of_gt hterm), nofun⟩
  | stepDown | lead => exact ⟨Nat.le_refl _, fun _ _ => rfl, nofun⟩
  | campaign r hev =>
    have hsame : r.term = c.term := congrArg Core.term hev
    have hlt : c.term + 1 < 2 ^ 64 := by simpa [Event.fits, hsame] using hfits _ mem_cons_self
    have hnext : u64 (c.term + 1) = c.term + 1 := Nat.mod_eq_of_lt hlt
    rw [hnext]
    exact ⟨Nat.le_succ _, fun h => absurd h (Nat.succ_ne_self _), fun _ => .inl rfl⟩
  | vote _ _ _ hev =>
    exact ⟨Nat.le_refl _, fun _ hne => absurd hev.2.2.1 hne, fun hrole => .inr ⟨hrole, rfl⟩⟩
  | _ => exact ⟨Nat.le_refl _, fun _ _ => rfl, fun hrole => .inr ⟨hrole, rfl⟩⟩

theorem lead_of_act (h : Act ctx c evs c') (hev : .becomeLeader r ∈ evs) :
    Marks ctx c (.becomeLeader r) ∧ c'.term = c.term ∧ c'.vote = c.vote := by
  cases h with
  | lead | mark =>
    cases mem_singleton.mp hev
    exact ⟨‹_›, rfl, rfl⟩
  | _ => simp at hev

variable {sid : Uuid} {term : Nat} {vote : Uuid} {s : Raft}

theorem Won.mono (h : Won evs term) (hsub : evs ⊆ tr) : Won tr term := by
  obtain ⟨r, hr, hterm⟩ := h
  exact ⟨r, hsub hr, hterm⟩

theorem leader_of_act (h : Act ctx c evs c') (hrole : c'.role = .leader) :
    Won evs c'.term ∨ c.role = .leader ∧ c'.term = c.term := by
  cases h with
  | observe | stepDown | campaign => cases hrole
  | lead r hev => exact .inl ⟨r, mem_cons_self, congrArg Core.term hev.1⟩
  | _ => exact .inr ⟨hrole, rfl⟩

theorem Claims.of_act (hrole : c.role = .candidate → c.vote = c.sid) (hsid : c.sid ≠ 0)
    (h : Act ctx c evs c') (hclaims : Claims (tr ++ evs) c' term vote) : Claims tr c term vote ∨
      term = c.term ∧ vote = c.vote ∧ c.vote ≠ 0 ∧ c'.term = c.term ∧ c'.vote = c.vote := by
  have hself := sid_of_act h
  rcases hclaims with ⟨rpc, hsaid, hbody⟩ | ⟨hvote, r, hlead, rfl⟩
  · rcases Said.of_act h hsaid with hsaid | ⟨hok, hsame⟩
    · exact .inl (.inl ⟨rpc, hsaid, hbody⟩)
    · rw [MsgOk, hbody] at hok
      exact .inr ⟨hok.1, hok.2.1, hok.2.2, hsame⟩
  · rcases mem_append.mp hlead with hlead | hlead
    · exact .inl (.inr ⟨hself ▸ hvote, r, hlead, rfl⟩)
    · obtain ⟨⟨hr, hcandidate, -⟩, hsame⟩ := lead_of_act h hlead
      have hown := hrole hcandidate
      exact .inr ⟨congrArg Core.term hr, by rw [hvote, hself, hown], hown ▸ hsid, hsame⟩

/-- `votes` has the server that `sid` votes for in each term. -/
structure VotesFor (sid : Uuid) (votes : Nat → Uuid) (tr : List Event) (c : Core) : Prop where
  self : c.sid = sid
  candidate : c.role = .candidate → c.vote = sid
  current : c.vote ≠ 0 → votes c.term = c.vote
  claims : ∀ term vote, Claims tr c term vote →
    vote = votes term ∧ term ≤ c.term ∧ (term = c.term → c.vote ≠ 0)

variable {votes : Nat → Uuid}

theorem VotesFor.sent {rpy : VoteReply} (h : VotesFor sid votes tr c) (hsent : .sent rpc r ∈ tr)
    (hbody : rpc.body = .voteReply rpy) : rpy.vote = votes rpy.term :=
  (h.claims _ _ (.inl ⟨rpc, .inl ⟨r, hsent⟩, hbody⟩)).1

theorem VotesFor.won (h : VotesFor sid votes tr c) (hwon : Won tr term) : sid = votes term :=
  (h.claims _ _ (.inr ⟨h.self.symm, hwon⟩)).1

theorem VotesFor.act (hsid : sid ≠ 0) (h : VotesFor sid votes tr c)
    (hact : Act ctx c evs c') (hfits : ∀ ev ∈ evs, ev.fits = true) :
    VotesFor sid (fun t => if t = c'.term then c'.vote else votes t) (tr ++ evs) c' := by
  obtain ⟨rfl, hrole, hcurrent, hclaims⟩ := h
  obtain ⟨hterm, hkept, hcandidate⟩ := vote_of_act hact hfits
  refine ⟨sid_of_act hact, by grind, fun _ => if_pos rfl, fun term vote hclaim => ?_⟩
  rcases hclaim.of_act hrole hsid hact with hclaim | hnew
  · have hold := hclaims term vote hclaim
    grind
  · grind

/-- The server with this ID before its first input. -/
structure Raft.Fresh (r : Raft) (sid : Uuid) : Prop where
  self : r.sid = sid
  nonzero : sid ≠ 0
  logStart : 1 ≤ r.logStart
  role : r.role = .follower
  waiters : r.waiters = []

theorem Run.votesFor (h : Run rule r tr r') (hfits : ∀ ev, rule.event ev → ev.fits = true)
    (hr : r.Fresh sid) :
    ∃ votes c, VotesFor sid votes tr c ∧ c.term = r'.term ∧ c.vote = r'.vote := by
  obtain ⟨g, ⟨votes, hvotes⟩, -⟩ := h.invariant (P := fun tr c => ∃ votes, VotesFor sid votes tr c)
    (fun _ ⟨_, h⟩ hact hevents => ⟨_, h.act hr.nonzero hact fun ev hev => hfits ev (hevents ev hev)⟩)
    hr.logStart
    ⟨fun _ => r.vote, hr.self, fun h => absurd (hr.role.symm.trans h) nofun, fun _ => rfl,
      by simp [Claims, Won, Said, Raft.core, hr.waiters]⟩
  exact ⟨votes, r'.core g, hvotes, rfl, rfl⟩

/-- A server sends append requests only for the terms in which it has become leader. -/
theorem Run.won {rq : AppendRequest} (h : Run rule r tr r') (hr : r.Fresh sid)
    (hsent : .sent rpc s ∈ tr) (hbody : rpc.body = .appendRequest rq) : Won tr rq.term := by
  have hinv := h.invariant (P := fun tr c => (c.role = .leader → Won tr c.term) ∧
      ∀ rpc rq, Said tr c rpc → rpc.body = .appendRequest rq → Won tr rq.term) ?_ hr.logStart
    ⟨fun h => absurd (hr.role.symm.trans h) nofun, by simp [Said, Raft.core, hr.waiters]⟩
  · obtain ⟨g, ⟨-, hsaid⟩, -⟩ := hinv
    exact hsaid rpc rq (.inl ⟨s, hsent⟩) hbody
  · rintro tr ctx c evs c' - ⟨hrole, hsaid⟩ hact -
    refine ⟨fun hleader => ?_, fun rpc rq hnow hbody => ?_⟩
    · rcases leader_of_act hact hleader with hwon | ⟨hleader, hterm⟩
      · exact hwon.mono (subset_append_right _ _)
      · exact hterm ▸ (hrole hleader).mono (subset_append_left _ _)
    · rcases Said.of_act hact hnow with hnow | ⟨hok, -⟩
      · exact (hsaid rpc rq hnow hbody).mono (subset_append_left _ _)
      · rw [MsgOk, hbody] at hok
        exact hok.2.1 ▸ (hrole hok.1).mono (subset_append_left _ _)

/-- No election starts in the last term. -/
def termsGrow : Rule where
  event := fun ev => ev.fits = true

/-- A server does not vote twice in one term: there is one server for each term that it names in
    its replies, that it has recorded, and that it is itself if it becomes leader. -/
theorem votes_agree (h : Run termsGrow r tr r') (hr : r.Fresh sid) : ∃ votes : Nat → Uuid,
    (r'.vote ≠ 0 → votes r'.term = r'.vote) ∧
    (∀ rpc s rpy, .sent rpc s ∈ tr → rpc.body = .voteReply rpy → rpy.vote = votes rpy.term) ∧
    ∀ term, Won tr term → sid = votes term := by
  obtain ⟨votes, c, hvotes, hterm, hvote⟩ := h.votesFor (fun _ => id) hr
  rw [← hterm, ← hvote]
  exact ⟨votes, hvotes.current, fun _ _ _ hsent hbody => hvotes.sent hsent hbody,
    fun _ hwon => hvotes.won hwon⟩

/-- The server starts an election, and in the next term server 2 asks for its vote and gets it. -/
theorem votes_agree_pair : ∃ tr r', ∃ votes : Nat → Uuid, Run termsGrow pairRaft tr r' ∧
    votes r'.term = 2 ∧ ∀ rpc s rpy, .sent rpc s ∈ tr → rpc.body = .voteReply rpy →
      rpy.vote = votes rpy.term := by
  have h : ∃ tr r', Run termsGrow pairRaft tr r' ∧ r'.vote = 2 := ⟨_, _, .input {}
    (.rpc ⟨2, none, .voteRequest ⟨3, 9, 9, true⟩⟩) (.input { now := 1000 } .electionTimer .nil rfl
      trivial (all_eq_true.mp rfl)) rfl trivial (all_eq_true.mp rfl), rfl⟩
  obtain ⟨tr, r', h, hvote⟩ := h
  obtain ⟨votes, hcurrent, hreply, -⟩ := votes_agree h ⟨rfl, by decide, by decide, rfl, rfl⟩
  exact ⟨tr, r', votes, h, (hcurrent (by simp [hvote])).trans hvote, hreply⟩

end Ovsgw.Cluster
