/-
  **Elections.**

  The servers of a cluster run side by side.  Messages may be lost, late, repeated and out of order:
  all that is known of a vote reply that arrives is that its sender has sent it.  While the set of
  servers stays the same, a leader has the votes of a majority, and two majorities meet.
-/
import Mathlib.Data.List.Perm.Subperm
import Ovsgw.Raft.Configuration
import Ovsgw.Raft.Promises

namespace Ovsgw.Cluster

open List

/-! ## 1. A fixed set of servers -/

/-- The set of servers is `members`. -/
def SameSet (members : List Uuid) (servers : Option Servers) : Prop :=
  ∀ sid, sid ∈ idsOf servers ↔ sid ∈ members

/-- The log, the snapshot and `servers` are about no other set of servers than `members`. -/
structure Fixed (members : List Uuid) (entries : List Entry) (snap : Entry) (servers : List Peer) :
    Prop where
  entries : ∀ e ∈ entries, e.servers ≠ none → SameSet members e.servers
  snap : SameSet members snap.servers
  servers : (sids servers).Perm members

/-- The RPC carries no other set of servers than `members`. -/
def Rpc.Keeps (members : List Uuid) (rpc : Rpc) : Prop :=
  match rpc.body with
  | .appendRequest rq => ∀ e ∈ rq.entries, e.servers ≠ none → SameSet members e.servers
  | .installSnapshotRequest rq => SameSet members (some rq.lastServers)
  | _ => True

def Event.keeps : Event → Bool
  | .reconfigure _ => false
  | ev => ev.fits

/-- No server is added or removed, no election starts in the last term, and the vote replies that
    arrive are among those of `heard`. -/
def fixedRule (members : List Uuid) (heard : Uuid → VoteReply → Prop) : Rule where
  input := fun inp _ => ∀ rpc, inp = some (.rpc rpc) →
    rpc.Keeps members ∧ ∀ rpy, rpc.body = .voteReply rpy → heard rpc.sid rpy
  event := fun ev => ev.keeps = true

variable {members granted : List Uuid} {heard : Uuid → VoteReply → Prop} {servers : List Peer}
  {sid a b : Uuid} {term nVotes : Nat} {r r' : Raft} {tr evs : List Event} {ctx : Ctx}
  {c c' : Core} {new : Servers}

theorem setPeers_same (h : ∀ sid, sid ∈ new.map (·.1) ↔ sid ∈ sids servers) :
    setPeers servers new = servers := by
  have hfilter : servers.filter (fun p => new.any fun n => n.1 == p.sid) = servers := by
    refine filter_eq_self.mpr fun p hp => ?_
    simpa using (h p.sid).mpr (mem_map_of_mem hp)
  have hfold : ∀ rest : Servers, rest ⊆ new → rest.foldl (fun ps n =>
      if (ps.find? fun p => p.sid == n.1).isSome then ps
      else ps ++ [{ sid := n.1, address := n.2 }]) servers = servers := by
    intro rest hrest
    induction rest with
    | nil => rfl
    | cons n rest ih =>
      have hmem := (h n.1).mp (mem_map_of_mem (hrest mem_cons_self))
      rw [foldl_cons, if_pos, ih fun _ hm => hrest (mem_cons_of_mem _ hm)]
      simpa [sids] using hmem
  rw [setPeers, hfilter]
  exact hfold new fun _ => id

theorem sameSet_latestServers {entries : List Entry} {old : Option Servers}
    (hentries : ∀ e ∈ entries, e.servers ≠ none → SameSet members e.servers)
    (hold : SameSet members old) : SameSet members (latestServers old entries) := by
  induction entries generalizing old with
  | nil => exact hold
  | cons e es ih =>
    obtain ⟨he, hes⟩ := forall_mem_cons.mp hentries
    refine ih hes ?_
    show SameSet members (e.servers.or old)
    cases hservers : e.servers with
    | none => exact hold
    | some new =>
      have hnew := he (by simp [hservers])
      rw [hservers] at hnew
      exact hnew

theorem Fixed.setPeers_eq (h : Fixed members c.entries c.snap c.servers)
    (hlog : c.logServers = some new) : setPeers c.servers new = c.servers := by
  refine setPeers_same fun sid => ?_
  have hsame := sameSet_latestServers h.entries h.snap sid
  rw [show latestServers c.snap.servers c.entries = some new from hlog] at hsame
  exact hsame.trans h.servers.mem_iff.symm

theorem fits_of_keeps {ev : Event} (h : ev.keeps = true) : ev.fits = true := by
  cases ev <;> first | exact h | rfl

/-! ## 2. Counting votes -/

/-- The votes that a candidate has counted are those of the servers in `granted`. -/
structure Counted (heard : Uuid → VoteReply → Prop) (sid : Uuid) (term nVotes : Nat)
    (servers : List Peer) (granted : List Uuid) : Prop where
  count : nVotes = granted.length
  nodup : granted.Nodup
  members : granted ⊆ sids servers
  recorded : ∀ p ∈ servers, p.sid ∈ granted → p.vote = sid
  voters : ∀ v ∈ granted, v = sid ∨ heard v ⟨term, sid⟩

theorem Counted.update {f : Peer → Peer} {src : Uuid}
    (h : Counted heard sid term nVotes servers granted) (hf : ∀ p, (f p).sid = p.sid)
    (hvote : ∀ p ∈ servers, p.sid = src → p.sid ∈ granted → (f p).vote = sid) :
    Counted heard sid term nVotes (updatePeer servers src f) granted := by
  refine ⟨h.count, h.nodup, ?_, fun p hmem => ?_, h.voters⟩
  · rw [sids_updatePeer hf]
    exact h.members
  · obtain ⟨q, hq, rfl⟩ := mem_map.mp hmem
    have hrecorded := h.recorded q hq
    grind

theorem Counted.grant {p : Peer} (h : Counted heard sid term nVotes servers granted)
    (hp : p ∈ servers) (hnew : p.vote ≠ sid) (hvoter : p.sid = sid ∨ heard p.sid ⟨term, sid⟩) :
    Counted heard sid term (nVotes + 1) (updatePeer servers p.sid ({ · with vote := sid }))
      (granted ++ [p.sid]) := by
  have hnot : p.sid ∉ granted := fun hmem => hnew (h.recorded p hp hmem)
  refine ⟨by simp [h.count], nodup_append.mpr ⟨h.nodup, by simp, by grind⟩, ?_, fun q hmem => ?_,
    forall_mem_append.mpr ⟨h.voters, forall_mem_singleton.mpr hvoter⟩⟩
  · rw [sids_updatePeer (by intro p; rfl)]
    exact append_subset.mpr ⟨h.members, cons_subset.mpr ⟨mem_map_of_mem hp, nil_subset _⟩⟩
  · obtain ⟨q, hq, rfl⟩ := mem_map.mp hmem
    have hrecorded := h.recorded q hq
    grind

def Core.Counts (c : Core) (heard : Uuid → VoteReply → Prop) : Prop :=
  c.role = .candidate → Counted heard c.sid c.term c.nVotes c.servers c.ghost.granted

/-! ## 3. What acts keep -/

section
variable (hinput : (fixedRule members heard).input ctx.input ctx.env)
include hinput

theorem hears_of_input {rpc : Rpc} (hmsg : ctx.msg = some rpc) :
    rpc.Keeps members ∧ ∀ rpy, rpc.body = .voteReply rpy → heard rpc.sid rpy := by
  refine hinput rpc ?_
  unfold Ctx.msg at hmsg
  grind

variable (hevents : ∀ ev ∈ evs, (fixedRule members heard).event ev)
  (hfixed : Fixed members c.entries c.snap c.servers)
include hevents hfixed

/-- No act changes the set of servers. -/
theorem Fixed.act (hact : Act ctx c evs c') : Fixed members c'.entries c'.snap c'.servers := by
  obtain ⟨hentries, hsnap, hservers⟩ := id hfixed
  have hupdate {f : Peer → Peer} (hf : ∀ p, (f p).sid = p.sid) (sid : Uuid) :
      Fixed members c.entries c.snap (updatePeer c.servers sid f) :=
    ⟨hentries, hsnap, by rwa [sids_updatePeer hf]⟩
  have hpush {e : Entry} (he : e.servers ≠ none → SameSet members e.servers) :
      Fixed members (c.entries ++ [e]) c.snap c.servers :=
    ⟨forall_mem_append.mpr ⟨hentries, forall_mem_singleton.mpr he⟩, hsnap, hservers⟩
  cases hact with
  | clearVote sid | settle sid | retire sid | matchPeer sid => exact hupdate (by intro p; rfl) sid
  | countVote p => exact hupdate (by intro p; rfl) p.sid
  | matchSelf => exact hupdate (by intro p; rfl) c.sid
  | lead => exact ⟨hentries, hsnap, by simpa [sids, Peer.initLeader, Function.comp_def]⟩
  | append _ _ _ _ hnone => exact hpush fun h => absurd hnone h
  | adopt _ e _ _ hrq hmem =>
    obtain ⟨⟨src, comment, hmsg⟩, -⟩ := hrq
    exact hpush ((hears_of_input hinput hmsg).1 e hmem)
  | reconfigure | reconfigureRefused => cases hevents _ mem_cons_self
  | caughtUp sid _ _ _ hset =>
    rcases hset with ⟨rfl, _⟩ | ⟨rfl, _⟩
    · exact hupdate (by intro p; rfl) sid
    · exact hfixed
  | rehash _ _ hperm => exact ⟨hentries, hsnap, (hperm.map _).trans hservers⟩
  | truncate => exact ⟨fun e he => hentries e (mem_of_mem_take he), hsnap, hservers⟩
  | setServers new hlog =>
    show Fixed members c.entries c.snap (setPeers c.servers new)
    rwa [hfixed.setPeers_eq hlog]
  | install _ _ _ hev =>
    obtain ⟨-, ⟨src, comment, hmsg⟩, -⟩ := hev
    exact ⟨forall_mem_nil _, (hears_of_input hinput hmsg).1, hservers⟩
  | store =>
    refine ⟨fun e he => hentries e (mem_of_mem_drop he), ?_, hservers⟩
    exact sameSet_latestServers (fun e he => hentries e (mem_of_mem_take he)) hsnap
  | _ => exact hfixed

/-- The votes that are counted are votes that were heard. -/
theorem Core.Counts.act
    (honce : ∀ v ∈ members, ∀ term a b, heard v ⟨term, a⟩ → heard v ⟨term, b⟩ → a = b)
    (h : c.Counts heard) (hact : Act ctx c evs c') : c'.Counts heard := by
  intro hrole
  cases hact with
  | observe | stepDown | lead => cases hrole
  | campaign =>
    exact ⟨rfl, nodup_nil, nil_subset _, fun _ _ h => absurd h not_mem_nil, forall_mem_nil _⟩
  | clearVote _ hgranted => exact (h hrole).update (by intro p; rfl) (by grind)
  | countVote p vote _ hp hnew hfrom =>
    have hc := h hrole
    have hmem := mem_of_find?_eq_some hp
    have hvoter : vote = c.sid ∧ p.sid = c.sid ∨ p.sid ≠ c.sid ∧ heard p.sid ⟨c.term, vote⟩ := by
      refine hfrom.imp And.symm fun ⟨hne, comment, rpy, hmsg, hvote, hterm⟩ => ⟨hne, ?_⟩
      rw [← hvote, ← hterm]
      exact (hears_of_input hinput hmsg).2 rpy rfl
    by_cases hvote : vote = c.sid
    · simp only [if_pos hvote]
      subst hvote
      exact hc.grant hmem hnew (hvoter.imp And.right And.right)
    · simp only [if_neg hvote]
      refine hc.update (by intro p; rfl) fun q _ hsid hgranted => ?_
      -- A server that has granted its vote does not tell of another one.
      have honce := honce p.sid (hfixed.servers.mem_iff.mp (mem_map_of_mem hmem)) c.term c.sid vote
      have hvoted := hc.voters q.sid hgranted
      grind
  | retire | settle =>
    exact (h hrole).update (by intro p; rfl) fun p hp _ => (h hrole).recorded p hp
  | matchSelf _ hleader | matchPeer _ _ _ hleader => exact absurd (hrole.symm.trans hleader) nofun
  | reconfigure | reconfigureRefused => cases hevents _ mem_cons_self
  | caughtUp _ _ _ _ hset =>
    rcases hset with ⟨rfl, _⟩ | ⟨rfl, _⟩
    · exact (h hrole).update (by intro p; rfl) fun p hp _ => (h hrole).recorded p hp
    · exact h hrole
  | rehash _ _ hperm =>
    have hc := h hrole
    exact ⟨hc.count, hc.nodup, fun _ hv => (hperm.map _).mem_iff.mpr (hc.members hv),
      fun p hp => hc.recorded p (hperm.mem_iff.mp hp), hc.voters⟩
  | setServers new hlog =>
    show Counted heard c.sid c.term c.nVotes (setPeers c.servers new) c.ghost.granted
    rw [hfixed.setPeers_eq hlog]
    exact h hrole
  | _ => exact h hrole

end

/-! ## 4. One leader for each term -/

/-- A majority of `members` has voted for `sid` in the term. -/
def Elected (heard : Uuid → VoteReply → Prop) (members : List Uuid) (sid : Uuid) (term : Nat) :
    Prop :=
  ∃ granted : List Uuid, granted.Nodup ∧ granted ⊆ members ∧ members.length / 2 < granted.length ∧
    ∀ v ∈ granted, v = sid ∨ heard v ⟨term, sid⟩

theorem elected_of_lead (hfixed : Fixed members c.entries c.snap c.servers) (h : c.Counts heard)
    (hev : Marks ctx c (.becomeLeader r)) : Elected heard members c.sid r.term := by
  obtain ⟨hr, hrole, hmajority⟩ := hev
  have hc := h hrole
  have hlength := hfixed.servers.length_eq
  have hterm : r.term = c.term := congrArg Core.term hr
  rw [sids, length_map] at hlength
  rw [hc.count, hlength] at hmajority
  rw [hterm]
  exact ⟨_, hc.nodup, fun v hv => hfixed.servers.mem_iff.mp (hc.members hv), hmajority, hc.voters⟩

/-- A leader has heard the votes of a majority in its term. -/
theorem Run.elected (h : Run (fixedRule members heard) r tr r') (hr : r.Fresh sid)
    (hfixed : Fixed members r.entries r.snap (r.servers.map Server.peer))
    (honce : ∀ v ∈ members, ∀ term a b, heard v ⟨term, a⟩ → heard v ⟨term, b⟩ → a = b)
    (hwon : Won tr term) : Elected heard members sid term := by
  have hstart : (r.core {}).Counts heard := fun h => absurd (hr.role.symm.trans h) nofun
  have hinv := h.invariant (P := fun tr c => c.sid = sid ∧
      Fixed members c.entries c.snap c.servers ∧ c.Counts heard ∧
      ∀ term, Won tr term → Elected heard members sid term) ?_ hr.logStart
    ⟨hr.self, hfixed, hstart, fun _ ⟨_, h, _⟩ => absurd h not_mem_nil⟩
  · obtain ⟨g, ⟨-, -, -, hwins⟩, -⟩ := hinv
    exact hwins term hwon
  · rintro tr ctx c evs c' hinput ⟨hsid, hfixed, hcounts, hwins⟩ hact hevents
    refine ⟨(sid_of_act hact).trans hsid, .act hinput hevents hfixed hact,
      hcounts.act hinput hevents hfixed honce hact, ?_⟩
    rintro _ ⟨s, hs, rfl⟩
    rcases mem_append.mp hs with hs | hs
    · exact hwins _ ⟨s, hs, rfl⟩
    · exact hsid ▸ elected_of_lead hfixed hcounts (lead_of_act hact hs).1

/-- Two majorities have a voter in common. -/
theorem Elected.meet (ha : Elected heard members a term) (hb : Elected heard members b term) :
    ∃ v ∈ members, (v = a ∨ heard v ⟨term, a⟩) ∧ (v = b ∨ heard v ⟨term, b⟩) := by
  obtain ⟨ga, hnda, hsuba, hmaja, hvotersa⟩ := ha
  obtain ⟨gb, hndb, hsubb, hmajb, hvotersb⟩ := hb
  by_cases h : ∃ v ∈ ga, v ∈ gb
  · obtain ⟨v, hva, hvb⟩ := h
    exact ⟨v, hsuba hva, hvotersa v hva, hvotersb v hvb⟩
  · have hnodup : (ga ++ gb).Nodup := nodup_append.mpr ⟨hnda, hndb, by grind⟩
    have hle := (hnodup.subperm (append_subset.mpr ⟨hsuba, hsubb⟩)).length_le
    rw [length_append] at hle
    omega

/-- The vote replies that servers with these events have sent. -/
def SentIn (trace : Uuid → List Event) (v : Uuid) (rpy : VoteReply) : Prop :=
  ∃ rpc r, rpc.body = .voteReply rpy ∧ .sent rpc r ∈ trace v

/-- The servers of a cluster side by side, with what they have sent. -/
structure Execution (members : List Uuid) where
  start : Uuid → Raft
  trace : Uuid → List Event
  fresh : ∀ n ∈ members, (start n).Fresh n
  fixed : ∀ n ∈ members,
    Fixed members (start n).entries (start n).snap ((start n).servers.map Server.peer)
  run : ∀ n ∈ members, ∃ r, Run (fixedRule members (SentIn trace)) (start n) (trace n) r

theorem Execution.votesFor (x : Execution members) (ha : a ∈ members) :
    ∃ votes c, VotesFor a votes (x.trace a) c := by
  obtain ⟨r, h⟩ := x.run a ha
  obtain ⟨votes, c, h, -⟩ := h.votesFor (fun _ => fits_of_keeps) (x.fresh a ha)
  exact ⟨votes, c, h⟩

theorem Execution.elected (x : Execution members) (ha : a ∈ members) (hwon : Won (x.trace a) term) :
    Elected (SentIn x.trace) members a term := by
  obtain ⟨r, h⟩ := x.run a ha
  refine h.elected (x.fresh a ha) (x.fixed a ha) ?_ hwon
  rintro v hv term _ _ ⟨rpc, r, hbody, hsent⟩ ⟨rpc', r', hbody', hsent'⟩
  obtain ⟨votes, c, h⟩ := x.votesFor hv
  exact (h.sent hsent hbody).trans (h.sent hsent' hbody').symm

/-- The server acts as leader of the term: it becomes leader, or it sends an append request. -/
def Leads (tr : List Event) (term : Nat) : Prop :=
  Won tr term ∨ ∃ rpc r rq, .sent rpc r ∈ tr ∧ rpc.body = .appendRequest rq ∧ rq.term = term

theorem Execution.won (x : Execution members) (ha : a ∈ members) (h : Leads (x.trace a) term) :
    Won (x.trace a) term := by
  obtain ⟨r, hrun⟩ := x.run a ha
  rcases h with h | ⟨rpc, s, rq, hsent, hbody, rfl⟩
  · exact h
  · exact hrun.won (x.fresh a ha) hsent hbody

/-- No two servers act as leader of the same term. -/
theorem one_leader_per_term (x : Execution members) (ha : a ∈ members) (hb : b ∈ members)
    (hla : Leads (x.trace a) term) (hlb : Leads (x.trace b) term) : a = b := by
  have hwa := x.won ha hla
  have hwb := x.won hb hlb
  obtain ⟨v, hv, hva, hvb⟩ := (x.elected ha hwa).meet (x.elected hb hwb)
  obtain ⟨votes, c, h⟩ := x.votesFor hv
  have hvoted {n : Uuid} (hwon : Won (x.trace n) term)
      (hn : v = n ∨ SentIn x.trace v ⟨term, n⟩) : n = votes term := by
    rcases hn with rfl | ⟨rpc, r, hbody, hsent⟩
    · exact h.won hwon
    · exact h.sent hsent hbody
  rw [hvoted hwa hva, ← hvoted hwb hvb]

/-- The other server of the cluster of `pairRaft`. -/
def otherRaft : Raft :=
  (raftStart {} (Raft.ofHeader { pairHeader with sid := 2, localAddress := "unix:s2" })).state

theorem otherRun : ∃ tr r, (∀ heard, Run (fixedRule [1, 2] heard) otherRaft tr r) ∧
    SentIn (fun _ => tr) 2 ⟨1, 1⟩ := by
  refine ⟨_, _, fun heard => .input {} .waiters (.input {} (.synced 2) (.input {}
    (.rpc ⟨1, none, .voteRequest ⟨1, 1, 1, true⟩⟩) (.input {} (.connected 1) .nil rfl nofun
      (all_eq_true.mp rfl)) rfl ?_ (all_eq_true.mp rfl)) rfl nofun (all_eq_true.mp rfl)) rfl nofun
    (all_eq_true.mp rfl), ⟨1, none, .voteReply ⟨1, 1⟩⟩, _, rfl, mem_of_getLast? rfl⟩
  rintro _ ⟨⟩
  exact ⟨trivial, nofun⟩

theorem pairRun : ∃ tr r, Won tr 1 ∧
    ∀ heard, heard 2 ⟨1, 1⟩ → Run (fixedRule [1, 2] heard) pairRaft tr r := by
  refine ⟨_, _, ⟨_, mem_append_right _ (mem_of_head? rfl), rfl⟩, fun _ h => .input {}
    (.rpc ⟨2, none, .voteReply ⟨1, 1⟩⟩)
    (.input { now := 1000 } .electionTimer .nil rfl nofun (all_eq_true.mp rfl)) rfl ?_
    (all_eq_true.mp rfl)⟩
  rintro _ ⟨⟩
  refine ⟨trivial, ?_⟩
  rintro _ ⟨⟩
  exact h

theorem one_leader_per_term_pair :
    ∃ x : Execution [1, 2], Leads (x.trace 1) 1 ∧ ¬ Leads (x.trace 2) 1 := by
  obtain ⟨tr2, r2, hrun2, hsent⟩ := otherRun
  obtain ⟨tr1, r1, hwon, hrun1⟩ := pairRun
  have hboth {P : Uuid → Prop} (h1 : P 1) (h2 : P 2) : ∀ n ∈ [1, 2], P n :=
    forall_mem_cons.mpr ⟨h1, forall_mem_singleton.mpr h2⟩
  let x : Execution [1, 2] :=
    { start := fun n => if n = 1 then pairRaft else otherRaft
      trace := fun n => if n = 1 then tr1 else tr2
      fresh := hboth ⟨rfl, by decide, by decide, rfl, rfl⟩ ⟨rfl, by decide, by decide, rfl, rfl⟩
      fixed := hboth ⟨forall_mem_nil _, fun _ => .rfl, .rfl⟩ ⟨forall_mem_nil _, fun _ => .rfl, .rfl⟩
      run := hboth ⟨r1, hrun1 _ hsent⟩ ⟨r2, hrun2 _⟩ }
  refine ⟨x, .inl hwon, fun hother => ?_⟩
  have heq : (1 : Uuid) = 2 := one_leader_per_term x (by decide) (by decide) (.inl hwon) hother
  exact absurd heq (by decide)

end Ovsgw.Cluster
