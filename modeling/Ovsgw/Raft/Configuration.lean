/-
  **The active configuration and the one in the log.**

  A leader changes `servers` first and logs the new set after it; a follower reads `servers` from
  the log after the log has changed.  The two sets agree in between inputs, except after a leader
  has changed its set and `raft_command_execute__` has then refused the entry, or after a follower
  has failed to write an entry that carries a set.
-/
import Ovsgw.Raft.Runs

namespace Ovsgw.Cluster

open List

/-! ## 1. The configuration in the log -/

def idsOf (servers : Option Servers) : List Uuid := (servers.getD []).map (·.1)

theorem latestServers_append (servers : Option Servers) (es es' : List Entry) :
    latestServers servers (es ++ es') = latestServers (latestServers servers es) es' := by
  simp [latestServers, foldl_append]

variable {es : List Entry}

theorem latestServers_of_none (h : ∀ e ∈ es, e.servers = none)
    (servers : Option Servers) : latestServers servers es = servers := by
  induction es generalizing servers with
  | nil => rfl
  | cons e es ih =>
    have he := h e mem_cons_self
    simp only [latestServers, foldl_cons, he, Option.none_or]
    exact ih (fun e' hmem => h e' (mem_cons_of_mem _ hmem)) servers

theorem latestServers_cut {k : Nat}
    (h : (es.drop k).any (fun e => e.servers.isSome) = false) (servers : Option Servers) :
    latestServers servers (es.take k) = latestServers servers es := by
  have hnone : ∀ e ∈ es.drop k, e.servers = none := by
    intro e hmem
    simpa using any_eq_false.mp h e hmem
  have hsplit := latestServers_append servers (es.take k) (es.drop k)
  rw [take_append_drop, latestServers_of_none hnone] at hsplit
  exact hsplit.symm

variable {sid : Uuid} {ps : List Peer}

theorem mem_peersToJson : sid ∈ (peersToJson ps).map (·.1) ↔ sid ∈ sids ps := by
  have hfold : ∀ acc : Servers,
      sid ∈ (ps.foldl (fun acc p => acc.filter (fun n => n.1 ≠ p.sid) ++ [(p.sid, p.address)])
        acc).map (·.1) ↔ sid ∈ acc.map (·.1) ∨ sid ∈ sids ps := by
    induction ps with
    | nil => simp [sids]
    | cons p ps ih =>
      intro acc
      rw [foldl_cons, ih]
      by_cases hp : sid = p.sid
      · simp [hp, sids]
      · have hkeep : sid ∈ (acc.filter (fun n => n.1 ≠ p.sid) ++ [(p.sid, p.address)]).map (·.1) ↔
            sid ∈ acc.map (·.1) := by
          simp only [map_append, mem_append, mem_map, mem_filter]
          constructor
          · rintro (⟨a, ⟨hmem, _⟩, ha⟩ | ⟨a, hmem, ha⟩)
            · exact ⟨a, hmem, ha⟩
            · simp only [mem_singleton] at hmem
              subst hmem
              exact absurd ha.symm hp
          · rintro ⟨a, hmem, rfl⟩
            exact .inl ⟨a, ⟨hmem, by simpa using hp⟩, rfl⟩
        rw [hkeep]
        simp [sids, hp]
  simpa [peersToJson] using hfold []

/-- The peers afterwards are those of the new configuration. -/
theorem mem_setPeers {old : List Peer} {new : Servers} :
    sid ∈ sids (setPeers old new) ↔ sid ∈ new.map (·.1) := by
  -- Going through some of the new servers makes sure that they are there.
  have hfold : ∀ (rest : Servers) (ps : List Peer),
      sid ∈ sids (rest.foldl (fun ps n => if (ps.find? (fun p => p.sid == n.1)).isSome then ps
        else ps ++ [{ sid := n.1, address := n.2 }]) ps) ↔
        sid ∈ sids ps ∨ sid ∈ rest.map (·.1) := by
    intro rest
    induction rest with
    | nil => simp
    | cons n rest ih =>
      intro ps
      rw [foldl_cons, ih, map_cons, mem_cons, ← or_assoc]
      refine or_congr_left ?_
      split
      · next hsome =>
        obtain ⟨p, hp⟩ := Option.isSome_iff_exists.mp hsome
        have hmem : n.1 ∈ sids ps := by
          have hsid : p.sid = n.1 := by simpa using find?_some hp
          exact hsid ▸ mem_map_of_mem (mem_of_find?_eq_some hp)
        constructor
        · exact .inl
        · rintro (h | rfl)
          · exact h
          · exact hmem
      · simp [sids]
  rw [setPeers, hfold]
  constructor
  · rintro (h | h)
    · simp only [sids, mem_map, mem_filter] at h
      obtain ⟨p, ⟨_, hany⟩, rfl⟩ := h
      obtain ⟨n, hmem, hn⟩ := any_eq_true.mp hany
      exact mem_map.mpr ⟨n, hmem, by simpa using hn⟩
    · exact h
  · exact .inr

theorem sids_updatePeer {f : Peer → Peer} (hf : ∀ p, (f p).sid = p.sid) :
    sids (updatePeer ps sid f) = sids ps := by
  simp only [sids, updatePeer, map_map]
  refine map_congr_left fun p _ => ?_
  by_cases hp : p.sid = sid <;> simp [hp, hf]

/-! ## 2. The invariant -/

namespace Core

/-- Unless the log has changed and `servers` is yet to be read from it, the two
    name the same servers. -/
def ConfSync (c : Core) : Prop :=
  c.ghost.dirty = false → ∀ sid, sid ∈ sids c.servers ↔ sid ∈ idsOf c.logServers

variable {c : Core}

theorem ConfSync.of_sids {c' : Core} (h : c.ConfSync) (hdirty : c'.ghost.dirty = c.ghost.dirty)
    (hlog : c'.logServers = c.logServers)
    (hsids : ∀ sid, sid ∈ sids c'.servers ↔ sid ∈ sids c.servers) : c'.ConfSync := by
  intro hclean sid
  rw [hsids, hlog]
  exact h (hdirty ▸ hclean) sid

theorem ConfSync.update (h : c.ConfSync) {f : Peer → Peer}
    (hf : ∀ p, (f p).sid = p.sid) (sid : Uuid) :
    ({ c with servers := updatePeer c.servers sid f } : Core).ConfSync :=
  h.of_sids rfl rfl fun _ => by rw [sids_updatePeer hf]

variable {e : Entry}

/-- An entry without `servers` at the end of the log. -/
theorem logServers_push {ok : Bool} (he : e.servers = none) :
    (c.push e ok).logServers = c.logServers := by
  show latestServers c.snap.servers (c.entries ++ [e]) = _
  rw [latestServers_append, latestServers_of_none]
  · rfl
  · simpa using he

theorem logServers_store {data : Json} {electionTimer : Nat} {header : Header} :
    (c.store (c.appliedSnapshot e data electionTimer) header).logServers = c.logServers := by
  show latestServers (latestServers _ (c.entries.take _)) (c.entries.drop _) = _
  rw [← latestServers_append, take_append_drop]
  rfl

theorem confSync_reconfigure (c : Core) (servers addServers : List Peer) (ok : Bool) :
    ((c.withServers servers addServers).push (c.configEntry servers) ok).ConfSync := by
  intro _ sid
  have hlog : ((c.withServers servers addServers).push (c.configEntry servers) ok).logServers =
      some (peersToJson servers) := by
    show latestServers c.snap.servers (c.entries ++ [c.configEntry servers]) = _
    rw [latestServers_append]
    rfl
  rw [hlog]
  exact mem_peersToJson.symm

end Core

/-- A run in which no set of servers is changed or received without being logged: the leader
    that changes its set does not turn down the entry with the new one, and an append request
    that carries a set is written to the file. -/
def logsServers : Rule where
  input := fun input env => ∀ src comment rq,
    input = some (.rpc ⟨src, comment, .appendRequest rq⟩) →
      (∃ e ∈ rq.entries, e.servers.isSome) → env.Writes
  event := fun ev => ∀ r, ev = .reconfigure r → ¬ r.refuses

theorem keepsServers_logsServers : logsServers.KeepsServers := by
  rintro ctx hinput ⟨hfail, src, comment, rq, hmsg, hservers⟩
  refine hfail (hinput src comment rq ?_ hservers)
  cases hi : ctx.input with
  | none => simp [Ctx.msg, hi] at hmsg
  | some input => cases input <;> simp_all [Ctx.msg]

/-- Each act keeps the servers in step with the log. -/
theorem confSync_act {ctx : Ctx} {c c' : Core} {evs : List Event} (hc : c.ConfSync)
    (h : Act ctx c evs c') (hevents : ∀ ev ∈ evs, logsServers.event ev) : c'.ConfSync := by
  cases h with
  | clearVote sid => exact hc.update (by intro p; rfl) sid
  | countVote p vote =>
    refine hc.of_sids rfl rfl fun _ => ?_
    rw [sids_updatePeer (by intro p; rfl)]
  | lead =>
    refine hc.of_sids rfl rfl fun _ => ?_
    simp [sids, Peer.initLeader]
  | matchSelf index => exact hc.update (by intro p; rfl) c.sid
  | matchPeer src => exact hc.update (by intro p; rfl) src
  | append e ok _ _ hservers => exact hc.of_sids rfl (Core.logServers_push hservers) fun _ => Iff.rfl
  | reconfigure r r' servers addServers ok => exact c.confSync_reconfigure servers addServers ok
  | reconfigureRefused r servers addServers _ hrefuses =>
    exact absurd hrefuses (hevents _ mem_cons_self r rfl)
  | caughtUp sid _ servers addServers hset =>
    refine hc.of_sids rfl rfl fun _ => ?_
    rcases hset with ⟨rfl, _⟩ | ⟨rfl, _⟩
    · show _ ∈ sids (updatePeer _ _ _) ↔ _
      rw [sids_updatePeer (by intro p; rfl)]
    · exact Iff.rfl
  | retire sid => exact hc.update (by intro p; rfl) sid
  | settle sid => exact hc.update (by intro p; rfl) sid
  | rehash servers addServers hservers =>
    exact hc.of_sids rfl rfl fun sid => (hservers.map (·.sid)).mem_iff
  | truncate newEnd =>
    intro hclean
    simp only [Bool.or_eq_false_iff] at hclean
    intro sid
    rw [hc hclean.1 sid]
    show _ ↔ sid ∈ idsOf (latestServers c.snap.servers (c.entries.take _))
    rw [latestServers_cut hclean.2]
    rfl
  | adopt rq e ok =>
    intro hclean
    simp only [Bool.or_eq_false_iff, Option.isSome_eq_false_iff, Option.isNone_iff_eq_none] at hclean
    intro sid
    rw [show sid ∈ sids (c.push e ok).servers ↔ _ from hc hclean.1 sid]
    show _ ↔ sid ∈ idsOf (c.push e ok).logServers
    rw [Core.logServers_push hclean.2]
  | setServers servers hlog =>
    intro _ sid
    show sid ∈ sids (setPeers c.servers servers) ↔ sid ∈ idsOf c.logServers
    rw [mem_setPeers, hlog]
    rfl
  | install => exact fun hclean => absurd hclean (by simp [Core.install])
  | store => exact hc.of_sids rfl Core.logServers_store fun _ => Iff.rfl
  | _ => exact hc

theorem confSync_loaded {env : Env} {log : LogFile} {r : Raft} (h : Loaded env log r) :
    (r.core {}).ConfSync := by
  intro _ sid
  cases h with
  | joining hheader hjoining => simp [Raft.core, Raft.applyHeader, raftAlloc, hjoining, sids,
      Core.logServers, latestServers, idsOf]
  | @joined h hheader hjoining r tr hrecords servers hservers timer =>
    show sid ∈ sids ((setServers r.logEnd r.servers servers).map Server.peer) ↔
      sid ∈ idsOf (latestServers r.snap.servers r.entries)
    rw [map_peer_setServers, mem_setPeers, hservers]
    rfl

theorem confSync_invariant : Invariant logsServers Core.ConfSync (fun _ => True) where
  load := fun _ hload _ => confSync_loaded hload
  act := fun _ hc hact hevents => ⟨fun _ _ => trivial, confSync_act hc hact hevents⟩

/-! ## 3. The active configuration -/

/-- The server IDs in `servers` are those of the latest set in the log. -/
def Raft.ConfigurationLogged (r : Raft) : Prop :=
  ∀ sid, sid ∈ r.servers.map (·.sid) ↔ sid ∈ idsOf (latestServers r.snap.servers r.entries)

/-- In a run that logs every set of servers, the active set is always the logged one. -/
theorem configurationLogged_of_reachable {r : Raft} (hr : Reachable logsServers r) :
    r.ConfigurationLogged := by
  obtain ⟨g, hsync, _, hclean⟩ := confSync_invariant.reachable hr
  intro sid
  have h := hsync (hclean keepsServers_logsServers) sid
  simpa [Raft.core, sids, Core.logServers] using h

/-- Server 1 is elected, and server 3 asks to be added.  It has caught up at once, so the new set is
    logged. -/
def growingCluster : List (Env × Input) :=
  [({ now := 1000 }, .electionTimer),
   ({}, .rpc { sid := 2, body := .voteReply { term := 1, vote := 1 } }),
   ({}, .rpc { sid := 3, body := .addServerRequest "unix:s3" }),
   ({}, .rpc { sid := 3, body := .appendReply ⟨1, 3, 1, 1, 1, .ok⟩ })]

/-- Server 2 adds server 3.  The next leader replaces the entry for that by one without a set. -/
def replacedConfiguration : List (Env × Input) :=
  let larger := [(1, "unix:s1"), (2, "unix:s2"), (3, "unix:s3")]
  [({}, .rpc ⟨2, none, .appendRequest ⟨1, 1, 1, 1, [{ term := 1, servers := some larger }]⟩⟩),
   ({}, .rpc ⟨3, none, .appendRequest ⟨2, 1, 1, 1, [{ term := 2 }]⟩⟩)]

def Event.logged : Event → Bool
  | .reconfigure r => !(r.joining || r.leaving || r.left || r.failed)
  | _ => true

theorem reachable_logged {r : Raft} {inputs : List (Env × Input)}
    (hwrites : ∀ p ∈ inputs, p.1.Writes) (h : runInputs Event.logged pairRaft inputs = some r) :
    Reachable logsServers r := by
  refine reachable_runInputs ?_ (fun p hp _ _ _ _ _ => hwrites p hp)
    (reachable_pairRaft (by intro src comment rq h; cases h)) h
  rintro _ hlogged r rfl
  simpa [Event.logged, Raft.refuses, and_assoc] using hlogged

/-- A leader that has logged a new set, and a follower that has received one and cut it off. -/
theorem configurationLogged_changes :
    (∃ r, Reachable logsServers r ∧ r.role = .leader ∧ r.servers.map (·.sid) = [1, 2, 3] ∧
      r.ConfigurationLogged) ∧
    ∃ r, Reachable logsServers r ∧ r.term = 2 ∧ r.servers.map (·.sid) = [1, 2] ∧
      r.ConfigurationLogged := by
  have hleader : (runInputs Event.logged pairRaft growingCluster).any (fun r =>
      r.role == .leader && r.servers.map (·.sid) == [1, 2, 3]) = true := by decide +kernel
  have hfollower : (runInputs Event.logged pairRaft replacedConfiguration).any (fun r =>
      r.term == 2 && r.servers.map (·.sid) == [1, 2]) = true := by decide +kernel
  obtain ⟨r, hrun, hview⟩ := Option.any_eq_true _ _ |>.mp hleader
  obtain ⟨r', hrun', hview'⟩ := Option.any_eq_true _ _ |>.mp hfollower
  simp only [Bool.and_eq_true, beq_iff_eq] at hview hview'
  have hr : Reachable logsServers r := by
    refine reachable_logged (fun p hp => ?_) hrun
    simp only [growingCluster, mem_cons, not_mem_nil, or_false] at hp
    rcases hp with rfl | rfl | rfl | rfl <;> exact fun _ => rfl
  have hr' : Reachable logsServers r' := by
    refine reachable_logged (fun p hp => ?_) hrun'
    simp only [replacedConfiguration, mem_cons, not_mem_nil, or_false] at hp
    rcases hp with rfl | rfl <;> exact fun _ => rfl
  exact ⟨⟨r, hr, hview.1, hview.2, configurationLogged_of_reachable hr⟩,
    r', hr', hview'.1, hview'.2, configurationLogged_of_reachable hr'⟩

/-- Server 1 is elected.  Server 3 asks to be added, server 2 asks to remove the
    leader.  Once that is committed the leader has left; in the same call it
    adds server 3, which has caught up, and the entry for that is refused. -/
def leavingLeader : List (Env × Input) :=
  [({ now := 1000 }, .electionTimer),
   ({}, .rpc { sid := 2, body := .voteReply { term := 1, vote := 1 } }),
   ({}, .rpc { sid := 3, body := .addServerRequest "unix:s3" }),
   ({}, .rpc { sid := 2, body := .removeServerRequest 1 none }),
   ({}, .rpc { sid := 3, body := .appendReply ⟨1, 4, 2, 1, 1, .ok⟩ }),
   ({}, .rpc { sid := 2, body := .appendReply ⟨1, 4, 1, 1, 2, .ok⟩ })]

theorem configuration_not_logged :
    ∃ r, Reachable {} r ∧ r.failed = false ∧ r.servers.map (·.sid) = [2, 3] ∧
      idsOf (latestServers r.snap.servers r.entries) = [2] ∧ ¬ r.ConfigurationLogged := by
  have hview : (runInputs (fun _ => true) pairRaft leavingLeader).any (fun r => !r.failed &&
      r.servers.map (·.sid) == [2, 3] && idsOf (latestServers r.snap.servers r.entries) == [2]) =
      true := by decide +kernel
  obtain ⟨r, hrun, hr⟩ := Option.any_eq_true _ _ |>.mp hview
  simp only [Bool.and_eq_true, Bool.not_eq_true', beq_iff_eq] at hr
  obtain ⟨⟨hfailed, hservers⟩, hlog⟩ := hr
  refine ⟨r, reachable_runInputs (fun _ _ => trivial) (fun _ _ => trivial)
    (reachable_pairRaft trivial) hrun, hfailed, hservers, hlog, ?_⟩
  intro hlogged
  have h := (hlogged 3).mp (by rw [hservers]; decide)
  rw [hlog] at h
  exact absurd h (by decide)

end Ovsgw.Cluster
