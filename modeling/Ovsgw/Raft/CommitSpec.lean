/-
  **The acts of a leader: new entries, match indexes, commits and changes of the set of servers.**
-/
import Ovsgw.Raft.LogSpec

namespace Ovsgw.Cluster

open List

/-! ## 1. Writing an entry -/

def Raft.pushed (r : Raft) (env : Env) (e : Entry) : Raft :=
  { r with
    entries := r.entries ++ [e]
    log := if env.writeOk r.writes then r.log.add (entryRecord r.logEnd e) else r.log
    writes := r.writes + 1 }

section
variable (term : Nat) (data : Option Json) (eid : Uuid) (servers : Option Servers)
  (electionTimer : Nat) (env : Env) (r : Raft)

theorem raftWriteEntry_run (h : r.logEnd + 1 < 2 ^ 64) :
    raftWriteEntry term data (some eid) servers electionTimer env r = ⟨.ok (env.writeOk r.writes),
        r.pushed env { term, data, eid, servers, electionTimer }, []⟩ := by
  have hadd : raftAddEntry term data (some eid) servers electionTimer env r =
      ⟨.ok r.logEnd, { r with entries := r.entries ++
        [{ term, data, eid, servers, electionTimer }] }, []⟩ := by
    show (if 2 ^ 64 ≤ r.logEnd + 1 then _ else _ : M Nat) env r = _
    rw [if_neg (by omega)]
    rfl
  simp only [raftWriteEntry, bind_run, hadd]
  rfl

theorem raftWriteEntry_overflow (h : ¬ r.logEnd + 1 < 2 ^ 64) :
    raftWriteEntry term data (some eid) servers electionTimer env r =
      ⟨.error .overflow, r, []⟩ := by
  have hadd : raftAddEntry term data (some eid) servers electionTimer env r =
      ⟨.error .overflow, r, []⟩ := by
    show (if 2 ^ 64 ≤ r.logEnd + 1 then _ else _ : M Nat) env r = _
    rw [if_pos (by omega)]
    rfl
  simp only [raftWriteEntry, bind_run, hadd]

end

@[simp] theorem Raft.pushed_logEnd (r : Raft) (env : Env) (e : Entry) :
    (r.pushed env e).logEnd = r.logEnd + 1 := by
  simp [Raft.logEnd, Raft.pushed, Nat.add_assoc]

theorem Raft.core_pushed (r : Raft) (env : Env) (e : Entry) (g : Ghost) :
    (r.pushed env e).core g = (r.core g).push e (env.writeOk r.writes) := by
  simp only [Raft.pushed, Raft.core, Core.push]
  rfl

variable {ctx : Ctx} {s : St} {e : Entry} {index electionTimer i : Nat} {eid : Uuid}
  {data : Option Json}

theorem does_raftWriteEntry {g : Ghost} (e : Entry) (hact : ∀ ok, (ctx.env.Writes → ok = true) →
      Act ctx s.core [] ((s.raft.core g).push e ok)) :
    Does ctx (raftWriteEntry e.term e.data (some e.eid) e.servers e.electionTimer) s
      (fun ok s' => s' = ⟨s.raft.pushed ctx.env e, g⟩ ∧ (ctx.env.Writes → ok = true)) := by
  unfold Does
  by_cases hfits : s.raft.logEnd + 1 < 2 ^ 64
  · rw [raftWriteEntry_run _ _ _ _ _ _ _ hfits]
    refine ⟨g, .one ?_, rfl, fun hwrites => hwrites _⟩
    rw [Raft.core_pushed]
    exact hact _ fun hwrites => hwrites _
  · rw [raftWriteEntry_overflow _ _ _ _ _ _ _ hfits]
    exact ⟨s.core, .nil _, .overflow _⟩

/-! ## 2. Appending an entry as a leader -/

/-- The log may have grown at its end, and the commit index and `servers` may have changed. -/
structure St.Advances (s s' : St) : Prop extends St.Keeps s s' where
  dirty : s'.ghost.dirty = s.ghost.dirty
  role : s'.raft.role = s.raft.role
  term : s'.raft.term = s.raft.term
  sid : s'.raft.sid = s.raft.sid
  logStart : s'.raft.logStart = s.raft.logStart
  entries : s.raft.entries <+: s'.raft.entries

/-- The same, with the commit index as it was. -/
structure St.Grows (s s' : St) : Prop extends St.Advances s s' where
  lim : s'.ghost.lim = s.ghost.lim
  commitIndex : s'.raft.commitIndex = s.raft.commitIndex

theorem St.Advances.trans {s' s'' : St} (h : s.Advances s') (h' : s'.Advances s'') :
    s.Advances s'' :=
  { h.toKeeps.trans h'.toKeeps with
    dirty := h'.dirty.trans h.dirty
    role := h'.role.trans h.role
    term := h'.term.trans h.term
    sid := h'.sid.trans h.sid
    logStart := h'.logStart.trans h.logStart
    entries := h.entries.trans h'.entries }

namespace St.Grows

theorem of_soft {s' : St} (h : s.Soft s') : s.Grows s' :=
  { h.toKeeps with
    dirty := h.dirty
    role := h.role
    term := h.term
    sid := h.sid
    logStart := h.logStart
    entries := h.entries ▸ prefix_refl _
    lim := by rw [h.ghost]
    commitIndex := h.commitIndex }

theorem refl (s : St) : s.Grows s := .of_soft (.refl s)

theorem trans {s' s'' : St} (h : s.Grows s') (h' : s'.Grows s'') : s.Grows s'' :=
  { h.toAdvances.trans h'.toAdvances with
    lim := h'.lim.trans h.lim
    commitIndex := h'.commitIndex.trans h.commitIndex }

theorem pushed (s : St) (env : Env) (e : Entry) : s.Grows ⟨s.raft.pushed env e, s.ghost⟩ where
  waiters := prefix_refl _
  cur := by
    simp only [Raft.pushed]
    split <;> rfl
  dirty := rfl
  role := rfl
  term := rfl
  sid := rfl
  logStart := rfl
  entries := prefix_append _ _
  lim := rfl
  commitIndex := rfl

end St.Grows

theorem does_raftWaiterCreate_entry (hindex : index = s.raft.logEnd - 1) :
    Does ctx (raftWaiterCreate (.entry index) true) s (fun _ s' => s.Soft s') := by
  subst hindex
  show Does ctx (modify (fun r => { r with log := r.log.start }) >>= fun _ =>
    get >>= fun r => modify fun r' =>
      { r' with waiters := r'.waiters ++ [⟨r.log.next, .entry (s.raft.logEnd - 1)⟩] }) s _
  refine .hold (.modify_bind (.get_bind (.modify (g := s.ghost) (.one .waitEntry) ?_)))
  exact ⟨⟨prefix_append _ _, rfl⟩, rfl⟩

theorem does_announceToServers (index : Nat) (rest : List Server) :
    ∀ {visited : List Server} {s : St},
      s.raft.servers.map Server.peer = (visited ++ rest).map Server.peer →
      Does ctx (announceToServers index visited rest) s (fun _ s' => s.Soft s') := by
  induction rest with
  | nil => exact fun _ => .pure (.refl _)
  | cons peer rest ih =>
    intro visited s hservers
    refine .get_bind (.ite (fun _ => ?_) fun _ => ih (by rw [hservers]; simp))
    refine .bind (softM_raftSendAppendRequest ctx s) fun _ s1 h1 => ?_
    have hsame : (⟨{ s1.raft with servers := visited ++
        { peer with nextIndex := peer.nextIndex + 1 } :: rest }, s1.ghost⟩ : St).core = s1.core := by
      have hpeers : (visited ++ { peer with nextIndex := peer.nextIndex + 1 } :: rest).map
          Server.peer = s1.raft.servers.map Server.peer := by
        rw [h1.peers, hservers, map_append, map_append]
        rfl
      simp only [St.core, Raft.core, hpeers]
    refine .skip_bind hsame ?_
    refine (ih (by simp)).weaken fun _ _ h => h1.trans (.trans (.of_core_eq hsame) h)

theorem does_announceEntry {ok : Bool} (hindex : index = s.raft.logEnd - 1) :
    Does ctx (announceEntry index eid ok) s (fun _ s' => s.Soft s') := by
  refine .bind (light_raftHandleWriteError.soft ctx s) fun _ s1 h1 => ?_
  refine .ite (fun _ => .pure h1) fun _ => .getEnv_bind (.skip_bind rfl ?_)
  refine .bind (does_raftWaiterCreate_entry (hindex.trans (by rw [← h1.logEnd]; rfl)))
    fun _ s2 h2 => ?_
  have h0 : s.Soft s2 := h1.trans (.trans (.of_core_eq (by rfl)) h2)
  refine .get_bind (.bind (does_announceToServers index _ rfl) fun _ s3 h3 => ?_)
  exact (SoftM.bind light_raftResetPingTimer.soft (fun _ => .pure _) ctx s3).weaken
    fun _ _ h => h0.trans (h3.trans h)

theorem does_raftCommandInitiate (hrole : s.raft.role = .leader) :
    Does ctx (raftCommandInitiate data none electionTimer eid) s (fun _ s' => s.Grows s') := by
  refine .get_bind (.bind (does_raftWriteEntry (g := s.ghost)
    { term := s.raft.term, data, eid, servers := none, electionTimer } fun ok hok => ?_) ?_)
  · exact .append _ ok hrole rfl rfl hok
  · rintro ok _ ⟨rfl, -⟩
    refine (does_announceEntry ?_).weaken fun _ _ h => (St.Grows.pushed s _ _).trans (.of_soft h)
    simp

/-- A command without `servers`, as client commands, no-ops and changes of the
    election timer are. -/
theorem does_raftCommandExecute__ {prereq : Option Uuid} :
    Does ctx (raftCommandExecute__ data none electionTimer prereq) s (fun _ s' => s.Grows s') := by
  refine .get_bind (.ite (fun _ => .pure (.refl s)) fun _ => .ite (fun _ => ?_) fun hrole => ?_)
  · cases data with
    | none => exact .pure (.refl s)
    | some data =>
      cases prereq with
      | none => exact .pure (.refl s)
      | some prereq =>
        refine .ite (fun _ => .pure (.refl s)) fun _ => .getEnv_bind ?_
        refine .bind (SoftM.send rfl ctx s) fun sent s' h => .ite (fun _ => .pure (.of_soft h)) ?_
        exact fun _ => .getEnv_bind (.skip_bind rfl (.pure (.of_soft (h.trans (.of_core_eq rfl)))))
  · have hleader : s.raft.role = .leader := Decidable.not_not.mp hrole
    refine .getEnv_bind (.bind does_raftCurrentEid ?_)
    rintro eid _ ⟨rfl, rfl⟩
    refine .ite (fun _ => .pure (.refl _)) fun hprereq => .get_bind ?_
    refine .bind (.emit (.mark _ fun p hp => ⟨rfl, hleader, ?_⟩) (Q := fun _ s' => s = s') rfl) ?_
    · subst hp
      simpa using hprereq
    · rintro _ _ rfl
      exact .bind (does_raftCommandInitiate hleader) fun _ _ h => .pure h

/-! ## 3. Changing the set of servers -/

/-- Only the sets of servers, the file and the waiters differ. -/
structure St.Shifts (s s' : St) : Prop extends St.Keeps s s' where
  core : s'.core = { s.core with
    servers := s'.core.servers
    addServers := s'.core.addServers
    waiters := s'.raft.waiters
    log := s'.raft.log }

namespace St.Shifts

variable {s s' : St}

theorem of_soft (h : s.Soft s') : s.Shifts s' :=
  { h.toKeeps with core := by rw [h.core] }

theorem trans {s'' : St} (h : s.Shifts s') (h' : s'.Shifts s'') : s.Shifts s'' :=
  { h.toKeeps.trans h'.toKeeps with core := by rw [h'.core, h.core] }

theorem of_core_eq {servers addServers : List Peer}
    (h : s'.core = s.core.withServers servers addServers) : s.Shifts s' := by
  have hw : s'.raft.waiters = s.raft.waiters := congrArg Core.waiters h
  have hl : s'.raft.log = s.raft.log := congrArg Core.log h
  exact ⟨⟨hw ▸ prefix_refl _, by rw [hl]⟩, by rw [h, hw, hl]; rfl⟩

theorem ghost (h : s.Shifts s') : s'.ghost = s.ghost := congrArg Core.ghost h.core

theorem entries (h : s.Shifts s') : s'.raft.entries = s.raft.entries :=
  congrArg Core.entries h.core

theorem grows (h : s.Shifts s') : s.Grows s' :=
  { h.toKeeps with
    dirty := by rw [h.ghost]
    role := congrArg Core.role h.core
    term := congrArg Core.term h.core
    sid := congrArg Core.sid h.core
    logStart := congrArg Core.logStart h.core
    entries := h.entries ▸ prefix_refl _
    lim := by rw [h.ghost]
    commitIndex := congrArg Core.commitIndex h.core }

end St.Shifts

theorem does_raftHasUncommittedConfiguration : Does ctx raftHasUncommittedConfiguration s
      (fun b s' => s = s' ∧ (b = false → s.core.NoUncommittedServers)) := by
  refine .get_bind (.assert_bind (fun hfail _ _ _ hok => ?_) fun _ => ?_)
  · exact hfail fun _ => hok.commit_low
  · refine .pure ⟨rfl, fun hnone e he => ?_⟩
    have := any_eq_false.mp hnone e he
    simpa using this

section

variable {sid : Uuid} {f : Server → Server} {f' : Peer → Peer}

theorem Act.of_updateServer
    (h : Act ctx s.core [] { s.core with servers := updatePeer s.core.servers sid f' })
    (hf : ∀ p, (f p).peer = f' p.peer) : Act ctx s.core []
      (Raft.core { s.raft with servers := updateServer s.raft.servers sid f } s.ghost) := by
  simp only [Raft.core, map_peer_updateServer hf]
  exact h

theorem Act.of_updateNewServer
    (h : Act ctx s.core [] { s.core with addServers := updatePeer s.core.addServers sid f' })
    (hf : ∀ p, (f p).peer = f' p.peer) : Act ctx s.core []
      (Raft.core { s.raft with addServers := updateServer s.raft.addServers sid f } s.ghost) := by
  simp only [Raft.core, map_peer_updateServer hf]
  exact h

end

theorem does_reportCommitted : Does ctx reportCommitted s (fun _ s' => s.Shifts s') := by
  refine .get_bind (.forEach (P := fun s' => s.Shifts s') (.of_soft (.refl s)) ?_)
  intro peer _ s' hs'
  refine .ite (fun _ => ?_) fun _ => .pure hs'
  refine .bind (light_raftSendAddServerReply__.soft ctx s') fun _ s1 h1 => ?_
  exact .modify (g := s1.ghost) (.of_updateServer (.settle peer.sid) fun _ => rfl)
    (hs'.trans ((St.Shifts.of_soft h1).trans ⟨⟨prefix_refl _, rfl⟩, rfl⟩))

theorem map_peer_erase_of_find? {q : Peer → Bool} {l : List Server} {s : Server}
    (h : l.find? (fun s => q s.peer) = some s) :
    (l.erase s).map Server.peer = (l.map Server.peer).erase s.peer := by
  have hq : q s.peer = true := by simpa using find?_some h
  induction l with
  | nil => simp at h
  | cons a l ih =>
    by_cases ha : q a.peer = true
    · simp only [find?_cons, ha] at h
      cases h
      simp
    · simp only [find?_cons, ha] at h
      have hne : ¬ a = s := by
        rintro rfl
        exact ha hq
      have hne' : ¬ a.peer = s.peer := by
        intro heq
        exact ha (heq ▸ hq)
      simp [hne, hne', ih h]

theorem raftCurrentEid_run (env : Env) (r : Raft) (h : 1 ≤ r.logEnd) :
    ∃ eid, raftCurrentEid env r = ⟨.ok eid, r, []⟩ := by
  have hlt : r.logEnd - 1 < r.logEnd := by omega
  refine ⟨latestEid r.snap.eid (r.entries.take (r.logEnd - 1 + 1 - r.logStart)), ?_⟩
  by_cases hle : r.logStart ≤ r.logEnd - 1 <;>
    simp [raftCurrentEid, raftGetEid, ovsAssert, hle, hlt]

theorem raftCurrentEid_fault (env : Env) (r : Raft) (h : r.logEnd = 0) :
    raftCurrentEid env r = ⟨.error (.assert .raftGetEntry), r, []⟩ := by
  have hlt : ¬ r.logEnd - 1 < r.logEnd := by omega
  have hle : r.logStart ≤ r.logEnd - 1 := by simp only [Raft.logEnd] at *; omega
  simp [raftCurrentEid, raftGetEid, ovsAssert, hle, hlt]

variable {r : Raft}

/-! ## 4. The commit index of a follower -/

/-- Both loops move the commit index and then look at the entry there. -/
theorem does_commitNext {k : Raft → Entry → M Unit} {Q : Unit → St → Prop}
    (hlim : s.raft.commitIndex < s.ghost.lim)
    (hk : ∀ e, let r := { s.raft with commitIndex := s.raft.commitIndex + 1 }
      Does ctx (k r e) ⟨r, s.ghost⟩ Q) :
    Does ctx (do
      modify fun r => { r with commitIndex := r.commitIndex + 1 }
      let r ← get
      let e ← raftGetEntry r.commitIndex
      k r e) s Q := by
  refine .hold (.modify_bind (.get_bind ?_))
  by_cases hin : s.raft.logStart ≤ s.raft.commitIndex + 1 ∧ s.raft.commitIndex + 1 < s.raft.logEnd
  · obtain ⟨e, -, hrun⟩ := raftGetEntry_run ctx.env
      { s.raft with commitIndex := s.raft.commitIndex + 1 } hin.1 hin.2
    exact .run_bind hrun (.release (g := s.ghost) (.one (.advance hlim hin.1 hin.2)) (hk e))
  · refine .fault_bind (raftGetEntry_fault _ _ hin) (.nil _) fun _ _ _ hok => hin ?_
    have hstart : s.core.logStart ≤ s.core.commitIndex + 1 := hok.commit_low
    rcases hok.lim with hle | hlt
    · exact absurd hlim (Nat.not_lt.mpr hle)
    · exact ⟨hstart, Nat.lt_of_le_of_lt hlim hlt⟩

/-- Only the commit index, its target, the file and the waiters differ. -/
structure St.Commits (s s' : St) : Prop extends St.Keeps s s' where
  core : s'.core = { s.core with
    commitIndex := s'.raft.commitIndex
    waiters := s'.raft.waiters
    log := s'.raft.log
    ghost := { s.ghost with lim := s'.ghost.lim } }

namespace St.Commits

variable {s s' : St}

theorem of_soft (h : s.Soft s') : s.Commits s' :=
  { h.toKeeps with core := by rw [h.core, h.ghost, h.commitIndex]; rfl }

theorem trans {s'' : St} (h : s.Commits s') (h' : s'.Commits s'') : s.Commits s'' := by
  have hg : s'.ghost = { s.ghost with lim := s'.ghost.lim } := congrArg Core.ghost h.core
  exact { h.toKeeps.trans h'.toKeeps with core := by rw [h'.core, h.core, hg] }

theorem term (h : s.Commits s') : s'.raft.term = s.raft.term :=
  congrArg Core.term h.core

theorem dirty (h : s.Commits s') : s'.ghost.dirty = s.ghost.dirty :=
  congrArg (fun c => c.ghost.dirty) h.core

end St.Commits

theorem does_commitOneAsFollower (hlim : s.raft.commitIndex < s.ghost.lim) :
    Does ctx commitOneAsFollower s (fun _ s' => s.Commits s' ∧ s'.ghost.lim = s.ghost.lim ∧
      s'.raft.commitIndex = s.raft.commitIndex + 1) := by
  refine does_commitNext hlim fun e => ?_
  refine .ite (fun _ => .skip rfl ?_) fun _ => .pure ?_
  · exact ⟨⟨⟨prefix_refl _, rfl⟩, rfl⟩, rfl, rfl⟩
  · exact ⟨⟨⟨prefix_refl _, rfl⟩, rfl⟩, rfl, rfl⟩

theorem does_repeat_commitOneAsFollower (n : Nat) (hlim : s.raft.commitIndex + n ≤ s.ghost.lim) :
    Does ctx (repeatM n commitOneAsFollower) s (fun _ s' => s.Commits s' ∧
      s'.raft.commitIndex = s.raft.commitIndex + n) := by
  induction n generalizing s with
  | zero => exact .pure ⟨.of_soft (.refl s), rfl⟩
  | succ n ih =>
    refine .bind (does_commitOneAsFollower (by omega)) ?_
    rintro _ s' ⟨h, hlim', hcommit⟩
    refine (ih (by rw [hlim', hcommit]; omega)).weaken ?_
    rintro _ s'' ⟨h', hcommit'⟩
    exact ⟨h.trans h', by rw [hcommit', hcommit]; omega⟩

theorem does_raftUpdateCommitIndex_follower (hrole : s.raft.role ≠ .leader)
    (hact : Act ctx s.core [] (s.raft.core { s.ghost with lim := i })) :
    Does ctx (raftUpdateCommitIndex i) s (fun _ s' => s.Commits s') := by
  refine .get_bind (.ite (fun _ => .pure (.of_soft (.refl s))) fun hi => ?_)
  refine .ite (fun h => absurd h hrole) fun _ => ?_
  have hstart : s.Commits ⟨s.raft, { s.ghost with lim := i }⟩ :=
    ⟨⟨prefix_refl _, rfl⟩, rfl⟩
  refine .hold (.release (g := { s.ghost with lim := i }) (.one hact) ?_)
  refine .bind (does_repeat_commitOneAsFollower _ (by simp only; omega)) ?_
  rintro _ s1 ⟨h1, hcommit⟩
  refine .bind (does_raftGetEid i fun hok _ => ?_) ?_
  · have hlt : s1.raft.commitIndex < s1.raft.logEnd := hok.commit
    simp only at hcommit
    omega
  rintro eid _ ⟨rfl, -⟩
  refine .bind (light_completeByEid.soft ctx s1) fun _ s2 h2 => ?_
  refine (SoftM.bind .get (fun _ => .bind softM_ovsdbLogWrite fun _ => .pure _)
    ctx s2).weaken fun _ s3 h3 => ?_
  exact hstart.trans (h1.trans ((St.Commits.of_soft h2).trans (.of_soft h3)))

/-! ## 5. The commit index of a leader -/

theorem foldl_last_or {α : Type} (q : α → Bool) (xs : List α) (init : α) :
    let last := xs.foldl (fun acc x => if q x then x else acc) init
    last = init ∨ q last = true := by
  induction xs generalizing init with
  | nil => exact .inl rfl
  | cons x xs ih =>
    simp only [foldl_cons]
    by_cases hx : q x = true
    · rcases ih x with h | h
      · exact .inr (by simp only [hx, if_true, h])
      · exact .inr (by simpa [hx] using h)
    · simpa [hx] using ih init

theorem committable_newCommitIndex (h : r.commitIndex < newCommitIndex r) :
    r.committable (newCommitIndex r) = true := by
  rcases foldl_last_or r.committable (List.range' (max (r.commitIndex + 1) r.logStart)
    (r.logEnd - max (r.commitIndex + 1) r.logStart)) r.commitIndex with heq | hq
  · have : newCommitIndex r = r.commitIndex := heq
    omega
  · exact hq

theorem core_of_committable {g : Ghost} (h : r.committable i = true) :
    (r.core g).OwnTerm i ∧ (r.core g).Majority i := by
  simp only [Raft.committable, Bool.and_eq_true, decide_eq_true_eq] at h
  refine ⟨?_, ?_⟩
  · cases he : r.entryAt? i with
    | none => simp [he] at h
    | some e => exact ⟨e, he, by simpa [he, Raft.core] using h.1⟩
  · show (r.servers.map Server.peer).length / 2 < (r.servers.map Server.peer).countP _
    rw [length_map, countP_map]
    exact h.2

variable (hdirty : s.ghost.dirty = ctx.dirty)
include hdirty

theorem held_raftLogReconfiguration (servers addServers : List Peer)
    (hcore : r.core s.ghost = s.core.withServers servers addServers)
    (hrefuses : r.refuses → s.raft.refuses) (hev : Marks ctx s.core (.reconfigure s.raft))
    (hchange : Change s.core servers addServers) :
    Held ctx s.core [.reconfigure s.raft] raftLogReconfiguration r (fun _ s' => s.Grows s') := by
  have hrole : r.role = .leader := (congrArg Core.role hcore).trans hev.2.1
  have hlogEnd : r.logEnd = s.raft.logEnd := congrArg Core.logEnd hcore
  have hshifts : s.Shifts ⟨r, s.ghost⟩ := .of_core_eq hcore
  have hshift : s.Grows ⟨r, s.ghost⟩ := hshifts.grows
  have hmark : Acts ctx s.core [.reconfigure s.raft] s.core := .one (.mark _ hev)
  refine .get_bind (.bind (Q := fun _ s' => s.Grows s') (.get_bind (.ite (fun hflags => ?_)
    fun _ => .ite (fun h => absurd hrole h) fun _ => .getEnv_bind ?_)) fun _ _ h => .pure h)
  · refine .release (g := s.ghost) (.one ?_) (.pure hshift)
    rw [hcore]
    exact .reconfigureRefused s.raft servers addServers hev (hrefuses hflags)
  · by_cases hend : 1 ≤ r.logEnd
    · obtain ⟨eid, hrun⟩ := raftCurrentEid_run ctx.env r hend
      refine .run_bind hrun (.ite (fun h => absurd h.1 (by simp)) fun _ =>
        .get_bind (.emit_bind (.bind (Q := fun _ s' => s.Grows s') (.get_bind ?_)
          fun _ _ h => .pure h)))
      by_cases hfits : r.logEnd + 1 < 2 ^ 64
      · refine .run_bind (raftWriteEntry_run _ _ _ _ _ _ _ hfits) (.release (g := s.ghost) ?_ ?_)
        · rw [Raft.core_pushed, hcore]
          have hservers : servers = r.servers.map Server.peer :=
            (congrArg Core.servers hcore).symm
          have hterm : r.term = s.core.term := congrArg Core.term hcore
          have he : s.core.configEntry servers =
              { term := r.term, servers := some (raftServersToJson r.servers) } := by
            rw [Core.configEntry, hservers, peersToJson_map_peer, hterm]
          have hact : Act ctx s.core _ _ := .reconfigure s.raft r servers addServers
            (ctx.env.writeOk r.writes) hev hdirty hchange fun hwrites => hwrites _
          rw [he] at hact
          exact .one hact
        · refine (does_announceEntry ?_).weaken fun _ _ h =>
            hshift.trans ((St.Grows.pushed ⟨r, s.ghost⟩ _ _).trans (.of_soft h))
          simp
      · refine .fault_bind (raftWriteEntry_overflow _ _ _ _ _ _ _ hfits)
          (hmark.trans (.one (.mark _ ?_))) (.overflow _)
        exact fun _ h => absurd h (by simp)
    · refine .fault_bind (raftCurrentEid_fault ctx.env r (by omega)) hmark fun _ _ _ hok => ?_
      have h1 := hok.start
      have h2 : s.core.logStart = s.raft.logStart := rfl
      rw [hlogEnd, Raft.logEnd] at hend
      omega

/-- A reconfiguration lets the log grow. -/
theorem does_raftRunReconfigure : Does ctx raftRunReconfigure s (fun _ s' => s.Grows s') := by
  refine .get_bind (.assert_bind (fun _ => .of_not_indexed rfl _) fun hrole => ?_)
  refine .bind does_raftHasUncommittedConfiguration ?_
  rintro b _ ⟨rfl, hnone⟩
  refine .ite (fun _ => .pure (.refl s)) fun hb => ?_
  refine .bind does_reportCommitted fun _ s1 h1 => ?_
  refine .bind (softM_reportRemoved ctx s1) fun _ s2 h2 => .get_bind ?_
  have h : s.Shifts s2 := h1.trans (.of_soft h2)
  have hdirty2 : s2.ghost.dirty = ctx.dirty := by rw [h.ghost, hdirty]
  have hmarks : (s2.core.addServers.any (·.phase == .caughtUp) ∨
      s2.core.servers.any (·.phase == .remove)) → Marks ctx s2.core (.reconfigure s2.raft) := by
    refine fun hphase => ⟨rfl, h.grows.role.trans hrole, ?_, hphase⟩
    have hentries : s2.core.entries = s.core.entries := h.entries
    have hstart : s2.core.logStart = s.core.logStart := h.grows.logStart
    have hcommit : s2.core.commitIndex = s.core.commitIndex := h.grows.commitIndex
    have hnone := hnone (by simpa using hb)
    simpa only [Core.NoUncommittedServers, hentries, hstart, hcommit] using hnone
  have hgrows : ∀ a : Unit, ∀ s', s2.Grows s' → s.Grows s' := fun _ _ h' => h.grows.trans h'
  cases hadd : s2.raft.addServers.find? (·.phase == .caughtUp) with
  | some p =>
    have hp := mem_of_find?_eq_some hadd
    have hphase : p.phase = .caughtUp := by simpa using find?_some hadd
    refine Does.weaken (.hold (.emit_bind (.modify_bind (held_raftLogReconfiguration hdirty2
      (s2.core.servers ++ [{ p.peer with phase := .committing }])
      (s2.core.addServers.erase p.peer) ?_ id (hmarks (.inl ?_))
      (.add p.peer (mem_map_of_mem hp) hphase))))) hgrows
    · have := map_peer_erase_of_find? (q := fun p => p.phase == .caughtUp) hadd
      simp only [Raft.core, this, map_append, map_cons, map_nil]
      rfl
    · exact any_eq_true.mpr ⟨p.peer, mem_map_of_mem hp, by simpa [Server.peer] using hphase⟩
  | none =>
    cases hremove : s2.raft.servers.find? (·.phase == .remove) with
    | none => exact .pure h.grows
    | some p =>
      have hp := mem_of_find?_eq_some hremove
      have hphase : p.phase = .remove := by simpa using find?_some hremove
      refine Does.weaken (.hold (.emit_bind (.modify_bind (held_raftLogReconfiguration
        hdirty2 (s2.core.servers.erase p.peer) s2.core.addServers ?_ id (hmarks (.inr ?_))
        (.remove p.peer (mem_map_of_mem hp) hphase)))))
        hgrows
      · have := map_peer_erase_of_find? (q := fun p => p.phase == .remove) hremove
        simp only [Raft.core, this]
        rfl
      · exact any_eq_true.mpr ⟨p.peer, mem_map_of_mem hp, by simpa [Server.peer] using hphase⟩

theorem does_leaderCommitted : Does ctx (leaderCommitted index e) s (fun _ s' => s.Grows s') := by
  unfold leaderCommitted
  refine .when (P := s.Grows) (fun _ => (light_completeByEid.soft ctx _).weaken fun _ _ h =>
    .of_soft h) (fun _ => .refl _) fun s1 h1 => ?_
  refine .when (P := s.Grows) (fun _ => .skip rfl (h1.trans (.of_soft (.of_core_eq rfl))))
    (fun _ => h1) fun s2 h2 => ?_
  refine .ite (fun _ => ?_) fun _ => .pure h2
  exact (does_raftRunReconfigure (h2.dirty.trans hdirty)).weaken fun _ _ h => h2.trans h

theorem does_commitOneAsLeader (hlim : s.raft.commitIndex < s.ghost.lim) :
    Does ctx commitOneAsLeader s (fun _ s' => s.Advances s' ∧ s'.ghost.lim = s.ghost.lim ∧
      s'.raft.commitIndex = s.raft.commitIndex + 1) := by
  refine does_commitNext hlim fun e =>
    Does.weaken (does_leaderCommitted (by exact hdirty)) fun _ s' h => ?_
  exact ⟨{ h.toAdvances with }, h.lim, h.commitIndex⟩

theorem does_repeat_commitOneAsLeader (n : Nat) (hlim : s.raft.commitIndex + n ≤ s.ghost.lim) :
    Does ctx (repeatM n commitOneAsLeader) s (fun _ s' => s.Advances s') := by
  induction n generalizing s with
  | zero => exact .pure (St.Grows.refl s).toAdvances
  | succ n ih =>
    refine .bind (does_commitOneAsLeader hdirty (by omega)) ?_
    rintro _ s' ⟨h, hlim', hcommit⟩
    exact (ih (h.dirty.trans hdirty) (by rw [hlim', hcommit]; omega)).weaken
      fun _ _ h' => h.trans h'

theorem does_raftUpdateCommitIndex_leader (hrole : s.raft.role = .leader)
    (hact : s.raft.commitIndex < i → Act ctx s.core [] (s.raft.core { s.ghost with lim := i })) :
    Does ctx (raftUpdateCommitIndex i) s (fun _ s' => s.Advances s') := by
  refine .get_bind (.ite (fun _ => .pure (St.Grows.refl s).toAdvances) fun hi => ?_)
  refine .ite (fun _ => ?_) fun h => absurd hrole h
  refine .hold (.release (g := { s.ghost with lim := i }) (.one (hact (by omega))) ?_)
  refine .bind (does_repeat_commitOneAsLeader (by exact hdirty) _ (by simp only; omega))
    fun _ s1 h1 => ?_
  refine (SoftM.bind .get (fun _ => .bind softM_ovsdbLogWrite fun _ => .pure _)
    ctx s1).weaken fun _ s2 h2 => ?_
  have h : s.Advances s1 := { h1 with }
  exact h.trans (St.Grows.of_soft h2).toAdvances

theorem does_raftConsiderUpdatingCommitIndex :
    Does ctx raftConsiderUpdatingCommitIndex s (fun _ s' => s.Advances s') := by
  refine .get_bind (.assert_bind (fun _ => .of_not_indexed rfl _) fun hrole => ?_)
  refine .bind (does_raftUpdateCommitIndex_leader hdirty hrole fun hlt => ?_) fun b s1 h1 => ?_
  · obtain ⟨hown, hmajority⟩ := core_of_committable (g := s.ghost) (committable_newCommitIndex hlt)
    exact .decide _ hrole hown hmajority hdirty
  · refine .ite (fun _ => ?_) fun _ => .pure h1
    exact (softM_raftSendHeartbeats ctx s1).weaken fun _ _ h =>
      h1.trans (St.Grows.of_soft h).toAdvances

/-- `hact` is the act that the new match index stands for. -/
theorem does_raftUpdateMatchIndex {ref : ServerRef}
    (hact : s.raft.role = .leader → (s.raft.deref ref).isSome → Act ctx s.core []
      ((s.raft.assign ref ({ · with matchIndex := i })).core s.ghost)) :
    Does ctx (raftUpdateMatchIndex ref i) s (fun _ s' => s.Advances s') := by
  refine .get_bind (.assert_bind (fun _ => .of_not_indexed rfl _) fun hrole => ?_)
  cases hs : s.raft.deref ref with
  | none => exact .fault (.access _ _)
  | some server =>
    refine .ite (fun _ => ?_) fun _ => .pure (St.Grows.refl s).toAdvances
    refine .modify_bind (g := s.ghost) (hact hrole (by simp [hs])) ?_
    refine Does.weaken (does_raftConsiderUpdatingCommitIndex (by exact hdirty)) fun _ s' h => ?_
    have hassign : s.Advances ⟨s.raft.assign ref ({ · with matchIndex := i }), s.ghost⟩ := by
      cases ref <;> simp only [Raft.assign] <;> split <;>
        exact ⟨⟨prefix_refl _, rfl⟩, rfl, rfl, rfl, rfl, rfl, prefix_refl _⟩
    exact hassign.trans h

theorem does_raftUpdateOurMatchIndex :
    Does ctx (raftUpdateOurMatchIndex i) s (fun _ s' => s.Advances s') := by
  refine .get_bind (.ite (fun hself => ?_) fun _ => .pure (St.Grows.refl s).toAdvances)
  refine does_raftUpdateMatchIndex hdirty fun hrole _ => ?_
  simp only [Raft.assign, hself, if_true]
  exact .of_updateServer (.matchSelf i hrole) fun _ => rfl

end Ovsgw.Cluster
