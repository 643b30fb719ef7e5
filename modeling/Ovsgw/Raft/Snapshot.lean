/-
  **What a snapshot does to the log.**

  A snapshot that a server takes itself (`raft_store_snapshot`) replaces a
  prefix of the log by a summary of it.  Whatever the log could be asked about
  an index that the snapshot leaves, it answers as before.

  A snapshot that arrives from the leader (`raft_handle_install_snapshot_request__`)
  is acknowledged without a look at the terms if the log reaches past it.  That
  is right if the snapshot ends in what the follower knows to be committed, and
  wrong if it ends among entries that the leader never had.
-/
import Ovsgw.Raft.AppendSpec

namespace Ovsgw.Cluster

/-! ## 1. Questions to the log -/

def Raft.eidAt (r : Raft) (index : Nat) : Uuid :=
  latestEid r.snap.eid (r.entries.take (index + 1 - r.logStart))

def Raft.serversAt (r : Raft) (index : Nat) : Option Servers :=
  latestServers r.snap.servers (r.entries.take (index + 1 - r.logStart))

theorem Raft.termAt_of_ne {r : Raft} {i : Nat} (hi : i ≠ r.logStart - 1) :
    (r.core {}).termAt i = (r.entryAt? i).map (·.term) := if_neg hi

section
variable {r : Raft} {i : Nat} (env : Env)

theorem raftGetTerm_run (hstart : 1 ≤ r.logStart) (hlow : r.logStart - 1 ≤ i)
    (hhigh : i < r.logEnd) :
    ∃ term, (r.core {}).termAt i = some term ∧ raftGetTerm i env r = ⟨.ok term, r, []⟩ := by
  by_cases hi : i = r.logStart - 1
  · exact ⟨r.snap.term, if_pos hi, by simp [raftGetTerm, hi]⟩
  · obtain ⟨e, he, hrun⟩ := raftGetEntry_run env r (i := i) (by omega) hhigh
    refine ⟨e.term, ?_, by simp [raftGetTerm, hi, hrun]⟩
    rw [r.termAt_of_ne hi, he]
    rfl

theorem raftGetEid_run (hhigh : i < r.logEnd) : raftGetEid i env r = ⟨.ok (r.eidAt i), r, []⟩ := by
  by_cases hlow : r.logStart ≤ i <;> simp [raftGetEid, ovsAssert, hlow, hhigh, Raft.eidAt]

theorem raftServersForIndex_run (hlow : r.logStart - 1 ≤ i) (hhigh : i < r.logEnd) :
    raftServersForIndex i env r = ⟨.ok (r.serversAt i), r, []⟩ := by
  have hlow' : r.logStart ≤ i + 1 := by omega
  simp [raftServersForIndex, ovsAssert, hlow', hhigh, Raft.serversAt]

end

/-! ## 2. Taking a snapshot -/

/-- The state after a snapshot of everything up to `last_applied`. -/
def Raft.compacted (r : Raft) (data : Json) (term : Nat) (log : LogFile) : Raft :=
  { r with
    log
    logSynced := r.logEnd - 1
    snap := { term, data := some data, eid := r.eidAt r.lastApplied
              servers := r.serversAt r.lastApplied, electionTimer := r.electionTimer }
    entries := r.entries.drop (r.lastApplied + 1 - r.logStart)
    logStart := r.lastApplied + 1 }

variable {bad : Fault → Prop} {ok : Event → Prop} {env : Env} {r : Raft}

theorem Ensures.run_bind {r' : Raft} {m : M α} {k : α → M β} {a : α} {Q : β → Raft → Prop}
    (hrun : m env r = ⟨.ok a, r', []⟩) (h : Ensures ok bad env (k a) r' Q) :
    Ensures ok bad env (m >>= k) r Q := by
  unfold Ensures at *
  rw [bind_run, hrun]
  exact h

/-- A snapshot takes the place of the entries that were applied. -/
theorem ensures_raftStoreSnapshot (hr : r.IndexOk) {data : Json}
    (hbad : ¬ bad (.access .raftStoreSnapshot)) :
    Ensures ok bad env (raftStoreSnapshot data) r (fun result r' => result = .ok () →
      r.logStart ≤ r.lastApplied ∧ ∃ term log, (r.core {}).termAt r.lastApplied = some term ∧
        r' = r.compacted data term log) := by
  have hhigh : r.lastApplied < r.logEnd := Nat.lt_of_le_of_lt hr.applied hr.commit
  refine .get_bind (.ite (fun _ => .pure (by rintro ⟨⟩)) fun _ => .ite
    (fun _ => .pure (by rintro ⟨⟩)) fun _ => .ite (fun _ => .pure (by rintro ⟨⟩)) fun _ => .ite
    (fun _ => .pure (by rintro ⟨⟩)) fun _ => .ite (fun _ => .pure (by rintro ⟨⟩)) fun happlied => ?_)
  have hlow : r.logStart ≤ r.lastApplied := Nat.not_lt.mp happlied
  obtain ⟨term, hterm, hrun⟩ := raftGetTerm_run env hr.start (by omega) hhigh
  refine .run_bind hrun (.run_bind (raftGetEid_run env hhigh) (.run_bind
    (raftServersForIndex_run env (by omega) hhigh) (.ite (fun _ => .fault hbad) fun _ => ?_)))
  by_cases hsave : env.saveOk = true
  · refine .run_bind (raftSaveSnapshot_run _ _ _ _ hsave) (.ite (fun h => absurd rfl h)
      fun _ => .modify_bind (.pure fun _ => ?_))
    exact ⟨hlow, term, _, hterm, rfl⟩
  · refine .run_bind (raftSaveSnapshot_fail _ _ _ _ hsave) (.ite (fun _ => .pure (by rintro ⟨⟩))
      fun h => absurd (by simp) h)

section
variable {r : Raft} {data : Json} {term : Nat} {log : LogFile}

section

variable (hlow : r.logStart ≤ r.lastApplied)
include hlow

theorem Raft.logEnd_compacted (hhigh : r.lastApplied < r.logEnd) :
    (r.compacted data term log).logEnd = r.logEnd := by
  simp only [Raft.logEnd, Raft.compacted, List.length_drop] at *
  omega

variable {i : Nat}

theorem Raft.entryAt?_compacted (hi : r.lastApplied + 1 ≤ i) :
    (r.compacted data term log).entryAt? i = r.entryAt? i := by
  have hnew : (r.compacted data term log).entryAt? i =
      (r.entries.drop (r.lastApplied + 1 - r.logStart))[i - (r.lastApplied + 1)]? := if_pos hi
  rw [hnew, Raft.entryAt?, if_pos (by omega), List.getElem?_drop]
  congr 1
  omega

theorem Raft.termAt_compacted (hterm : (r.core {}).termAt r.lastApplied = some term)
    (hstart : 1 ≤ r.logStart) (hi : r.lastApplied ≤ i) :
    ((r.compacted data term log).core {}).termAt i = (r.core {}).termAt i := by
  by_cases heq : i = r.lastApplied
  · rw [heq, hterm]
    exact if_pos rfl
  · rw [Raft.termAt_of_ne heq, r.termAt_of_ne (by omega), Raft.entryAt?_compacted hlow (by omega)]

end

/-- The entries up to `i` are those that the snapshot replaces and the rest. -/
theorem Raft.take_eq_append (hlow : r.logStart ≤ r.lastApplied) (hi : r.lastApplied ≤ i) :
    r.entries.take (i + 1 - r.logStart) = r.entries.take (r.lastApplied + 1 - r.logStart) ++
        (r.entries.drop (r.lastApplied + 1 - r.logStart)).take (i + 1 - (r.lastApplied + 1)) := by
  rw [← List.take_add]
  congr 1
  omega

theorem Raft.eidAt_compacted (hlow : r.logStart ≤ r.lastApplied) (hi : r.lastApplied ≤ i) :
    (r.compacted data term log).eidAt i = r.eidAt i := by
  rw [Raft.eidAt, Raft.eidAt, r.take_eq_append hlow hi, latestEid, latestEid, List.foldl_append]
  rfl

theorem Raft.serversAt_compacted (hlow : r.logStart ≤ r.lastApplied) (hi : r.lastApplied ≤ i) :
    (r.compacted data term log).serversAt i = r.serversAt i := by
  rw [Raft.serversAt, Raft.serversAt, r.take_eq_append hlow hi, latestServers, latestServers,
    List.foldl_append]
  rfl

end

/-- After a snapshot the log answers as before about every index from the last
    one of the snapshot on. -/
theorem raftStoreSnapshot_keeps_log {env : Env} {r r' : Raft} {data : Json} {tr : List Event}
    (hr : r.IndexOk) (h : raftStoreSnapshot data env r = ⟨.ok (.ok ()), r', tr⟩) :
    r.logStart < r'.logStart ∧ r'.logStart ≤ r.lastApplied + 1 ∧
      (∀ i, r'.logStart - 1 ≤ i → i < r.logEnd → ∀ env',
        (∃ term, raftGetTerm i env' r = ⟨.ok term, r, []⟩ ∧
          raftGetTerm i env' r' = ⟨.ok term, r', []⟩) ∧
        (∃ eid, raftGetEid i env' r = ⟨.ok eid, r, []⟩ ∧ raftGetEid i env' r' = ⟨.ok eid, r', []⟩) ∧
        ∃ servers, raftServersForIndex i env' r = ⟨.ok servers, r, []⟩ ∧
          raftServersForIndex i env' r' = ⟨.ok servers, r', []⟩) ∧
      (∀ i, r'.logStart ≤ i → r'.entryAt? i = r.entryAt? i) ∧
      r'.commitIndex = r.commitIndex ∧ r'.lastApplied = r.lastApplied ∧ r'.logEnd = r.logEnd ∧
      r'.term = r.term ∧ r'.vote = r.vote := by
  have hstored : Ensures (fun _ => True) (fun _ => False) env (raftStoreSnapshot data) r _ :=
    ensures_raftStoreSnapshot hr id
  rw [Ensures, h] at hstored
  obtain ⟨hlow, term, log, hterm, rfl⟩ := hstored (fun _ _ => trivial) rfl
  have hhigh : r.lastApplied < r.logEnd := Nat.lt_of_le_of_lt hr.applied hr.commit
  have hend : (r.compacted data term log).logEnd = r.logEnd := Raft.logEnd_compacted hlow hhigh
  refine ⟨Nat.lt_succ_of_le hlow, Nat.le_refl _, ?_, fun i hi => Raft.entryAt?_compacted hlow hi,
    rfl, rfl, hend, rfl, rfl⟩
  intro i hi hi' env'
  have hi : r.lastApplied ≤ i := hi
  have hend' : i < (r.compacted data term log).logEnd := by rwa [hend]
  refine ⟨?_, ⟨r.eidAt i, raftGetEid_run env' hi', ?_⟩,
    r.serversAt i, raftServersForIndex_run env' (by omega) hi', ?_⟩
  · obtain ⟨t, ht, hrun⟩ := raftGetTerm_run env' hr.start (by omega) hi'
    obtain ⟨t', ht', hrun'⟩ := raftGetTerm_run env' (Nat.succ_le_succ (Nat.zero_le _)) hi hend'
    rw [Raft.termAt_compacted hlow hterm hr.start hi, ht] at ht'
    cases ht'
    exact ⟨t, hrun, hrun'⟩
  · rw [raftGetEid_run env' hend', Raft.eidAt_compacted hlow hi]
  · rw [raftServersForIndex_run env' hi hend', Raft.serversAt_compacted hlow hi]

def bareRaft : Raft :=
  { log := { header := { sid := 1, cid := 1, name := "db", localAddress := "unix:s1" } }
    cid := 1, sid := 1, localAddress := "unix:s1", name := "db" }

/-- A log with data, a set of servers and an entry that is not applied yet. -/
def threeEntries : Raft :=
  { bareRaft with
    entries := [{ term := 1, data := some (.array []), eid := 9 },
      { term := 1, servers := some [(1, "unix:s1")] }, { term := 2 }]
    commitIndex := 2, lastApplied := 2 }

theorem raftStoreSnapshot_keeps_log_sample :
    (raftStoreSnapshot (.object []) {} threeEntries).state.logStart ≤ 3 ∧
      (raftStoreSnapshot (.object []) {} threeEntries).state.entryAt? 3 =
        threeEntries.entryAt? 3 := by
  have hr : threeEntries.IndexOk := ⟨by decide, by decide, by decide, by decide, by decide⟩
  have h := @raftStoreSnapshot_keeps_log {} threeEntries _ (.object []) _ hr rfl
  exact ⟨h.2.1, h.2.2.2.1 3 h.2.1⟩

/-! ## 3. A snapshot from the leader -/

/-- The request comes from the leader `l` and covers entries that are committed there. -/
structure InstallSnapshotRequest.FromLeader (rq : InstallSnapshotRequest) (l : Raft) : Prop where
  role : l.role = .leader
  term : rq.term = l.term
  index : l.IndexOk
  fits : l.logEnd < 2 ^ 64
  committed : rq.lastIndex ≤ l.commitIndex
  lastTerm : (l.core {}).termAt rq.lastIndex = some rq.lastTerm

theorem ensures_raftGetServersFromLog (hbad : ¬ bad (.assert .raftGetServersFromLog)) :
    Ensures ok bad env raftGetServersFromLog r (fun _ r' =>
      r'.logStart = r.logStart ∧ r'.snap = r.snap) := by
  refine .getEnv_bind (.get_bind ?_)
  cases latestServers r.snap.servers r.entries with
  | some servers => exact .assert_bind hbad fun _ => .modify ⟨rfl, rfl⟩
  | none => exact .fault hbad

/-- The log is left as it is if it goes on after the snapshot, and replaced otherwise. -/
theorem ensures_installSnapshotRequest {rq : InstallSnapshotRequest} :
    Ensures ok (fun _ => False) env (raftHandleInstallSnapshotRequest__ rq) r (fun b r' =>
      b = true → (u64 (rq.lastIndex + 1) < r.logEnd ∧ r'.logStart = r.logStart ∧
          (r'.core {}).termAt = (r.core {}).termAt) ∨
        (¬ u64 (rq.lastIndex + 1) < r.logEnd ∧ r'.logStart = u64 (rq.lastIndex + 1) ∧
          r'.snap.term = rq.lastTerm)) := by
  refine .run_bind rfl (.get_bind (.ite (fun hlt => .pure fun _ => .inl ⟨hlt, rfl, rfl⟩)
    fun hge => .emit_bind fun _ => ?_))
  by_cases hsave : env.saveOk = true
  · refine .run_bind (raftSaveSnapshot_run _ _ _ _ hsave) (.ite (fun h => absurd rfl h)
      fun _ => .modify_bind (.bind (ensures_raftGetServersFromLog id) ?_))
    rintro _ r' ⟨hstart, hsnap⟩
    exact .modify_bind (.pure fun _ => .inr ⟨hge, hstart, congrArg Entry.term hsnap⟩)
  · refine .run_bind (raftSaveSnapshot_fail _ _ _ _ hsave) (.ite (fun _ => .pure (by rintro ⟨⟩))
      fun h => absurd (by simp) h)

/-- An acknowledged snapshot agrees with the log, just if it replaces the log, ends before it or
    ends with an entry of the same term in it. -/
theorem installSnapshotRequest_agrees {env : Env} {r r' : Raft} {rq : InstallSnapshotRequest}
    {tr : List Event} (hr : r.IndexOk) (hlast : rq.lastIndex < 2 ^ 64)
    (h : raftHandleInstallSnapshotRequest__ rq env r = ⟨.ok true, r', tr⟩) :
    (rq.lastIndex < r'.logStart - 1 ∨ (r'.core {}).termAt rq.lastIndex = some rq.lastTerm) ↔
      (u64 (rq.lastIndex + 1) < r.logEnd → rq.lastIndex < r.logStart - 1 ∨
        (r.core {}).termAt rq.lastIndex = some rq.lastTerm) := by
  have hhandled : Ensures (fun _ => True) _ env (raftHandleInstallSnapshotRequest__ rq) r _ :=
    ensures_installSnapshotRequest
  rw [Ensures, h] at hhandled
  obtain ⟨hlt, hlow, hterms⟩ | ⟨hge, hnew, hterm⟩ := hhandled (fun _ _ => trivial) rfl
  · rw [hterms, hlow, forall_prop_of_true hlt]
  · have hend : 0 < r.logEnd := Nat.lt_of_le_of_lt (Nat.zero_le _) hr.commit
    have hstart : u64 (rq.lastIndex + 1) = rq.lastIndex + 1 := by
      by_cases hmax : rq.lastIndex + 1 < 2 ^ 64
      · exact u64_of_lt hmax
      · -- The next index would wrap to 0, which is before the end of the log.
        rw [show rq.lastIndex + 1 = 2 ^ 64 by omega] at hge
        exact absurd hend hge
    refine iff_of_true (.inr ?_) fun hlt => absurd hlt hge
    rw [← hterm, Core.termAt]
    refine if_pos ?_
    show rq.lastIndex = r'.logStart - 1
    rw [hnew, hstart, Nat.add_sub_cancel]

/-- A leader of term 2 that has reduced its committed log to a snapshot. -/
def snapshotLeader : Raft :=
  { bareRaft with
    role := .leader, term := 2, logStart := 3, snap := { term := 2 }, commitIndex := 2
    lastApplied := 2 }

def lastTwo : InstallSnapshotRequest :=
  { term := 2, lastIndex := 2, lastTerm := 2, lastEid := 9, lastServers := [(1, "unix:s1")]
    electionTimer := 1000, data := .object [] }

theorem lastTwo_fromLeader : lastTwo.FromLeader snapshotLeader :=
  ⟨rfl, rfl, ⟨by decide, by decide, by decide, by decide, by decide⟩, by decide, by decide, rfl⟩

/-- A snapshot that replaces an empty log, and one of which the log has the last entry. -/
theorem installSnapshotRequest_agrees_sample :
    (((raftHandleInstallSnapshotRequest__ lastTwo {} bareRaft).state.core {}).termAt 2 = some 2) ∧
      (((raftHandleInstallSnapshotRequest__ { lastTwo with lastTerm := 1 } {}
        threeEntries).state.core {}).termAt 2 = some 1) := by
  have hempty := @installSnapshotRequest_agrees {} bareRaft
    (raftHandleInstallSnapshotRequest__ lastTwo {} bareRaft).state lastTwo _
    ⟨by decide, by decide, by decide, by decide, by decide⟩ (by decide) rfl
  have hsame := @installSnapshotRequest_agrees {} threeEntries
    (raftHandleInstallSnapshotRequest__ { lastTwo with lastTerm := 1 } {} threeEntries).state
    { lastTwo with lastTerm := 1 } _ ⟨by decide, by decide, by decide, by decide, by decide⟩
    (by decide) rfl
  exact ⟨(hempty.mpr (by decide)).resolve_left (by decide),
    (hsame.mpr (by decide)).resolve_left (by decide)⟩

/-- A server that led in term 1 and has two entries of that term which nobody
    else got: it acknowledges a snapshot that ends with an entry of term 2. -/
def oldLeader : Raft :=
  { bareRaft with
    term := 2, entries := [{ term := 1 }, { term := 1 }, { term := 1 }], commitIndex := 1
    lastApplied := 1 }

theorem installSnapshotRequest_disagrees : oldLeader.IndexOk ∧ lastTwo.FromLeader snapshotLeader ∧
      (raftHandleInstallSnapshotRequest__ lastTwo {} oldLeader).result = .ok true ∧
      ¬ (lastTwo.lastIndex <
          (raftHandleInstallSnapshotRequest__ lastTwo {} oldLeader).state.logStart - 1) ∧
      ((raftHandleInstallSnapshotRequest__ lastTwo {} oldLeader).state.core {}).termAt
        lastTwo.lastIndex = some 1 :=
  ⟨⟨by decide, by decide, by decide, by decide, by decide⟩, lastTwo_fromLeader, rfl, by decide, rfl⟩

end Ovsgw.Cluster
