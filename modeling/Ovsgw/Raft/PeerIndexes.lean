/-
  **What a leader believes about the logs of the other servers.**

  A leader keeps for each server the index of the next entry to send and the
  index up to which the logs agree.  Both should lie within its own log, or
  `raft_send_append_request` reads outside the array of entries.

  They do in every run in which

    * a reply never acknowledges entries that the leader does not have,
    * no reply reports an inconsistency when `next_index` is 1 already, and
    * a server that cuts its log has no unfinished addition from an earlier
      leadership, which could then point past the end of the log.

  The last two are not guaranteed by the code.
-/
import Ovsgw.Raft.Runs

namespace Ovsgw.Cluster

open List

/-! ## 1. The indexes of a server -/

/-- The fields of a `struct raft_server` that are indexes, with its ID. -/
structure PeerIndex where
  sid : Uuid
  nextIndex : Nat
  matchIndex : Nat

def Server.index (s : Server) : PeerIndex :=
  { sid := s.sid, nextIndex := s.nextIndex, matchIndex := s.matchIndex }

/-- The fields of `struct raft` that bear on the indexes. -/
structure Indexes where
  role : Role
  sid : Uuid
  logStart : Nat
  length : Nat
  servers : List PeerIndex
  addServers : List PeerIndex
  removeServer : Option PeerIndex

def Raft.indexes (r : Raft) : Indexes :=
  { role := r.role
    sid := r.sid
    logStart := r.logStart
    length := r.entries.length
    servers := r.servers.map Server.index
    addServers := r.addServers.map Server.index
    removeServer := r.removeServer.map Server.index }

/-- `raft_send_append_request` reads an entry that is not there. -/
def Outside (f : Fault) : Prop := f = .access .raftSendAppendRequest

/-- A function that changes none of the indexes. -/
abbrev Still (m : M α) : Prop := Quiet Raft.indexes Outside m

variable {f : Server → Server} {ref : ServerRef} {comment : Option String} {src sid : Uuid}
  {rq : AppendRequest} {rpc : Rpc} {term electionTimer minIndex index : Nat} {data : Option Json}
  {eid : Option Uuid} {servers : Option Servers} {success : Bool} {entries : List Entry} {w : Written}

section

variable (hf : ∀ s, (f s).index = s.index)
include hf

theorem map_index_updateServer (servers : List Server) (sid : Uuid) :
    (updateServer servers sid f).map Server.index = servers.map Server.index := by
  rw [updateServer, map_map]
  refine map_congr_left fun s _ => ?_
  by_cases hs : s.sid = sid <;> simp [hs, hf]

theorem indexes_updateServers (sid : Uuid) (r : Raft) :
    Raft.indexes { r with servers := updateServer r.servers sid f } = r.indexes := by
  simp only [Raft.indexes, map_index_updateServer hf]

theorem indexes_assign (ref : ServerRef) (r : Raft) : (r.assign ref f).indexes = r.indexes := by
  have hremove : (r.removeServer.map fun s => if s.sid = ref.sid then f s else s).map
      Server.index = r.removeServer.map Server.index := by
    cases r.removeServer with
    | none => rfl
    | some s => by_cases hs : s.sid = ref.sid <;> simp [hs, hf]
  cases ref with
  | peer sid =>
    simp only [Raft.assign]
    split
    · exact indexes_updateServers hf sid r
    · exact congrArg (fun removeServer => { r.indexes with removeServer }) hremove
  | new sid =>
    simp only [Raft.assign]
    split
    · simp only [Raft.indexes, map_index_updateServer hf]
    · exact indexes_updateServers hf sid r

end

/-! ## 2. Functions that change no index -/

theorem Within.of_calm {m : M α} (h : Within calm m) : Still m := by
  intro _ env r _
  obtain ⟨-, hkept, hfault⟩ := h env r
  cases hres : (m env r).result with
  | error f => exact fun hout => hfault f hres ⟨_, hout⟩
  | ok a =>
    have hkept : (m env r).state.kept =
        { r.kept with commands := (m env r).state.commands } := hkept
    have hindexes : ∀ r : Raft, r.indexes =
        { role := r.kept.role, sid := r.kept.sid, logStart := r.kept.logStart
          length := r.kept.entries.length, servers := r.kept.servers.map Server.index
          addServers := r.kept.addServers.map Server.index
          removeServer := r.kept.removeServer.map Server.index } := fun _ => rfl
    show (m env r).state.indexes = r.indexes
    rw [hindexes, hindexes, hkept]

theorem Within.still {m : M α} (h : Within mild m) : Still m := (h.of_mild calm_mild).of_calm

theorem Light.still {α : Type} {m : M α} (h : Light mild m) : Still m := h.within.still

theorem still_assign (hf : ∀ s, (f s).index = s.index) : Still (modify (·.assign ref f)) :=
  .modify (indexes_assign hf ref)

theorem still_updateServers (hf : ∀ s, (f s).index = s.index) :
    Still (modify fun r => { r with servers := updateServer r.servers sid f }) :=
  .modify (indexes_updateServers hf sid)

theorem not_outside_assert (site : Site) : ¬ Outside (.assert site) := by
  rintro ⟨⟩

theorem not_outside_overflow : ¬ Outside .overflow := by
  rintro ⟨⟩

theorem still_raftSendInstallSnapshotRequest :
    Still (raftSendInstallSnapshotRequest ref comment) := by
  have hfault : ∀ {α : Type}, Still (fault (.access .raftSendInstallSnapshotRequest) : M α) :=
    .fault (by rintro ⟨⟩)
  refine .bind .get fun r => ?_
  cases r.deref ref with
  | none => exact hfault
  | some server =>
    refine .ite (.pure _) ?_
    cases r.snap.servers with
    | none => exact hfault
    | some lastServers =>
      cases r.snap.data with
      | none => exact hfault
      | some data =>
        exact .bind mild_raftSend.still fun _ => still_assign fun _ => rfl

theorem still_reportCommitted : Still reportCommitted := by
  refine .bind .get fun _ => .forEach fun s _ => .ite ?_ (.pure _)
  exact .bind light_raftSendAddServerReply__.still fun _ => still_updateServers fun _ => rfl

theorem still_raftGetEntry : Still (raftGetEntry index) :=
  (within_raftGetEntry (calm_assert _)).of_calm

theorem still_raftGetEid : Still (raftGetEid index) := (within_raftGetEid (calm_assert _)).of_calm

theorem still_raftCurrentEid : Still raftCurrentEid :=
  (within_raftCurrentEid (calm_assert _)).of_calm

theorem still_commitOneAsFollower : Still commitOneAsFollower :=
  .bind (.modify fun _ => rfl) fun _ => .bind .get fun _ => .bind still_raftGetEntry fun _ =>
    .ite (.modify fun _ => rfl) (.pure _)

theorem still_raftHandleVoteRequest {rq : VoteRequest} : Still (raftHandleVoteRequest src rq) := by
  refine .bind (.bind .get fun _ => ?_) fun _ => .ite ?_ (.pure _)
  · refine .ite (.pure _) (.ite (.pure _) (.ite (.pure _) (.bind (.emit _) fun _ => ?_)))
    refine .bind mild_raftSetTerm.still fun _ => .ite (.pure _) ?_
    exact .bind light_raftResetElectionTimer.still fun _ => .pure _
  · exact .bind .get fun _ => .bind mild_raftSend.still fun _ => .pure _

theorem still_raftSaveSnapshot {newStart : Nat} {snap : Entry} :
    Still (raftSaveSnapshot newStart snap) :=
  .bind .getEnv fun _ => .ite (.pure _) (.bind (.modify fun _ => rfl) fun _ => .pure _)

theorem still_skipApplied {n : Nat} : Still (skipApplied n) := by
  induction n with
  | zero => exact .pure _
  | succ n ih =>
    refine .bind .get fun _ => .bind still_raftGetEntry fun e => ?_
    cases e.data with
    | none => exact .bind (.modify fun _ => rfl) fun _ => ih
    | some data => exact .pure _

theorem still_raftPeekNextEntry : Still raftPeekNextEntry :=
  .bind .get fun _ => .bind (.assert (not_outside_assert _)) fun _ =>
    .bind (.assert (not_outside_assert _)) fun _ => .bind (.assert (not_outside_assert _)) fun _ =>
    .ite (.pure _) (.ite (.pure _) still_skipApplied)

theorem still_raftGetNextEntry : Still raftGetNextEntry := by
  refine .bind still_raftPeekNextEntry fun entry => ?_
  exact .when (.modify fun _ => rfl) (.pure _)

theorem still_raftWaiterCompleteRpc : Still (raftWaiterCompleteRpc rpc) :=
  .bind .get fun _ => .ite (.pure _) (.ite (.pure _)
    (.ite (.bind mild_raftSendToConn.still fun _ => .pure _) (.pure _)))

theorem still_runConnected : Still (runConnected sid) := 
  .bind (still_updateServers fun _ => rfl) fun _ => .bind .get fun _ =>
    .bind mild_raftSendToConn.still fun _ => .pure _

/-! ## 3. Bounds -/

def Indexes.logEnd (v : Indexes) : Nat := v.logStart + v.length

/-- The bounds of a server in `servers` or `remove_server`, kept by the server `owner`.  The
    leader's own match index follows the disk and is not bounded here. -/
structure PeerIndex.Ok (role : Role) (owner : Uuid) (logEnd : Nat) (p : PeerIndex) : Prop where
  positive : 1 ≤ p.nextIndex
  next : role = .leader → p.nextIndex ≤ logEnd
  matched : role = .leader → p.sid ≠ owner → p.matchIndex < logEnd

/-- The bounds of a server in `add_servers`, which outlive a leadership. -/
structure PeerIndex.OkNew (logEnd : Nat) (p : PeerIndex) : Prop where
  positive : 1 ≤ p.nextIndex
  next : p.nextIndex ≤ logEnd
  matched : p.matchIndex < logEnd

structure Indexes.Bounded (v : Indexes) : Prop where
  start : 1 ≤ v.logStart
  servers : ∀ p ∈ v.servers, p.Ok v.role v.sid v.logEnd
  addServers : ∀ p ∈ v.addServers, p.OkNew v.logEnd
  removeServer : ∀ p, v.removeServer = some p → p.Ok v.role v.sid v.logEnd
  idle : v.role ≠ .leader → v.removeServer = none

abbrev Raft.Bounded (r : Raft) : Prop := r.indexes.Bounded

namespace PeerIndex

variable {role role' : Role} {owner : Uuid} {logEnd logEnd' : Nat} {p : PeerIndex}

theorem Ok.mono (h : p.Ok role owner logEnd) (hend : logEnd ≤ logEnd')
    (hlead : role' = .leader → role = .leader) : p.Ok role' owner logEnd' where
  positive := h.positive
  next hrole := Nat.le_trans (h.next (hlead hrole)) hend
  matched hrole hne := Nat.lt_of_lt_of_le (h.matched (hlead hrole) hne) hend

theorem OkNew.mono (h : p.OkNew logEnd) (hend : logEnd ≤ logEnd') : p.OkNew logEnd' :=
  ⟨h.positive, Nat.le_trans h.next hend, Nat.lt_of_lt_of_le h.matched hend⟩

theorem OkNew.ok (h : p.OkNew logEnd) : p.Ok role owner logEnd :=
  ⟨h.positive, fun _ => h.next, fun _ _ => h.matched⟩

end PeerIndex

variable {v : Indexes} {r : Raft} {length : Nat}

theorem Indexes.Bounded.of_eq (h : v.Bounded) (heq : r.indexes = v) : r.Bounded := by
  show r.indexes.Bounded
  rwa [heq]

theorem Indexes.Bounded.mono {role : Role} {logStart : Nat} (h : v.Bounded)
    (hstart : 1 ≤ logStart) (hend : v.logEnd ≤ logStart + length)
    (hlead : role = .leader → v.role = .leader) (hidle : role ≠ .leader → v.removeServer = none) :
    Indexes.Bounded { v with role, logStart, length } where
  start := hstart
  servers p hp := (h.servers p hp).mono hend hlead
  addServers p hp := (h.addServers p hp).mono hend
  removeServer p hp := (h.removeServer p hp).mono hend hlead
  idle := hidle

/-- The servers that a leader keeps indexes for. -/
def Raft.tracked (r : Raft) : List Server := r.servers ++ r.addServers ++ r.removeServer.toList

/-- The reply of `src` moves `next_index` and `match_index` within the log. -/
def AppendReply.Fits (rpy : AppendReply) (src : Uuid) (r : Raft) : Prop :=
  if rpy.result = .ok then
    1 ≤ u64 (rpy.prevLogIndex + rpy.nEntries + 1) ∧
      u64 (rpy.prevLogIndex + rpy.nEntries + 1) ≤ r.logEnd
  else
    1 ≤ rpy.logEnd ∧ ∀ s ∈ r.tracked, s.sid = src → 2 ≤ s.nextIndex

/-- Replies fit the log of the leader, and a server that cuts its log has no unfinished addition
    from an earlier leadership. -/
def repliesFit : Rule where
  event
    | .appendReply src rpy r => rpy.Fits src r
    | .truncate _ r => r.addServers = []
    | _ => True

abbrev Keeps (m : M α) : Prop := Preserves repliesFit.event Outside Raft.Bounded m

theorem Quiet.keeps {m : M α} (h : Still m) : Keeps m := h.preserves

/-! ## 4. Sending -/

variable {r' : Raft}

theorem logEnd_eq_of_indexes_eq (h : r'.indexes = r.indexes) : r'.logEnd = r.logEnd := by
  have hstart : r'.logStart = r.logStart := congrArg Indexes.logStart h
  have hlength : r'.entries.length = r.entries.length := congrArg Indexes.length h
  rw [Raft.logEnd, Raft.logEnd, hstart, hlength]

section
variable {ok : Event → Prop} {env : Env} {r : Raft} {peer : Server}

theorem ensures_raftSendAppendRequest {n : Nat}
    (h : r.role = .leader → 1 ≤ peer.nextIndex ∧ peer.nextIndex ≤ r.logEnd ∧
      (n ≠ 0 → r.logStart ≤ peer.nextIndex ∧ peer.nextIndex + n ≤ r.logEnd)) :
    Ensures ok Outside env (raftSendAppendRequest peer n comment) r
      (fun _ r' => r'.indexes = r.indexes) := by
  unfold raftSendAppendRequest
  refine .get_bind (.assert_bind (not_outside_assert _) fun hrole => ?_)
  obtain ⟨hlow, hhigh, hn⟩ := h hrole
  refine .when (P := fun r' => r = r') (fun hzero => ?_) (fun _ => rfl) ?_
  · omega
  rintro _ rfl
  refine .choose (P := fun _ r' => r = r') (fun hstart => ?_) (fun _ => .pure rfl) ?_
  · obtain ⟨e, he⟩ := r.entryAt?_eq_some hstart (show peer.nextIndex - 1 < r.logEnd by omega)
    refine .bind (Q := fun _ r' => r = r') (.get_bind ?_) ?_
    · rw [he]
      exact .pure rfl
    · rintro _ _ rfl
      exact .pure rfl
  rintro prevLogTerm _ rfl
  refine .when (P := fun r' => r = r') (fun hout => absurd (hn hout.1) hout.2) (fun _ => rfl) ?_
  rintro _ rfl
  exact .bind (mild_raftSend.still ok env r) fun _ _ hs => .pure hs

theorem ensures_heartbeat (h : peer.index.Ok r.role r.sid r.logEnd) :
    Ensures ok Outside env (raftSendAppendRequest peer 0 comment) r
      (fun _ r' => r'.indexes = r.indexes) :=
  ensures_raftSendAppendRequest fun hrole =>
    ⟨h.positive, h.next hrole, fun hn => absurd rfl hn⟩

end

theorem keeps_raftSendHeartbeats : Keeps raftSendHeartbeats := by
  intro env r hr
  refine .get_bind (.bind (Q := fun _ => Raft.Bounded) ?_ fun _ r1 hr1 => ?_)
  · refine (Ensures.forEach (P := fun r' => r'.indexes = r.indexes) rfl ?_).weaken ?_
    · intro s hs r' hr'
      refine .ite (fun _ => ?_) fun _ => .pure hr'
      refine (ensures_heartbeat ?_).weaken fun _ _ h => h.trans hr'
      show s.index.Ok r'.indexes.role r'.indexes.sid r'.indexes.logEnd
      rw [hr']
      exact hr.servers _ (mem_map_of_mem hs)
    · intro _ r' hr'
      exact hr.of_eq hr'
  · refine Quiet.keeps (.bind (.forEach fun cmd _ => .ite ?_ (.pure _)) fun _ =>
      light_raftResetPingTimer.still) env r1 hr1
    exact light_raftSendExecuteCommandReply.still

/-! ## 5. Commands -/

theorem Indexes.Bounded.grow (h : v.Bounded)
    (hlength : v.length ≤ length) : Indexes.Bounded { v with length } :=
  h.mono h.start (Nat.add_le_add_left hlength _) id h.idle

variable {ok : Event → Prop} {env : Env}

/-- `raft_add_entry` adds one entry. -/
theorem ensures_raftWriteEntry :
    Ensures ok Outside env (raftWriteEntry term data eid servers electionTimer) r
      (fun _ r' => r'.indexes = { r.indexes with length := r.entries.length + 1 }) := by
  refine .bind (Q := fun _ r' => r'.indexes = { r.indexes with length := r.entries.length + 1 })
    ?_ fun _ r' hr' => (mild_ovsdbLogWrite.still ok env r').weaken fun _ _ h => h.trans hr'
  unfold raftAddEntry
  refine .get_bind (.when (P := fun r' => r = r') (fun _ => .fault not_outside_overflow)
    (fun _ => rfl) ?_)
  rintro _ rfl
  refine .modify_bind (.pure ?_)
  simp only [Raft.indexes, length_append, length_cons, length_nil]

theorem keeps_raftWriteEntry : Keeps (raftWriteEntry term data eid servers electionTimer) := by
  intro env r hr
  refine ensures_raftWriteEntry.weaken fun _ r' h => ?_
  exact (hr.grow (Nat.le_succ _)).of_eq h

/-- The loop that writes to remote logs: the entry `index` is the last of the
    log, so `next_index` moves at most to its end. -/
theorem ensures_announceToServers (rest : List Server) :
    ∀ {visited : List Server} {r : Raft}, r.Bounded → r.servers = visited ++ rest →
      index + 1 = r.logEnd → r.logStart ≤ index →
      Ensures repliesFit.event Outside env (announceToServers index visited rest) r
        (fun _ => Raft.Bounded) := by
  induction rest with
  | nil => exact fun hr _ _ _ => .pure hr
  | cons s rest ih =>
    intro visited r hr hservers hend hstart
    refine .get_bind (.ite (fun hs => ?_) fun _ => ih hr (by simp [hservers]) hend hstart)
    refine .bind (ensures_raftSendAppendRequest fun _ => ?_) fun _ r1 h1 => .modify_bind ?_
    · rw [hs.2]
      have hone : 1 ≤ r.logStart := hr.start
      exact ⟨Nat.le_trans hone hstart, by omega, fun _ => ⟨hstart, by omega⟩⟩
    have hend1 : index + 1 = r1.logEnd := by rw [logEnd_eq_of_indexes_eq h1, hend]
    have hstart1 : r1.logStart = r.logStart := congrArg Indexes.logStart h1
    have hr1 : r1.Bounded := hr.of_eq h1
    refine ih ?_ (by simp) hend1 (by show r1.logStart ≤ index; rw [hstart1]; exact hstart)
    have hold : ∀ s' ∈ r.servers, s'.index.Ok r1.indexes.role r1.indexes.sid r1.indexes.logEnd := by
      intro s' hs'
      rw [h1]
      exact hr.servers _ (mem_map_of_mem hs')
    rw [hservers] at hold
    refine ⟨hr1.start, forall_mem_map.mpr fun s' hs' => ?_, hr1.addServers, hr1.removeServer,
      hr1.idle⟩
    rcases mem_append.mp hs' with hs' | hs'
    · exact hold s' (mem_append_left _ hs')
    · rcases mem_cons.mp hs' with rfl | hs'
      · have hok := hold s (mem_append_right _ mem_cons_self)
        refine ⟨Nat.le_add_left _ _, fun _ => ?_, hok.matched⟩
        show s.nextIndex + 1 ≤ r1.logEnd
        rw [hs.2]
        exact Nat.le_of_eq hend1
      · exact hold s' (mem_append_right _ (mem_cons_of_mem _ hs'))

theorem keeps_raftCommandInitiate {eid : Uuid} :
    Keeps (raftCommandInitiate data servers electionTimer eid) := by
  intro env r hr
  refine .get_bind (.bind ensures_raftWriteEntry fun ok r1 h1 => ?_)
  have hr1 : r1.Bounded := (hr.grow (Nat.le_succ _)).of_eq h1
  refine .bind (light_raftHandleWriteError.still _ env r1) fun _ r2 h2 => ?_
  refine .ite (fun _ => .pure ?_) fun _ => .getEnv_bind (.modify_bind ?_)
  · exact hr1.of_eq h2
  refine .bind (mild_raftWaiterCreate.still _ env _) fun _ r3 h3 => .get_bind ?_
  have hview : r3.indexes = { r.indexes with length := r.entries.length + 1 } :=
    h3.trans (h2.trans h1)
  have hr3 : r3.Bounded := hr1.of_eq (hview.trans h1.symm)
  have hstart : r3.logStart = r.logStart := congrArg Indexes.logStart hview
  have hlength : r3.entries.length = r.entries.length + 1 := congrArg Indexes.length hview
  refine .bind (ensures_announceToServers r3.servers hr3 rfl ?_ ?_) fun _ r4 hr4 => ?_
  · rw [Raft.logEnd, Raft.logEnd, hstart, hlength, Nat.add_assoc]
  · rw [hstart]
    exact Nat.le_add_right _ _
  · exact Quiet.keeps (.bind light_raftResetPingTimer.still fun _ => .pure _) env r4 hr4

theorem keeps_raftCommandExecute__ {prereq : Option Uuid} :
    Keeps (raftCommandExecute__ data servers electionTimer prereq) := by
  refine .bind .get fun r => .ite (.pure _) (.ite ?_ ?_)
  · cases data with
    | none => exact .pure _
    | some data =>
      cases prereq with
      | none => exact .pure _
      | some prereq =>
        refine Quiet.keeps (.ite (.pure _) (.bind .getEnv fun _ => .bind mild_raftSend.still ?_))
        intro sent
        exact .ite (.pure _) (.bind .getEnv fun _ => .bind (.modify fun _ => rfl) fun _ => .pure _)
  · refine .bind .getEnv fun _ => .bind still_raftCurrentEid.keeps fun _ => .ite (.pure _) ?_
    refine .bind .get fun _ => .bind (.emit _) fun _ => ?_
    exact .bind keeps_raftCommandInitiate fun _ => .pure _

/-! ## 6. The set of servers -/

variable {s : Server} {logEnd : Nat}

theorem mem_setServers {old : List Server} {newServers : Servers}
    (h : s ∈ setServers logEnd old newServers) :
    s ∈ old ∨ ∃ n, s = raftServerInitLeader logEnd n := by
  have hfold : ∀ (rest : Servers) (servers : List Server),
      s ∈ rest.foldl (addMissing logEnd) servers →
        s ∈ servers ∨ ∃ n, s = raftServerInitLeader logEnd n := by
    intro rest
    induction rest with
    | nil => exact fun _ h => .inl h
    | cons n rest ih =>
      intro servers h
      rcases ih _ h with h | h
      · unfold addMissing at h
        split at h
        · exact .inl h
        · rcases mem_append.mp h with h | h
          · exact .inl h
          · exact .inr ⟨_, mem_singleton.mp h⟩
      · exact .inr h
  exact (hfold _ _ h).imp_left fun h => (mem_filter.mp h).1

/-- A server that `raft_server_init_leader` has just set up. -/
theorem okNew_raftServerInitLeader (hend : 1 ≤ logEnd) (s : Server) :
    (raftServerInitLeader logEnd s).index.OkNew logEnd :=
  ⟨hend, Nat.le_refl _, hend⟩

theorem Raft.Bounded.one_le_logEnd (h : r.Bounded) : 1 ≤ r.logEnd :=
  Nat.le_trans h.start (Nat.le_add_right _ _)

theorem keeps_raftGetServersFromLog : Keeps raftGetServersFromLog := by
  intro env r hr
  refine .getEnv_bind (.get_bind ?_)
  cases latestServers r.snap.servers r.entries with
  | none => exact .fault (not_outside_assert _)
  | some servers =>
    refine .assert_bind (not_outside_assert _) fun _ => .modify ?_
    refine ⟨hr.start, forall_mem_map.mpr fun s hs => ?_, hr.addServers, hr.removeServer, hr.idle⟩
    rcases mem_setServers hs with hs | ⟨n, rfl⟩
    · exact hr.servers _ (mem_map_of_mem hs)
    · exact (okNew_raftServerInitLeader hr.one_le_logEnd n).ok

theorem Indexes.Bounded.withoutRemoved (h : v.Bounded) :
    Indexes.Bounded { v with removeServer := none } :=
  ⟨h.start, h.servers, h.addServers, by rintro _ ⟨⟩, fun _ => rfl⟩

theorem ensures_reportRemoved {comment : String} :
    Ensures ok Outside env (reportRemoved success comment) r
      (fun _ r' => r'.indexes = { r.indexes with removeServer := none }) := by
  refine .get_bind ?_
  cases hremove : r.removeServer with
  | none =>
    refine .pure ?_
    simp only [Raft.indexes, hremove, Option.map_none]
  | some s =>
    refine .bind (light_raftSendRemoveServerReply__.still ok env r) fun _ r1 h1 => .modify ?_
    exact congrArg (fun v : Indexes => { v with removeServer := none }) h1

theorem keeps_reportRemoved {comment : String} : Keeps (reportRemoved success comment) := by
  intro env r hr
  refine ensures_reportRemoved.weaken fun _ r' h => ?_
  exact hr.withoutRemoved.of_eq h

theorem keeps_raftLogReconfiguration : Keeps raftLogReconfiguration :=
  .bind .get fun _ => .bind keeps_raftCommandExecute__ fun _ => .pure _

theorem keeps_raftRunReconfigure : Keeps raftRunReconfigure := by
  intro env r0 hr0
  refine .get_bind (.assert_bind (not_outside_assert _) fun hrole0 => ?_)
  have hstill : Still raftHasUncommittedConfiguration :=
    (within_raftHasUncommittedConfiguration (calm_assert _)).of_calm
  refine .bind (hstill _ env r0) fun _ r1 h1 => .ite (fun _ => ?_)
    fun _ => ?_
  · exact .pure (hr0.of_eq h1)
  refine .bind (still_reportCommitted _ env r1) fun _ r2 h2 => ?_
  refine .bind ensures_reportRemoved fun _ r h => .get_bind ?_
  have hview : r.indexes = { r0.indexes with removeServer := none } := by rw [h, h2, h1]
  have hr : r.Bounded := hr0.withoutRemoved.of_eq hview
  have hrole : r.role = .leader := (congrArg Indexes.role hview).trans hrole0
  cases hadd : r.addServers.find? (·.phase == .caughtUp) with
  | some s =>
    refine .emit_bind fun _ => .modify_bind (keeps_raftLogReconfiguration env _ ?_)
    have hs := hr.addServers _ (mem_map_of_mem (mem_of_find?_eq_some hadd))
    refine ⟨hr.start, forall_mem_map.mpr fun s' hs' => ?_, forall_mem_map.mpr fun s' hs' => ?_,
      hr.removeServer, hr.idle⟩
    · rcases mem_append.mp hs' with hs' | hs'
      · exact hr.servers _ (mem_map_of_mem hs')
      · rw [mem_singleton.mp hs']
        exact hs.ok
    · exact hr.addServers _ (mem_map_of_mem (mem_of_mem_erase hs'))
  | none =>
    cases hremove : r.servers.find? (·.phase == .remove) with
    | none => exact .pure hr
    | some s =>
      refine .emit_bind fun _ => .modify_bind (keeps_raftLogReconfiguration env _ ?_)
      refine ⟨hr.start, forall_mem_map.mpr fun s' hs' => ?_, hr.addServers, ?_,
        fun hne => absurd hrole hne⟩
      · exact hr.servers _ (mem_map_of_mem (mem_of_mem_erase hs'))
      · rintro _ ⟨⟩
        exact hr.servers _ (mem_map_of_mem (mem_of_find?_eq_some hremove))

/-! ## 7. The commit index and the match index -/

theorem keeps_commitOneAsLeader : Keeps commitOneAsLeader := by
  refine .bind (.modify fun _ h => h) fun _ => .bind .get fun _ => ?_
  refine .bind still_raftGetEntry.keeps fun e => ?_
  unfold leaderCommitted
  refine .when light_completeByEid.within.of_calm.keeps (.when (.modify fun _ h => h) ?_)
  exact .ite keeps_raftRunReconfigure (.pure _)

theorem keeps_raftUpdateCommitIndex {newCommitIndex : Nat} :
    Keeps (raftUpdateCommitIndex newCommitIndex) := by
  refine .bind .get fun r => .ite (.pure _) (.ite ?_ ?_)
  · exact .bind (.repeatM _ keeps_commitOneAsLeader) fun _ => mild_recordCommitIndex.still.keeps
  · refine .bind (.repeatM _ still_commitOneAsFollower.keeps) fun _ => ?_
    exact .bind still_raftGetEid.keeps fun _ =>
      .bind light_completeByEid.within.of_calm.keeps fun _ =>
        mild_recordCommitIndex.still.keeps

theorem keeps_raftConsiderUpdatingCommitIndex : Keeps raftConsiderUpdatingCommitIndex :=
  .bind .get fun _ => .bind (.assert (not_outside_assert _)) fun _ =>
    .bind keeps_raftUpdateCommitIndex fun _ => .ite keeps_raftSendHeartbeats (.pure _)

/-- An assignment through a pointer.  Every server that it may reach has the
    bounds of a server in `servers`. -/
theorem Raft.Bounded.assign (h : r.Bounded) (ref : ServerRef)
    (hpeer : ∀ s ∈ r.servers ++ r.removeServer.toList, s.sid = ref.sid →
      s.index.Ok r.role r.sid r.logEnd → (f s).index.Ok r.role r.sid r.logEnd)
    (hnew : ∀ sid, ref = .new sid → ∀ s ∈ r.addServers, s.sid = sid →
      s.index.OkNew r.logEnd → (f s).index.OkNew r.logEnd) :
    (r.assign ref f).Bounded := by
  have hservers : ∀ p ∈ (updateServer r.servers ref.sid f).map Server.index,
      p.Ok r.role r.sid r.logEnd := by
    refine forall_mem_map.mpr (forall_mem_map.mpr fun s hs => ?_)
    have hok := h.servers _ (mem_map_of_mem hs)
    split
    · exact hpeer s (mem_append_left _ hs) ‹_› hok
    · exact hok
  cases ref with
  | peer sid =>
    simp only [Raft.assign]
    split
    · exact ⟨h.start, hservers, h.addServers, h.removeServer, h.idle⟩
    · refine ⟨h.start, h.servers, h.addServers, ?_, fun hrole => ?_⟩
      · intro p hp
        simp only [Raft.indexes, Option.map_map, Option.map_eq_some_iff] at hp
        obtain ⟨s, hs, rfl⟩ := hp
        have hok := h.removeServer s.index (by simp [Raft.indexes, hs])
        simp only [Function.comp]
        split
        · exact hpeer s (mem_append_right _ (by simp [hs])) ‹_› hok
        · exact hok
      · have hnone := h.idle hrole
        simp only [Raft.indexes, Option.map_eq_none_iff] at hnone ⊢
        exact hnone
  | new sid =>
    simp only [Raft.assign]
    split
    · refine ⟨h.start, h.servers, forall_mem_map.mpr (forall_mem_map.mpr fun s hs => ?_),
        h.removeServer, h.idle⟩
      have hok := h.addServers _ (mem_map_of_mem hs)
      split
      · exact hnew sid rfl s hs ‹_› hok
      · exact hok
    · exact ⟨h.start, hservers, h.addServers, h.removeServer, h.idle⟩

theorem Raft.Bounded.assignNext (h : r.Bounded) (ref : ServerRef) {g : Nat → Nat}
    (hlow : ∀ s ∈ r.tracked, s.sid = ref.sid → 1 ≤ s.nextIndex → 1 ≤ g s.nextIndex)
    (hhigh : ∀ n ≤ r.logEnd, g n ≤ r.logEnd) :
    (r.assign ref fun s => { s with nextIndex := g s.nextIndex }).Bounded := by
  refine h.assign ref (fun s hs hsid hok => ⟨hlow s ?_ hsid hok.positive, fun hrole => ?_,
    hok.matched⟩) ?_
  · simp only [Raft.tracked, mem_append] at hs ⊢
    exact hs.imp_left .inl
  · exact hhigh _ (hok.next hrole)
  · rintro _ rfl s hs hsid hok
    exact ⟨hlow s (mem_append_left _ (mem_append_right _ hs)) hsid hok.positive,
      hhigh _ hok.next, hok.matched⟩

theorem ensures_raftUpdateMatchIndex (hr : r.Bounded)
    (h : ref = .peer r.sid ∨ minIndex < r.logEnd) :
    Ensures repliesFit.event Outside env (raftUpdateMatchIndex ref minIndex) r
      (fun _ => Raft.Bounded) := by
  refine .get_bind (.assert_bind (not_outside_assert _) fun _ => ?_)
  cases r.deref ref with
  | none => exact .fault (by rintro ⟨⟩)
  | some server =>
    refine .ite (fun _ => .modify_bind (keeps_raftConsiderUpdatingCommitIndex env _ ?_))
      fun _ => .pure hr
    refine hr.assign ref (fun s _ hsid hs => ⟨hs.positive, hs.next, fun hrole hne => ?_⟩) ?_
    · rcases h with rfl | h
      · exact absurd hsid hne
      · exact h
    · rintro sid rfl s _ _ hs
      refine ⟨hs.positive, hs.next, ?_⟩
      rcases h with h | h
      · cases h
      · exact h

theorem keeps_raftUpdateOurMatchIndex : Keeps (raftUpdateOurMatchIndex minIndex) := by
  intro env r hr
  refine .get_bind (.ite (fun _ => ?_) fun _ => .pure hr)
  exact ensures_raftUpdateMatchIndex hr (.inl rfl)

/-! ## 8. Roles -/

theorem keeps_raftBecomeFollower : Keeps raftBecomeFollower := by
  intro env r hr
  refine .modify_bind (.get_bind (.ite (fun _ => .pure hr) fun _ => .modify_bind ?_))
  refine .bind (light_raftResetElectionTimer.still _ env _) fun _ r1 h1 => .get_bind ?_
  refine .bind (Quiet.forEach (fun s _ => light_raftSendAddServerReply__.still) _ env r1)
    fun _ r2 h2 => ?_
  refine .bind ensures_reportRemoved fun _ r3 h3 => ?_
  refine light_raftCompleteAllCommands.within.of_calm.keeps env r3 ?_
  have hview : r3.indexes = { r.indexes with role := .follower, removeServer := none } := by
    rw [h3, h2, h1]
    rfl
  refine Indexes.Bounded.of_eq ?_ hview
  exact hr.withoutRemoved.mono hr.start (Nat.le_refl _) (by rintro ⟨⟩) fun _ => rfl

/-- `raftServerInitLeader` for indexes. -/
def PeerIndex.initLeader (logEnd : Nat) (p : PeerIndex) : PeerIndex :=
  { p with nextIndex := logEnd, matchIndex := 0 }

theorem ensures_enterLeaderRole : Ensures ok Outside env enterLeaderRole r (fun _ r' => r'.indexes =
      { r.indexes with
        role := .leader
        servers := r.indexes.servers.map (.initLeader r.logEnd) }) := by
  refine .modify_bind (.get_bind (.bind (Q := fun _ r' => r'.indexes =
    { r.indexes with role := .leader }) (.modify rfl) fun _ r1 h1 => ?_))
  refine .bind (light_raftResetElectionTimer.still ok env r1) fun _ r2 h2 => ?_
  refine .bind (light_raftResetPingTimer.still ok env r2) fun _ r3 h3 => .modify ?_
  have hview : r3.indexes = { r.indexes with role := .leader } := h3.trans (h2.trans h1)
  have hend : r3.logEnd = r.logEnd :=
    logEnd_eq_of_indexes_eq (r := { r with role := .leader }) hview
  have hservers : (r3.servers.map (raftServerInitLeader r3.logEnd)).map Server.index =
      r.indexes.servers.map (.initLeader r.logEnd) := by
    have hsame : r.indexes.servers = r3.servers.map Server.index :=
      (congrArg Indexes.servers hview).symm
    rw [hsame, hend, map_map, map_map]
    rfl
  show { r3.indexes with
    servers := (r3.servers.map (raftServerInitLeader r3.logEnd)).map Server.index } = _
  rw [hservers, hview]

/-- All servers start with the bounds of a new leader; the unfinished additions have them
    already. -/
theorem keeps_raftBecomeLeader : Keeps raftBecomeLeader := by
  intro env r hr
  refine .get_bind (.emit_bind fun _ => .assert_bind (not_outside_assert _) fun hrole => ?_)
  refine .bind ensures_enterLeaderRole fun _ r1 h1 => .get_bind ?_
  have hr1 : r1.Bounded := by
    refine Indexes.Bounded.of_eq ?_ h1
    have hidle : r.indexes.removeServer = none := hr.idle hrole
    refine ⟨hr.start, forall_mem_map.mpr fun _ _ => ?_, hr.addServers, fun p hp => ?_,
      fun h => absurd rfl h⟩
    · exact ⟨hr.one_le_logEnd, fun _ => Nat.le_refl _, fun _ _ => hr.one_le_logEnd⟩
    · rw [show r.indexes.removeServer = some p from hp] at hidle
      cases hidle
  refine .bind (keeps_raftUpdateOurMatchIndex env r1 hr1) fun _ r2 hr2 => .get_bind ?_
  refine .bind (mild_ovsdbLogWrite.still.keeps env r2 hr2) fun _ r3 hr3 => ?_
  exact .bind (keeps_raftCommandExecute__ env r3 hr3) fun _ _ hr4 => .pure hr4

theorem keeps_raftAcceptVote {voter : Server} {vote : Uuid} :
    Keeps (raftAcceptVote voter vote) := by
  refine .ite (.pure _) (.bind (Quiet.keeps (still_updateServers fun _ => rfl)) fun _ =>
    .bind .get fun _ => ?_)
  refine .ite (.bind (.modify fun _ h => h) fun _ => ?_) (.pure _)
  exact .ite keeps_raftBecomeLeader (.pure _)

theorem keeps_raftStartElection {leadershipTransfer : Bool} :
    Keeps (raftStartElection leadershipTransfer) := by
  intro env r hr
  refine .get_bind (.ite (fun _ => .pure hr) fun _ => .ite (fun _ => .pure hr) fun _ => ?_)
  refine .emit_bind fun _ => .bind (mild_raftSetTerm.still _ env r) fun _ r1 h1 => ?_
  have hr1 : r1.Bounded := hr.of_eq h1
  refine .ite (fun _ => .pure hr1) fun _ => ?_
  refine .assert_bind (not_outside_assert _) fun hrole => .modify_bind ?_
  have hrole1 : r1.role ≠ .leader := by
    have hsame : r1.role = r.role := congrArg Indexes.role h1
    rwa [hsame]
  refine .bind (light_raftResetElectionTimer.still.keeps env _ ?_) fun _ r2 hr2 => ?_
  · exact hr1.mono hr1.start (Nat.le_refl _) (by rintro ⟨⟩) fun _ => hr1.idle hrole1
  refine .bind (Preserves.forEach (fun peer _ => ?_) env r2 hr2) fun _ r3 hr3 => .get_bind ?_
  · refine Quiet.keeps (.bind (still_updateServers fun _ => rfl) fun _ => .ite ?_ (.pure _))
    exact .bind .get fun _ => .bind mild_raftSend.still fun _ => .pure _
  · cases raftFindServer r3 r.sid with
    | none => exact .pure hr3
    | some me => exact keeps_raftAcceptVote env r3 hr3

theorem keeps_raftReceiveTerm__ : Keeps (raftReceiveTerm__ term) := by
  refine .bind .get fun _ => .ite (.bind mild_raftSetTerm.still.keeps fun _ => ?_) (.pure _)
  exact .ite (.pure _) (.bind keeps_raftBecomeFollower fun _ => .pure _)

theorem keeps_raftHandleVoteReply {rpy : VoteReply} : Keeps (raftHandleVoteReply src rpy) := by
  refine .bind keeps_raftReceiveTerm__ fun _ => .ite (.pure _) (.bind .get fun r => ?_)
  refine .ite (.pure _) ?_
  cases raftFindPeer r src with
  | none => exact .pure _
  | some s => exact keeps_raftAcceptVote

/-! ## 9. Replication -/

theorem keeps_raftSendAppendReply {result : AppendResult}
    {comment : String} : Keeps (raftSendAppendReply src rq result comment) := by
  have hsend := (mild_sendAppendReplyRpc src rq result comment).still.keeps
  refine .bind .get fun _ => .ite (.bind keeps_raftUpdateCommitIndex fun _ => hsend) hsend

/-- A server that is not the leader, with its bounds. -/
def Raft.Following (r : Raft) : Prop := r.Bounded ∧ r.role ≠ .leader

theorem Raft.Following.of_eq (hr : r.Following) (h : r'.indexes = r.indexes) : r'.Following := by
  have hsame : r'.role = r.role := congrArg Indexes.role h
  refine ⟨hr.1.of_eq h, ?_⟩
  rw [hsame]
  exact hr.2

theorem ensures_raftTruncate (hr : r.Following) {newEnd : Nat} :
    Ensures repliesFit.event Outside env (raftTruncate newEnd) r (fun _ => Raft.Following) := by
  refine .get_bind (.emit_bind fun hadd => .assert_bind (not_outside_assert _) fun _ =>
    .modify_bind (.pure ⟨?_, hr.2⟩))
  obtain ⟨hbounded, hrole⟩ := hr
  -- Only the unfinished additions have bounds that hold for a follower, and there are none.
  refine ⟨hbounded.start, fun p hp => ?_, forall_mem_map.mpr fun s hs => ?_, fun p hp => ?_,
    hbounded.idle⟩
  · exact ⟨(hbounded.servers p hp).positive, fun h => absurd h hrole, fun h => absurd h hrole⟩
  · rw [show r.addServers = [] from hadd] at hs
    cases hs
  · exact ⟨(hbounded.removeServer p hp).positive, fun h => absurd h hrole, fun h => absurd h hrole⟩

theorem ensures_skipPresent (hr : r.Following) (logIndex : Nat) (entries : List Entry) :
    Ensures repliesFit.event Outside env (skipPresent logIndex entries) r
      (fun _ => Raft.Following) := by
  induction entries generalizing logIndex with
  | nil => exact .pure hr
  | cons e es ih =>
    refine .get_bind (.ite (fun _ => .pure hr) fun _ => ?_)
    refine .bind (Q := fun _ r' => r = r') (.get_bind ?_) ?_
    · cases r.entryAt? logIndex with
      | none => exact .fault (by rintro ⟨⟩)
      | some e => exact .pure rfl
    · rintro old _ rfl
      refine .ite (fun _ => ?_) fun _ => ih (logIndex + 1)
      exact .bind (ensures_raftTruncate hr) fun _ _ hr' => .pure hr'

theorem keeps_writeEntries : Keeps (writeEntries entries w) := by
  induction entries generalizing w with
  | nil => exact .pure _
  | cons e es ih =>
    exact .bind keeps_raftWriteEntry fun _ => .ite (.pure _) ih

theorem keeps_finishAppend : Keeps (finishAppend rpc rq w) := by
  unfold finishAppend
  refine .when (.bind .get fun _ => mild_raftWaiterCreate.still.keeps) ?_
  refine .when keeps_raftGetServersFromLog ?_
  exact .ite keeps_raftSendAppendReply keeps_raftSendAppendReply

theorem ensures_raftHandleAppendEntries (hr : r.Following)
    {prevLogIndex prevLogTerm : Nat} : Ensures repliesFit.event Outside env
      (raftHandleAppendEntries rpc rq prevLogIndex prevLogTerm entries) r
      (fun _ => Raft.Bounded) := by
  refine .get_bind ?_
  cases matchIndexAndTerm r prevLogIndex prevLogTerm with
  | some mismatch => exact keeps_raftSendAppendReply env r hr.1
  | none =>
    refine .bind (ensures_skipPresent hr _ entries) ?_
    rintro ⟨rest, changed⟩ r1 hr1
    refine .ite (fun _ => keeps_raftSendAppendReply env r1 hr1.1) fun _ => ?_
    exact .bind (keeps_writeEntries env r1 hr1.1) fun w r2 hr2 =>
      keeps_finishAppend env r2 hr2

theorem ensures_raftUpdateLeader (hr : r.Bounded) : Ensures ok Outside env (raftUpdateLeader sid) r
      (fun b r' => r'.Bounded ∧ (b = true → r'.role ≠ .leader)) := by
  refine .get_bind (.ite (fun _ => .pure ⟨hr, by rintro ⟨⟩⟩) fun hrole => ?_)
  refine .when (P := fun r' => r'.indexes = r.indexes)
    (fun _ => light_recordLeader.still ok env r)
    (fun _ => rfl) fun r1 h1 => ?_
  have hr1 : r1.Following := .of_eq ⟨hr, hrole⟩ h1
  refine .when (P := Raft.Following) (fun _ => .modify ⟨?_, by rintro ⟨⟩⟩) (fun _ => hr1) ?_
  · exact hr1.1.mono hr1.1.start (Nat.le_refl _) (by rintro ⟨⟩) fun _ => hr1.1.idle hr1.2
  · exact fun r2 hr2 => .pure ⟨hr2.1, fun _ => hr2.2⟩

theorem keeps_raftHandleAppendRequest : Keeps (raftHandleAppendRequest rpc rq) := by
  intro env r hr
  refine .bind (ensures_raftUpdateLeader hr) ?_
  rintro b r1 ⟨hr1, hrole1⟩
  refine .ite (fun _ => keeps_raftSendAppendReply env r1 hr1) fun hb => ?_
  refine .bind (light_raftResetElectionTimer.still _ env r1) fun _ r2 h2 => .get_bind ?_
  have hr2 : r2.Following := .of_eq ⟨hr1, hrole1 (by simpa using hb)⟩ h2
  have hreply : ∀ result comment, Ensures repliesFit.event Outside env
      (raftSendAppendReply rpc.sid rq result comment) r2 (fun _ => Raft.Bounded) :=
    fun result comment => keeps_raftSendAppendReply env r2 hr2.1
  refine .ite (fun _ => ensures_raftHandleAppendEntries hr2) fun _ => ?_
  refine .ite (fun _ => hreply _ _) fun _ => .ite (fun _ => ?_) fun _ => ?_
  · exact .ite (fun _ => hreply _ _) fun _ => hreply _ _
  · dsimp only
    cases rq.entries[r2.logStart - u64 (rq.prevLogIndex + 1) - 1]? with
    | none => exact .fault (by rintro ⟨⟩)
    | some e => exact ensures_raftHandleAppendEntries hr2

/-! ## 10. Replies and snapshots -/

theorem mem_tracked_of_deref (h : r.deref ref = some s) : s ∈ r.tracked := by
  have hfind : ∀ {servers : List Server} {sid : Uuid}, raftServerFind servers sid = some s →
      s ∈ servers := mem_of_find?_eq_some
  simp only [Raft.tracked, mem_append, Option.mem_toList]
  cases ref with
  | peer sid =>
    rcases Option.or_eq_some_iff.mp h with h | ⟨_, h⟩
    · exact .inl (.inl (hfind h))
    · exact .inr (Option.filter_eq_some_iff.mp h).1
  | new sid =>
    rcases Option.or_eq_some_iff.mp h with h | ⟨_, h⟩
    · exact .inl (.inr (hfind h))
    · exact .inl (.inl (hfind h))

theorem Raft.Bounded.ok_of_tracked (h : r.Bounded) (hs : s ∈ r.tracked) :
    s.index.Ok r.role r.sid r.logEnd := by
  simp only [Raft.tracked, mem_append, Option.mem_toList] at hs
  rcases hs with (hs | hs) | hs
  · exact h.servers _ (mem_map_of_mem hs)
  · exact (h.addServers _ (mem_map_of_mem hs)).ok
  · exact h.removeServer _ (by rw [Raft.indexes, hs]; rfl)

theorem exists_tracked_of_indexes_eq (h : r'.indexes = r.indexes) (hs : s ∈ r'.tracked) :
    ∃ s' ∈ r.tracked, s'.index = s.index := by
  have hview : r'.tracked.map Server.index = r.tracked.map Server.index := by
    have hservers : r'.servers.map Server.index = r.servers.map Server.index :=
      congrArg Indexes.servers h
    have hadd : r'.addServers.map Server.index = r.addServers.map Server.index :=
      congrArg Indexes.addServers h
    have hremove : r'.removeServer.map Server.index = r.removeServer.map Server.index :=
      congrArg Indexes.removeServer h
    rw [Raft.tracked, Raft.tracked, map_append, map_append, map_append,
      map_append, ← Option.toList_map, ← Option.toList_map, hservers, hadd, hremove]
  have hmem := mem_map_of_mem (f := Server.index) hs
  rw [hview] at hmem
  exact mem_map.mp hmem

theorem keeps_sendNext : Keeps (sendNext ref) := by
  intro env r hr
  refine .get_bind ?_
  cases hderef : r.deref ref with
  | none => exact .fault (by rintro ⟨⟩)
  | some server =>
    have hok := hr.ok_of_tracked (mem_tracked_of_deref hderef)
    refine .ite (fun _ => still_raftSendInstallSnapshotRequest.keeps env r hr) fun hlow => ?_
    refine .ite (fun _ => ?_) fun _ => .ite (fun _ => ?_) fun _ => .pure hr
    · refine (ensures_raftSendAppendRequest fun hrole => ?_).weaken fun _ r' h => ?_
      · have hnext : server.nextIndex ≤ r.logEnd := hok.next hrole
        exact ⟨hok.positive, hnext, fun _ => ⟨Nat.not_lt.mp hlow, by omega⟩⟩
      · exact hr.of_eq h
    · exact .bind ((still_assign (by exact fun _ => rfl)).keeps env r hr) fun _ r' hr' =>
        keeps_raftRunReconfigure env r' hr'

theorem logEnd_assign (r : Raft) (ref : ServerRef) (f : Server → Server) :
    (r.assign ref f).logEnd = r.logEnd := by
  cases ref <;> simp only [Raft.assign] <;> split <;> rfl

theorem sid_of_raftFindPeerOrNew (h : raftFindPeerOrNew r src = some ref) : ref.sid = src := by
  rcases (refers_of_raftFindPeerOrNew (g := {}) h).2 with rfl | rfl <;> rfl

/-- A reply moves the indexes of a peer within the log. -/
theorem keeps_raftHandleAppendReply {rpy : AppendReply} :
    Keeps (raftHandleAppendReply src rpy) := by
  intro env r hr
  refine .get_bind (.ite (fun _ => .pure hr) fun _ => ?_)
  cases href : raftFindPeerOrNew r src with
  | none => exact .pure hr
  | some ref =>
    have hsid := sid_of_raftFindPeerOrNew href
    refine .emit_bind fun hfits => ?_
    refine .bind (still_assign (by exact fun _ => rfl) _ env r) fun _ r1 h1 => ?_
    have hr1 : r1.Bounded := hr.of_eq h1
    have hfits : rpy.Fits src r := hfits
    unfold AppendReply.Fits at hfits
    refine .ite (fun hresult => .modify_bind ?_) fun hresult => .modify_bind ?_
    · rw [if_pos hresult, ← logEnd_eq_of_indexes_eq h1] at hfits
      generalize hmin : u64 (rpy.prevLogIndex + rpy.nEntries + 1) = minIndex at hfits
      obtain ⟨hone, hend⟩ := hfits
      have hr2 := hr1.assignNext ref (g := (max · minIndex))
        (fun _ _ _ hlow => Nat.le_trans hlow (Nat.le_max_left _ _))
        fun n hn => Nat.max_le.mpr ⟨hn, hend⟩
      refine .bind (ensures_raftUpdateMatchIndex hr2 (.inr ?_)) fun _ r3 hr3 =>
        keeps_sendNext env r3 hr3
      have hlt : minIndex < 2 ^ 64 := by
        rw [← hmin]
        exact Nat.mod_lt _ (by decide)
      rw [logEnd_assign, u64]
      omega
    · rw [if_neg hresult] at hfits
      have htwo : ∀ s ∈ r1.tracked, s.sid = ref.sid → 2 ≤ s.nextIndex := by
        intro s hs hsid'
        obtain ⟨s', hs', hindex⟩ := exists_tracked_of_indexes_eq h1 hs
        have hnext : s'.nextIndex = s.nextIndex := congrArg PeerIndex.nextIndex hindex
        have hsame : s'.sid = s.sid := congrArg PeerIndex.sid hindex
        rw [← hnext]
        exact hfits.2 s' hs' (by rw [hsame, hsid', hsid])
      have hr2 := hr1.assignNext ref (g := fun n => min (n - 1) rpy.logEnd)
        (fun s hs hs' _ => Nat.le_min.mpr ⟨Nat.le_sub_one_of_lt (htwo s hs hs'), hfits.1⟩)
        fun n hn => by omega
      exact .ite (fun _ => .pure hr2) fun _ => keeps_sendNext env _ hr2

theorem keeps_raftHandleInstallSnapshotRequest {rq : InstallSnapshotRequest} :
    Keeps (raftHandleInstallSnapshotRequest src rq) := by
  refine .bind ?_ fun _ => .ite (.bind .get fun _ => .bind mild_raftSend.still.keeps fun _ =>
    .pure _) (.pure _)
  intro env r hr
  refine .bind (light_raftResetElectionTimer.still _ env r) fun _ r1 h1 => .get_bind ?_
  have hr1 : r1.Bounded := hr.of_eq h1
  refine .ite (fun _ => .pure hr1) fun hend => .emit_bind fun _ => ?_
  refine .bind (still_raftSaveSnapshot _ env r1) fun _ r2 h2 => ?_
  have hr2 : r2.Bounded := hr1.of_eq h2
  have hend2 : r2.logEnd ≤ u64 (rq.lastIndex + 1) := by
    rw [logEnd_eq_of_indexes_eq h2]
    exact Nat.not_lt.mp hend
  refine .ite (fun _ => .pure hr2) fun _ => .modify_bind ?_
  refine .bind (keeps_raftGetServersFromLog env _ ?_) fun _ r3 hr3 => .modify_bind (.pure hr3)
  exact hr2.mono (Nat.le_trans hr2.one_le_logEnd hend2)
    (Nat.le_trans hend2 (Nat.le_add_right _ _)) id hr2.idle

theorem raftServerFind_updateServer (hf : ∀ s, (f s).sid = s.sid)
    (servers : List Server) (sid : Uuid) :
    raftServerFind (updateServer servers sid f) sid = (raftServerFind servers sid).map f := by
  induction servers with
  | nil => rfl
  | cons s servers ih =>
    simp only [raftServerFind, updateServer, map_cons, find?_cons] at ih ⊢
    by_cases hs : s.sid = sid
    · simp [hs, hf]
    · have hne : (s.sid == sid) = false := beq_eq_false_iff_ne.mpr hs
      simp [hs, hne, ih]

theorem deref_assign (hf : ∀ s, (f s).sid = s.sid) {s' : Server}
    (h : (r.assign ref f).deref ref = some s') : ∃ s, s' = f s := by
  cases ref with
  | peer sid =>
    cases hfind : raftServerFind r.servers sid with
    | some s =>
      have hupdate := raftServerFind_updateServer hf r.servers sid
      simp only [Raft.assign, raftFindServer, hfind, Option.isSome_some, if_true, Raft.deref,
        hupdate, Option.map_some, Option.some_or, Option.some.injEq] at h
      exact ⟨s, h.symm⟩
    | none =>
      simp only [Raft.assign, raftFindServer, hfind, Option.isSome_none, Bool.false_eq_true,
        if_false, Raft.deref, Option.none_or] at h
      obtain ⟨hmem, hsid⟩ := Option.filter_eq_some_iff.mp h
      obtain ⟨s, _, rfl⟩ := Option.map_eq_some_iff.mp hmem
      by_cases hs : s.sid = sid
      · exact ⟨s, if_pos hs⟩
      · simp [hs] at hsid
  | new sid =>
    cases hfind : raftServerFind r.addServers sid with
    | some s =>
      have hupdate := raftServerFind_updateServer hf r.addServers sid
      simp only [Raft.assign, raftFindNewServer, hfind, Option.isSome_some, if_true, Raft.deref,
        hupdate, Option.map_some, Option.some_or, Option.some.injEq] at h
      exact ⟨s, h.symm⟩
    | none =>
      have hupdate := raftServerFind_updateServer hf r.servers sid
      simp only [Raft.assign, raftFindNewServer, raftFindServer, hfind, Option.isSome_none,
        Bool.false_eq_true, if_false, Raft.deref, Option.none_or, hupdate] at h
      obtain ⟨s, _, rfl⟩ := Option.map_eq_some_iff.mp h
      exact ⟨s, rfl⟩

theorem keeps_raftHandleInstallSnapshotReply {rpy : InstallSnapshotReply} :
    Keeps (raftHandleInstallSnapshotReply src rpy) := by
  intro env r hr
  refine .get_bind ?_
  cases raftFindPeerOrNew r src with
  | none => exact .pure hr
  | some ref =>
    refine .bind (still_assign (by exact fun _ => rfl) _ env r) fun _ r1 h1 => ?_
    have hr1 : r1.Bounded := hr.of_eq h1
    refine .ite (fun _ => still_raftSendInstallSnapshotRequest.keeps env r1 hr1) fun _ => ?_
    have hstart : r1.logStart = r.logStart := congrArg Indexes.logStart h1
    have hlow : 1 ≤ r.logStart := hr.start
    have hhigh : r.logStart ≤ r1.logEnd := hstart ▸ Nat.le_add_right _ _
    have hr2 := hr1.assignNext ref (g := fun _ => r.logStart) (fun _ _ _ _ => hlow)
      fun _ _ => hhigh
    refine .modify_bind (.get_bind ?_)
    cases hderef : (r1.assign ref ({ · with nextIndex := r.logStart })).deref ref with
    | none => exact .fault (by rintro ⟨⟩)
    | some server =>
      obtain ⟨s, rfl⟩ := deref_assign (by exact fun _ => rfl) hderef
      have hend : (r1.assign ref ({ · with nextIndex := r.logStart })).logEnd = r.logEnd := by
        rw [logEnd_assign, logEnd_eq_of_indexes_eq h1]
      have hstart' : (r1.assign ref ({ · with nextIndex := r.logStart })).logStart = r.logStart := by
        rw [← hstart]
        cases ref <;> simp only [Raft.assign] <;> split <;> rfl
      refine (ensures_raftSendAppendRequest fun _ => ?_).weaken fun _ r' h => ?_
      · rw [hend, hstart']
        have hle : r.logStart ≤ r.logEnd := Nat.le_add_right _ _
        exact ⟨hlow, hle, fun _ => ⟨Nat.le_refl _, by simp only; omega⟩⟩
      · exact hr2.of_eq h

theorem still_raftGetTerm : Still (raftGetTerm index) :=
  .bind .get fun _ => .ite (.pure _) (.bind still_raftGetEntry fun _ => .pure _)

theorem still_raftServersForIndex : Still (raftServersForIndex index) :=
  .bind .get fun _ => .bind (.assert (not_outside_assert _)) fun _ =>
    .bind (.assert (not_outside_assert _)) fun _ => .pure _

theorem keeps_raftStoreSnapshot {data : Json} : Keeps (raftStoreSnapshot data) := by
  intro env r hr
  refine .get_bind (.ite (fun _ => .pure hr) fun _ => .ite (fun _ => .pure hr) fun _ =>
    .ite (fun _ => .pure hr) fun _ => .ite (fun _ => .pure hr) fun _ =>
    .ite (fun _ => .pure hr) fun happlied => ?_)
  refine .bind (still_raftGetTerm _ env r) fun _ r1 h1 => ?_
  refine .bind (still_raftGetEid _ env r1) fun _ r2 h2 => ?_
  refine .bind (still_raftServersForIndex _ env r2) fun servers r3 h3 => ?_
  refine .when (P := fun r' => r3 = r') (fun _ => .fault (by rintro ⟨⟩)) (fun _ => rfl) ?_
  rintro _ rfl
  refine .bind (still_raftSaveSnapshot _ env r3) fun _ r4 h4 => ?_
  have hview : r4.indexes = r.indexes := h4.trans (h3.trans (h2.trans h1))
  have hr4 : r4.Bounded := hr.of_eq hview
  refine .ite (fun _ => .pure hr4) fun _ => .modify_bind (.pure ?_)
  have hstart : r4.logStart = r.logStart := congrArg Indexes.logStart hview
  refine hr4.mono (Nat.le_add_left _ _) ?_ id hr4.idle
  show r4.logStart + r4.entries.length ≤
    r.lastApplied + 1 + (r4.entries.drop (r.lastApplied + 1 - r4.logStart)).length
  rw [length_drop, hstart]
  omega

/-! ## 11. Membership and forwarded commands -/

theorem keeps_raftHandleAddServerRequest {address : String} :
    Keeps (raftHandleAddServerRequest src address) := by
  have hreply : ∀ success comment, Keeps (raftSendAddServerReply__ src success comment) :=
    fun success comment => light_raftSendAddServerReply__.still.keeps
  intro env r hr
  refine .get_bind (.ite (fun _ => hreply _ _ env r hr) fun _ => ?_)
  cases raftFindServer r src with
  | some s =>
    refine .ite (fun _ => ?_) fun _ => ?_
    · exact .bind ((still_updateServers (by exact fun _ => rfl)).keeps env r hr) fun _ r1 hr1 =>
        hreply _ _ env r1 hr1
    · exact .when (P := Raft.Bounded) (fun _ => hreply _ _ env r hr) (fun _ => hr)
        fun r1 hr1 => hreply _ _ env r1 hr1
  | none =>
    refine .ite (fun _ => hreply _ _ env r hr) fun _ => .ite (fun _ => hreply _ _ env r hr) ?_
    refine fun _ => .modify_bind ?_
    have hnew := okNew_raftServerInitLeader hr.one_le_logEnd { sid := src, address }
    refine (ensures_heartbeat ?_).weaken fun _ r' h => ?_
    · exact hnew.ok
    · refine Indexes.Bounded.of_eq ?_ h
      refine ⟨hr.start, hr.servers, forall_mem_map.mpr fun s hs => ?_, hr.removeServer, hr.idle⟩
      rcases mem_append.mp hs with hs | hs
      · exact hr.addServers _ (mem_map_of_mem hs)
      · rw [mem_singleton.mp hs]
        exact hnew

theorem keeps_raftHandleRemoveServerRequest {requesterConn : Option Nat} :
    Keeps (raftHandleRemoveServerRequest src sid requesterConn) := by
  have hreply : ∀ success comment, Keeps (raftSendRemoveServerReply__ sid src success comment) :=
    fun success comment => light_raftSendRemoveServerReply__.still.keeps
  refine .bind .get fun r => .ite (hreply _ _) (.ite ?_ ?_)
  · refine .bind light_raftSendAddServerReply__.still.keeps fun _ => .modify fun r hr => ?_
    refine ⟨hr.start, hr.servers, forall_mem_map.mpr fun s hs => ?_, hr.removeServer, hr.idle⟩
    exact hr.addServers _ (mem_map_of_mem (mem_of_mem_eraseP hs))
  · cases raftFindServer r sid with
    | none => exact hreply _ _
    | some target =>
      refine .ite (hreply _ _) (.ite (hreply _ _) (.ite (hreply _ _) ?_))
      exact .bind (Quiet.keeps (still_updateServers fun _ => rfl)) fun _ => keeps_raftRunReconfigure

theorem keeps_raftHandleExecuteCommandRequest {data : Json} {prereq result : Uuid} :
    Keeps (raftHandleExecuteCommandRequest src data prereq result) := by
  refine .bind ?_ fun _ => .ite light_raftSendExecuteCommandReply.still.keeps (.pure _)
  refine .bind .get fun _ => .ite (.pure _) (.bind still_raftCurrentEid.keeps fun _ => ?_)
  refine .ite (.pure _) (.bind .get fun _ => .bind (.emit _) fun _ => ?_)
  refine .bind keeps_raftCommandInitiate fun handle => ?_
  cases handle with
  | completed status => exact .pure _
  | incomplete cmd => exact .bind light_updateCommand.within.of_calm.keeps fun _ => .pure _

/-! ## 12. Inputs -/

theorem keeps_dispatch : Keeps (dispatch rpc) := by
  unfold dispatch
  cases rpc.body with
  | helloRequest address => exact .pure _
  | appendRequest rq => exact keeps_raftHandleAppendRequest
  | appendReply rpy => exact keeps_raftHandleAppendReply
  | voteRequest rq => exact still_raftHandleVoteRequest.keeps
  | voteReply rpy => exact keeps_raftHandleVoteReply
  | addServerRequest address => exact keeps_raftHandleAddServerRequest
  | addServerReply success addresses => exact light_raftHandleAddServerReply.still.keeps
  | removeServerRequest sid conn => exact keeps_raftHandleRemoveServerRequest
  | removeServerReply success targetSid => exact light_raftHandleRemoveServerReply.still.keeps
  | installSnapshotRequest rq => exact keeps_raftHandleInstallSnapshotRequest
  | installSnapshotReply rpy => exact keeps_raftHandleInstallSnapshotReply
  | becomeLeader term =>
    exact .bind .get fun _ => .ite keeps_raftStartElection (.pure _)
  | executeCommandRequest data prereq result =>
    exact keeps_raftHandleExecuteCommandRequest
  | executeCommandReply result status commitIndex =>
    exact light_raftHandleExecuteCommandReply.within.of_calm.keeps

theorem keeps_raftHandleRpc : Keeps (raftHandleRpc rpc) := by
  unfold raftHandleRpc
  refine .bind .getEnv fun _ => .bind .get fun _ =>
    .ite (.bind keeps_raftReceiveTerm__ fun _ => ?_) (.bind (.pure _) fun _ => ?_)
  all_goals
    refine .ite keeps_dispatch ?_
    split
    · exact keeps_raftSendAppendReply
    · exact .pure _

theorem keeps_raftWaiterComplete {w : WaiterBody} : Keeps (raftWaiterComplete w) := by
  cases w with
  | entry index =>
    refine .bind .get fun _ => ?_
    exact .when keeps_raftUpdateOurMatchIndex (.modify fun _ h => h)
  | term term vote => exact .modify fun _ h => h
  | rpc rpc => exact still_raftWaiterCompleteRpc.keeps

theorem keeps_completeWaiters {cur : Nat} {waiters : List Waiter} :
    Keeps (completeWaiters cur waiters) := by
  induction waiters with
  | nil => exact .pure _
  | cons w ws ih =>
    refine .ite (.pure _) (.bind keeps_raftWaiterComplete fun _ => ?_)
    exact .bind (.modify fun _ h => h) fun _ => ih

theorem keeps_runElectionTimer : Keeps runElectionTimer := by
  refine .bind .getEnv fun _ => .bind .get fun _ => .ite (.pure _) (.ite (.ite ?_ ?_) ?_)
  · refine Quiet.keeps (.bind (.modify fun r => ?_) fun _ => light_raftResetElectionTimer.still)
    simp only [Raft.indexes, map_map]
    rfl
  · exact .bind keeps_raftBecomeFollower fun _ => keeps_raftStartElection
  · exact keeps_raftStartElection

theorem keeps_runPingTimer : Keeps runPingTimer := by
  refine .bind .getEnv fun _ => .bind .get fun _ => .ite ?_ (.pure _)
  refine .when keeps_raftSendHeartbeats (Quiet.keeps (.bind .get fun _ => .bind ?_ fun _ =>
    light_raftResetPingTimer.still))
  exact .forEach fun _ _ => .ite light_raftCommandComplete.within.of_calm (.pure _)

theorem keeps_runClose : Keeps runClose := by
  refine .bind .get fun _ => .ite ?_ (.pure _)
  refine .bind light_raftCompleteAllCommands.within.of_calm.keeps fun _ => ?_
  exact .bind keeps_reportRemoved fun _ => .modify fun _ h => h

theorem keeps_raftLeave : Keeps raftLeave := by
  refine .bind .get fun _ => .ite (.pure _) (.bind (.modify fun _ h => h) fun _ => ?_)
  refine .bind light_raftTransferLeadership.still.keeps fun _ => ?_
  exact .bind keeps_raftBecomeFollower fun _ => light_raftSendRemoveServerRequests.still.keeps

theorem keeps_raftUnixctlKick : Keeps (raftUnixctlKick sid) := by
  refine .bind .get fun _ => .ite (.ite keeps_raftLeave (.ite ?_ ?_)) (.pure _)
  · exact keeps_raftHandleRemoveServerRequest
  · exact .bind mild_raftSend.still.keeps fun _ => .pure _

theorem Raft.Bounded.rehash (h : r.Bounded) {servers addServers : List Server}
    (hservers : servers.Perm r.servers) (hadd : addServers.Perm r.addServers)
    (commands : List Command) : Raft.Bounded { r with servers, addServers, commands } :=
  ⟨h.start, fun p hp => h.servers p ((hservers.map Server.index).mem_iff.mp hp),
    fun p hp => h.addServers p ((hadd.map Server.index).mem_iff.mp hp), h.removeServer, h.idle⟩

/-- Every input keeps the indexes of peers within the log. -/
theorem keeps_input {inp : Input} : Keeps inp.run := by
  cases inp with
  | rpc msg => exact keeps_raftHandleRpc
  | synced cur =>
    refine .modify fun r hr => ?_
    split <;> exact hr
  | waiters => exact .bind .get fun _ => keeps_completeWaiters
  | electionTimer => exact keeps_runElectionTimer
  | leaveTimer => exact light_runLeaveTimer.still.keeps
  | joinTimer => exact light_runJoinTimer.still.keeps
  | pingTimer => exact keeps_runPingTimer
  | close => exact keeps_runClose
  | connected sid => exact still_runConnected.keeps
  | disconnected sid => exact Quiet.keeps (still_updateServers fun _ => rfl)
  | clusterId cid =>
    refine .modify fun r hr => ?_
    split <;> exact hr
  | command data prereq => exact .bind keeps_raftCommandExecute__ fun _ => .pure _
  | nextEntry => exact .bind still_raftGetNextEntry.keeps fun _ => .pure _
  | hasNextEntry => exact .bind still_raftPeekNextEntry.keeps fun _ => .pure _
  | snapshot data => exact .bind keeps_raftStoreSnapshot fun _ => .pure _
  | takeLeadership => exact .bind .get fun _ => .ite keeps_raftStartElection (.pure _)
  | transferLeadership reason => exact light_raftTransferLeadership.still.keeps
  | changeElectionTimer timer =>
    refine .bind .get fun _ => .ite (.bind (.modify fun _ h => h) fun _ => ?_) (.pure _)
    exact .bind keeps_raftCommandExecute__ fun _ => .pure _
  | kick sid => exact keeps_raftUnixctlKick
  | leave => exact keeps_raftLeave
  | rehash servers addServers commands =>
    refine .modify fun r hr => ?_
    split
    · next hperm =>
      exact hr.rehash (isPerm_iff.mp hperm.1) (isPerm_iff.mp hperm.2.1) commands
    · exact hr

/-! ## 13. Runs -/

/-- What a server knows of itself and of others before it has read `servers`. -/
def Raft.membership (r : Raft) : Role × List Server × List Server × Option Server :=
  (r.role, r.servers, r.addServers, r.removeServer)

theorem quiet_raftApplyRecord (recIdx : Nat) (rec : Record) :
    Quiet Raft.membership (fun _ => False) (raftApplyRecord recIdx rec) := by
  refine .bind (.modify fun r => ?_) fun _ => ?_
  · unfold Raft.applyTerm
    split <;> rfl
  cases rec.body with
  | term => exact .pure _
  | leader sid => exact .pure _
  | note note => exact .ite (.pure _) (.pure _)
  | vote | commitIndex =>
    exact .bind .get fun _ => .ite (.pure _) (.ite (.pure _)
      (.bind (.modify fun _ => rfl) fun _ => .pure _))
  | entry index data servers electionTimer eid =>
    refine .bind .get fun _ => .ite (.pure _) (.ite (.pure _) (.bind ?_ fun _ => ?_))
    · refine .bind .get fun _ => .ite (.bind ?_ fun _ => .pure _) (.pure _)
      exact .bind .get fun _ => .bind (.emit _) fun _ => .bind (.assert id) fun _ =>
        .bind (.modify fun _ => rfl) fun _ => .pure _
    · refine .bind .get fun _ => .ite (.pure _) (.bind ?_ fun _ => ?_)
      · unfold raftAddEntry
        exact .bind .get fun _ => .when (.fault id) (.bind (.modify fun _ => rfl) fun _ => .pure _)
      · exact .bind (.modify fun _ => rfl) fun _ => .pure _

theorem membership_applyHeader (log : LogFile) (h : Header) :
    ((raftAlloc log).applyHeader h).membership = (.follower, [], [], none) := by
  unfold Raft.applyHeader
  split <;> rfl

theorem bounded_of_loaded {log : LogFile} (h : Loaded env log r) (hone : 1 ≤ r.logStart) :
    r.Bounded := by
  cases h with
  | @joining h hheader hjoining timeout =>
    have hmembers := membership_applyHeader log h
    simp only [Raft.membership, Prod.mk.injEq] at hmembers
    obtain ⟨hrole, hservers, hadd, hremove⟩ := hmembers
    refine ⟨hone, ?_, ?_, ?_, ?_⟩ <;> simp [Raft.indexes, hservers, hadd, hremove]
  | @joined h hheader hjoining r tr hrecords servers hservers timer =>
    have hmembers : r.membership = (.follower, [], [], none) := by
      refine readRecords_invariant (P := fun r => r.membership = (.follower, [], [], none))
        (fun {_ i rec r r' tr} _ _ hr happly => ?_) (membership_applyHeader log h) hrecords
      have hquiet := quiet_raftApplyRecord i rec (fun _ => True) env r (fun _ _ => trivial)
      rw [happly] at hquiet
      exact hquiet.trans hr
    simp only [Raft.membership, Prod.mk.injEq] at hmembers
    obtain ⟨hrole, hnone, hadd, hremove⟩ := hmembers
    have hend : 1 ≤ r.logEnd := Nat.le_trans hone (Nat.le_add_right _ _)
    refine ⟨hone, forall_mem_map.mpr fun s hs => ?_, ?_, ?_, ?_⟩
    · rcases mem_setServers hs with hs | ⟨n, rfl⟩
      · simp [hnone] at hs
      · exact (okNew_raftServerInitLeader hend n).ok
    all_goals simp [Raft.indexes, hadd, hremove]

theorem Raft.Bounded.of_ensures {m : M Unit} {tr : List Event}
    (h : Ensures repliesFit.event Outside env m r (fun _ => Raft.Bounded))
    (hrun : m env r = ⟨.ok (), r', tr⟩) (hevents : ∀ ev ∈ tr, repliesFit.event ev) :
    r'.Bounded := by
  unfold Ensures at h
  rw [hrun] at h
  exact h hevents

theorem bounded_of_reachable (hr : Reachable repliesFit r) : r.Bounded := by
  induction hr with
  | opened hstored hload hrun hone hinput hevents =>
    have hbounded := bounded_of_loaded (loaded_of_raftLoad hload) hone
    have hkeeps : Keeps raftStart := by
      refine .bind .get fun _ => .when keeps_raftStartElection ?_
      exact Quiet.keeps (.bind light_raftResetPingTimer.still fun _ =>
        light_raftResetElectionTimer.still)
    exact (hkeeps _ _ hbounded |> Raft.Bounded.of_ensures) hrun hevents
  | step _ _ hrun _ hevents ih => exact .of_ensures (keeps_input _ _ ih) hrun hevents

/-- The indexes that a leader keeps for the other servers lie within its log. -/
structure Raft.PeersInLog (r : Raft) : Prop where
  servers : ∀ s ∈ r.servers, s.sid ≠ r.sid →
    1 ≤ s.nextIndex ∧ s.nextIndex ≤ r.logEnd ∧ s.matchIndex < r.logEnd
  addServers : ∀ s ∈ r.addServers,
    1 ≤ s.nextIndex ∧ s.nextIndex ≤ r.logEnd ∧ s.matchIndex < r.logEnd

/-- In a run whose replies fit, a leader's indexes lie within its log, and
    `raft_send_append_request` reads nothing outside it. -/
theorem peersInLog_of_reachable {r : Raft} (hr : Reachable repliesFit r) :
    (r.role = .leader → r.PeersInLog) ∧
      ∀ (inp : Input) (env : Env), (∀ ev ∈ (inp.run env r).trace, repliesFit.event ev) →
        (inp.run env r).result ≠ .error (.access .raftSendAppendRequest) := by
  have hbounded := bounded_of_reachable hr
  refine ⟨fun hrole => ⟨fun s hs hne => ?_, fun s hs => ?_⟩, fun inp env hevents hfault => ?_⟩
  · have hok := hbounded.servers _ (mem_map_of_mem hs)
    exact ⟨hok.positive, hok.next hrole, hok.matched hrole hne⟩
  · have hok := hbounded.addServers _ (mem_map_of_mem hs)
    exact ⟨hok.positive, hok.next, hok.matched⟩
  · have hkeeps := keeps_input env r hbounded hevents
    rw [hfault] at hkeeps
    exact hkeeps rfl

instance (rpy : AppendReply) (src : Uuid) (r : Raft) : Decidable (rpy.Fits src r) :=
  inferInstanceAs (Decidable (if rpy.result = .ok then
      1 ≤ u64 (rpy.prevLogIndex + rpy.nEntries + 1) ∧
        u64 (rpy.prevLogIndex + rpy.nEntries + 1) ≤ r.logEnd
    else 1 ≤ rpy.logEnd ∧ ∀ s ∈ r.tracked, s.sid = src → 2 ≤ s.nextIndex))

def Event.fitsLog : Event → Bool
  | .appendReply src rpy r => rpy.Fits src r
  | .truncate _ r => r.addServers.isEmpty
  | _ => true

/-- Server 1 is elected, and server 3 asks to be added.  Server 2 turns down a heartbeat, is sent
    the first entry again and acknowledges it. -/
def acknowledgedEntry : List (Env × Input) :=
  [({}, .connected 2),
   ({ now := 1000 }, .electionTimer), ({}, .synced 1), ({}, .waiters),
   ({ now := 1001 }, .rpc { sid := 2, body := .voteReply { term := 1, vote := 1 } }),
   ({ now := 1002 }, .rpc { sid := 3, body := .addServerRequest "unix:s3" }),
   ({ now := 1100 }, .rpc { sid := 2, body := .appendReply ⟨1, 2, 2, 1, 0, .inconsistency⟩ }),
   ({ now := 1200 }, .rpc { sid := 2, body := .appendReply ⟨1, 3, 1, 1, 1, .ok⟩ })]

theorem peersInLog_acknowledged : ∃ r, Reachable repliesFit r ∧ r.role = .leader ∧
    r.servers.map (fun s => (s.sid, s.nextIndex, s.matchIndex)) = [(1, 2, 1), (2, 3, 2)] ∧
    r.addServers.map (·.sid) = [3] ∧ r.PeersInLog := by
  have hview : (runInputs Event.fitsLog pairRaft acknowledgedEntry).any (fun r =>
      r.role == .leader &&
      r.servers.map (fun s => (s.sid, s.nextIndex, s.matchIndex)) == [(1, 2, 1), (2, 3, 2)] &&
      r.addServers.map (·.sid) == [3]) = true := by decide +kernel
  obtain ⟨r, hrun, hr⟩ := Option.any_eq_true _ _ |>.mp hview
  simp only [Bool.and_eq_true, beq_iff_eq] at hr
  obtain ⟨⟨hrole, hservers⟩, hadd⟩ := hr
  have hreachable : Reachable repliesFit r := by
    refine reachable_runInputs (fun ev hev => ?_) (fun _ _ => trivial) (reachable_pairRaft trivial)
      hrun
    cases ev with
    | appendReply src rpy r => exact of_decide_eq_true (p := rpy.Fits src r) hev
    | truncate => exact isEmpty_iff.mp hev
    | _ => trivial
  exact ⟨r, hreachable, hrole, hservers, hadd, (peersInLog_of_reachable hreachable).1 hrole⟩

/-- Server 1 is elected in term 1; its first entry is lost with the session.  It is elected again in
    term 2.  Before the reply to its first append request arrives it sends two heartbeats, and
    server 2, whose log ends at 2, answers all three with an inconsistency. -/
def pipelinedReplies : List (Env × Input) :=
  [({}, .connected 2),
   ({ now := 1000 }, .electionTimer), ({}, .synced 1), ({}, .waiters),
   ({ now := 1001 }, .rpc { sid := 2, body := .voteReply { term := 1, vote := 1 } }),
   ({}, .disconnected 2), ({}, .connected 2),
   ({ now := 3000 }, .electionTimer), ({}, .synced 3), ({}, .waiters),
   ({ now := 3001 }, .rpc { sid := 2, body := .voteReply { term := 2, vote := 1 } }),
   ({ now := 3400 }, .pingTimer), ({ now := 3800 }, .pingTimer),
   ({ now := 3900 }, .rpc { sid := 2, body := .appendReply ⟨2, 2, 2, 1, 1, .inconsistency⟩ }),
   ({ now := 3900 }, .rpc { sid := 2, body := .appendReply ⟨2, 2, 3, 2, 0, .inconsistency⟩ }),
   ({ now := 3900 }, .rpc { sid := 2, body := .appendReply ⟨2, 2, 3, 2, 0, .inconsistency⟩ })]

/-- After that `next_index` is 0, and the next heartbeat reads outside the log. -/
theorem nextIndex_reaches_zero : ∃ r, Reachable {} r ∧ r.role = .leader ∧ ¬ r.PeersInLog ∧
      (Input.pingTimer.run { now := 4200 } r).result =
        .error (.access .raftSendAppendRequest) := by
  have hview : (runInputs (fun _ => true) pairRaft pipelinedReplies).any (fun r =>
      r.role == .leader && r.sid == 1 && r.servers.any (fun s => s.sid == 2 && s.nextIndex == 0) &&
      match (Input.pingTimer.run { now := 4200 } r).result with
      | .error (.access .raftSendAppendRequest) => true
      | _ => false) = true := by decide +kernel
  obtain ⟨r, hrun, hr⟩ := Option.any_eq_true _ _ |>.mp hview
  simp only [Bool.and_eq_true, beq_iff_eq, any_eq_true] at hr
  obtain ⟨⟨⟨hrole, hsid⟩, s, hs, hs2, hzero⟩, hfault⟩ := hr
  refine ⟨r, reachable_runInputs (fun _ _ => trivial) (fun _ _ => trivial)
    (reachable_pairRaft trivial) hrun, hrole, fun h => ?_, ?_⟩
  · have hpos := (h.servers s hs (by rw [hs2, hsid]; decide)).1
    omega
  · split at hfault
    · assumption
    · cases hfault

end Ovsgw.Cluster
