/-
  **The acts of one input.**

  What remains are the membership handlers, the waiters and the timers; then
  `does_input` says that the handling of any input is a sequence of acts.
-/
import Ovsgw.Raft.AppendSpec

namespace Ovsgw.Cluster

open List

variable {ctx : Ctx} {s : St} {sid src : Uuid} {rpc : Rpc}

theorem softM_runPingTimer : SoftM runPingTimer := by
  refine .bind .getEnv fun _ => .bind .get fun _ => .ite ?_ (.pure _)
  exact .when softM_raftSendHeartbeats (.bind .get fun _ => .bind
    (.forEach fun _ _ => .ite light_raftCommandComplete.soft (.pure _))
    fun _ => light_raftResetPingTimer.soft)

theorem softM_runClose : SoftM runClose :=
  .bind .get fun _ => .ite
    (.bind light_raftCompleteAllCommands.soft fun _ => .bind softM_reportRemoved fun _ =>
      .modify fun _ _ => rfl)
    (.pure _)

theorem core_installInProgress (r : Raft) (sid : Uuid) (conns : List Uuid) (b : Bool) (g : Ghost) :
    Raft.core { r with
      conns
      servers := updateServer r.servers sid
        ({ · with installSnapshotRequestInProgress := b }) } g = r.core g := by
  have hservers := map_peer_updateServer_of_peer_eq
    (f := ({ · with installSnapshotRequestInProgress := b })) (fun _ => rfl) r.servers sid
  simp only [Raft.core, hservers]

theorem softM_runConnected : SoftM (runConnected sid) := by
  refine .bind (.modify fun r g => core_installInProgress r sid _ false g) fun _ =>
    .bind .get fun r => .bind (.sendToConn ?_ ?_) fun _ => .pure _
  · dsimp only
    split
    · rfl
    · split <;> rfl
  · dsimp only
    split
    · rfl
    · split <;> rfl

/-! ## 1. Membership -/

theorem Ctx.changesMembership_of_msg (h : ctx.msg = some rpc)
    (hrpc : (Input.rpc rpc).changesMembership = true) : ctx.ChangesMembership := by
  unfold Ctx.msg at h
  split at h
  next rpc' hinput =>
    cases h
    exact ⟨_, hinput, hrpc⟩
  · cases h

theorem not_mem_sids_of_raftServerFind {servers : List Server}
    (h : raftServerFind servers sid = none) : sid ∉ sids (servers.map Server.peer) := by
  intro hmem
  have := (raftServerFind_isSome servers sid).mpr hmem
  simp [h] at this

/-- The term of the RPC has been looked at, or it has been let through. -/
def Screened (ctx : Ctx) (rpc : Rpc) (s : St) : Prop :=
  raftRpcGetTerm rpc = s.raft.term ∨ (s.raft = ctx.start ∧ ctx.Unscreened rpc)

theorem Screened.term (h : Screened ctx rpc s) (hrpc : ∀ rq, rpc.body ≠ .voteRequest rq) :
    raftRpcGetTerm rpc = s.raft.term ∨ raftRpcGetTerm rpc = 0 := by
  rcases h with h | ⟨-, h | h⟩
  · exact .inl h
  · exact .inr h
  · unfold raftShouldSuppressDisruptiveServer at h
    split at h
    · exact absurd ‹_› (hrpc _)
    · cases h

theorem head?_of_isPrefix {α : Type} {a : α} {l l' : List α} (h : a :: l <+: l') :
    l'.head? = some a := by
  obtain ⟨t, rfl⟩ := h
  rfl

variable (hdirty : s.ghost.dirty = ctx.dirty)
include hdirty

theorem does_raftHandleAddServerRequest {address : String} (hinput : ctx.ChangesMembership) :
    Does ctx (raftHandleAddServerRequest src address) s (Clean ctx) := by
  have hreply : ∀ {s' : St} success comment, s'.ghost.dirty = ctx.dirty →
      Does ctx (raftSendAddServerReply__ src success comment) s' (Clean ctx) :=
    fun _ _ h => light_raftSendAddServerReply__.soft.clean h
  refine .get_bind (.ite (fun _ => hreply _ _ hdirty) fun _ => ?_)
  cases hfind : raftFindServer s.raft src with
  | some p =>
    refine .ite (fun _ => ?_) fun _ => ?_
    · exact .modify_bind (g := s.ghost) (.of_updateServer (.settle src) fun _ => rfl)
        (hreply _ _ hdirty)
    · exact .when (P := fun s' => s'.ghost.dirty = ctx.dirty) (fun _ => hreply _ _ hdirty)
        (fun _ => hdirty) fun s' hs' => hreply _ _ hs'
  | none =>
    refine .ite (fun _ => hreply _ _ hdirty) fun _ => .ite (fun _ => hreply _ _ hdirty)
      fun hnew => ?_
    have hnew' : raftFindNewServer s.raft src = none := by simpa using hnew
    refine .modify_bind (g := s.ghost) ?_ (softM_raftSendAppendRequest.clean hdirty)
    simp only [Raft.core, map_append, map_cons, map_nil]
    exact .addServer _ hinput (not_mem_sids_of_raftServerFind hfind)
      (not_mem_sids_of_raftServerFind hnew') rfl

theorem does_raftHandleRemoveServerRequest
    {requesterConn : Option Nat} (hinput : ctx.ChangesMembership) :
    Does ctx (raftHandleRemoveServerRequest src sid requesterConn) s (Clean ctx) := by
  have hreply : ∀ success comment,
      Does ctx (raftSendRemoveServerReply__ sid src success comment) s (Clean ctx) :=
    fun _ _ => light_raftSendRemoveServerReply__.soft.clean hdirty
  refine .get_bind (.ite (fun _ => hreply _ _) fun _ => .ite (fun _ => ?_) fun _ => ?_)
  · refine .bind (light_raftSendAddServerReply__.soft ctx s) fun _ s1 h1 => ?_
    refine .modify (g := s1.ghost) ?_ (h1.dirty.trans hdirty)
    have herase : (s1.raft.addServers.eraseP (·.sid == sid)).map Server.peer =
        s1.core.addServers.eraseP (·.sid == sid) := by
      show _ = (s1.raft.addServers.map Server.peer).eraseP (·.sid == sid)
      rw [eraseP_map]
      rfl
    simp only [Raft.core, herase]
    exact .cancelAdd sid
  · cases raftFindServer s.raft sid with
    | none => exact hreply _ _
    | some target =>
      refine .ite (fun _ => hreply _ _) fun _ => .ite (fun _ => hreply _ _) fun _ =>
        .ite (fun _ => hreply _ _) fun _ => ?_
      refine .modify_bind (g := s.ghost) (.of_updateServer (.retire sid hinput) fun _ => rfl) ?_
      exact Does.weaken (does_raftRunReconfigure (by exact hdirty))
        fun _ _ h => h.dirty.trans hdirty

/-! ## 2. Commands from other servers -/

theorem does_raftHandleExecuteCommandRequest {data : Json} {prereq result : Uuid} :
    Does ctx (raftHandleExecuteCommandRequest src data prereq result) s (Clean ctx) := by
  have hcommand : Does ctx (raftHandleExecuteCommandRequest__ src data prereq result) s
      (Clean ctx) := by
    refine .get_bind (.ite (fun _ => .pure hdirty) fun hrole => .bind does_raftCurrentEid ?_)
    rintro eid _ ⟨rfl, rfl⟩
    have hleader : s.raft.role = .leader := Decidable.not_not.mp hrole
    refine .ite (fun _ => .pure hdirty) fun hprereq => .get_bind ?_
    refine .bind (.emit (.mark _ fun p hp => ⟨rfl, hleader, ?_⟩) (Q := fun _ s' => s = s') rfl) ?_
    · cases hp
      exact Decidable.not_not.mp hprereq
    rintro _ _ rfl
    refine .bind (does_raftCommandInitiate hleader) fun handle s1 h1 => ?_
    have hdirty1 : s1.ghost.dirty = ctx.dirty := h1.dirty.trans hdirty
    cases handle with
    | completed status => exact .pure hdirty1
    | incomplete cmd =>
      exact .bind (light_updateCommand.soft.clean hdirty1) fun _ _ h => .pure h
  refine .bind hcommand fun status s1 h1 => .ite (fun _ => ?_) fun _ => .pure h1
  exact light_raftSendExecuteCommandReply.soft.clean h1

/-! ## 3. RPCs -/

/-- Each kind of RPC is handled by acts on the core. -/
theorem does_dispatch (hmsg : ctx.msg = some rpc)
    (hscreened : Screened ctx rpc s) (hone : 1 ≤ s.raft.logStart) :
    Does ctx (dispatch rpc) s (Tidy ctx) := by
  obtain ⟨src, comment, body⟩ := rpc
  have hterm : ∀ {t : Nat}, raftRpcGetTerm ⟨src, comment, body⟩ = t →
      (∀ rq, body ≠ .voteRequest rq) → t = s.raft.term ∨ t = 0 := by
    rintro t rfl hbody
    exact hscreened.term hbody
  unfold dispatch
  cases body with
  | helloRequest address => exact .pure (.of_clean hdirty)
  | appendRequest rq =>
    exact does_raftHandleAppendRequest hdirty ⟨⟨src, comment, hmsg⟩, hterm rfl (by simp)⟩ hone
  | appendReply rpy =>
    exact .tidy (does_raftHandleAppendReply hdirty hmsg (hterm rfl (by simp)))
  | voteRequest rq =>
    exact .tidy (does_raftHandleVoteRequest hdirty hmsg hscreened)
  | voteReply rpy => exact .tidy (does_raftHandleVoteReply hdirty hmsg)
  | addServerRequest address =>
    exact .tidy (does_raftHandleAddServerRequest hdirty (Ctx.changesMembership_of_msg hmsg rfl))
  | addServerReply success remoteAddresses =>
    exact .tidy (light_raftHandleAddServerReply.soft.clean hdirty)
  | removeServerRequest sid requesterConn =>
    exact .tidy (does_raftHandleRemoveServerRequest hdirty (Ctx.changesMembership_of_msg hmsg rfl))
  | removeServerReply success targetSid =>
    exact .tidy (light_raftHandleRemoveServerReply.soft.clean hdirty)
  | installSnapshotRequest rq =>
    exact does_raftHandleInstallSnapshotRequest hdirty hmsg (hterm rfl (by simp))
  | installSnapshotReply rpy =>
    exact .tidy (softM_raftHandleInstallSnapshotReply.clean hdirty)
  | becomeLeader term =>
    exact .tidy (.get_bind (.ite (fun _ => does_raftStartElection hdirty) fun _ => .pure hdirty))
  | executeCommandRequest data prereq result =>
    exact .tidy (does_raftHandleExecuteCommandRequest hdirty)
  | executeCommandReply result status commitIndex =>
    exact .tidy (light_raftHandleExecuteCommandReply.soft.clean hdirty)

theorem does_raftHandleRpc (hmsg : ctx.msg = some rpc)
    (hstart : ctx.start = s.raft) (hone : 1 ≤ s.raft.logStart) :
    Does ctx (raftHandleRpc rpc) s (Tidy ctx) := by
  refine .getEnv_bind (.get_bind ?_)
  refine .choose (P := fun b s' => s'.ghost.dirty = ctx.dirty ∧ 1 ≤ s'.raft.logStart ∧
      (b = true → Screened ctx rpc s')) (fun _ => ?_) (fun hskip => ?_) ?_
  · refine does_raftReceiveTerm__.weaken ?_
    rintro b s' ⟨hghost, hstart, hterm⟩
    exact ⟨by rw [hghost, hdirty], by rw [hstart]; exact hone,
      fun hb => .inl (hterm hb).symm⟩
  · refine .pure ⟨hdirty, hone, fun _ => .inr ⟨hstart.symm, ?_⟩⟩
    by_cases hzero : raftRpcGetTerm rpc = 0
    · exact .inl hzero
    · rw [Ctx.Unscreened, hstart]
      exact .inr (Decidable.byContradiction fun h => hskip ⟨hzero, by simpa using h⟩)
  · rintro b s1 ⟨hdirty1, hone1, hscreened⟩
    refine .ite (fun hb => does_dispatch hdirty1 hmsg (hscreened hb) hone1) fun _ => ?_
    split
    · exact ((softM_raftSendAppendReply (by simp)).clean hdirty1).tidy
    · exact .pure (.of_clean hdirty1)

/-! ## 4. Waiters -/

theorem does_raftWaiterComplete {w : Waiter} {ws : List Waiter}
    (hw : w :: ws <+: s.raft.waiters) (hticket : w.commitTicket ≤ s.raft.log.cur) :
    Does ctx (raftWaiterComplete w.body) s (fun _ s' => s'.ghost.dirty = ctx.dirty ∧
      s.Keeps s') := by
  unfold raftWaiterComplete
  cases hbody : w.body with
  | entry index =>
    refine .get_bind (.when (P := fun s' => s'.ghost.dirty = ctx.dirty ∧ s.Keeps s') (fun _ => ?_)
      (fun _ => ⟨hdirty, .refl s⟩) ?_)
    · exact (does_raftUpdateOurMatchIndex hdirty).weaken
        fun _ _ h => ⟨h.dirty.trans hdirty, h.toKeeps⟩
    · rintro s1 ⟨hdirty1, hkeeps⟩
      have hact : Act ctx s1.core [] _ := .syncEntry w index
        (head?_of_isPrefix (hw.trans hkeeps.waiters)) hbody (hkeeps.cur.symm ▸ hticket)
      exact .modify (g := s1.ghost) hact ⟨hdirty1, hkeeps.waiters, hkeeps.cur⟩
  | term term vote =>
    have hact : Act ctx s.core [] _ := .syncTerm w term vote (head?_of_isPrefix hw) hbody hticket
    exact .modify (g := s.ghost) hact ⟨hdirty, prefix_refl _, rfl⟩
  | rpc rpc =>
    refine .get_bind (.ite (fun _ => .pure ⟨hdirty, .refl s⟩) fun hterm => ?_)
    refine .ite (fun _ => .pure ⟨hdirty, .refl s⟩) fun hsync => ?_
    refine .ite (fun _ => ?_) fun _ => .pure ⟨hdirty, .refl s⟩
    have hact : Act ctx s.core [.sent rpc s.raft] s.core := by
      refine .sendNow w rpc s.raft rfl (head?_of_isPrefix hw) hbody ?_
        (synced_of_raftIsRpcSynced (by simpa using hsync))
      by_cases hzero : raftRpcGetTerm rpc = 0
      · exact .inl hzero
      · exact .inr (Nat.not_lt.mp fun hlt => hterm ⟨hzero, hlt⟩)
    refine .bind (Q := fun _ s' => s = s') (.getEnv_bind (.ite (fun _ => .get_bind ?_)
      fun _ => .pure rfl)) ?_
    · exact .bind (.emit hact (Q := fun _ s' => s = s') rfl) fun _ _ h => .pure h
    · rintro _ _ rfl
      exact .pure ⟨hdirty, .refl s⟩

theorem does_completeWaiters (cur : Nat) (ws : List Waiter)
    (hws : ws <+: s.raft.waiters) (hcur : s.raft.log.cur = cur) :
    Does ctx (completeWaiters cur ws) s (Clean ctx) := by
  induction ws generalizing s with
  | nil => exact .pure hdirty
  | cons w ws ih =>
    unfold completeWaiters
    refine .ite (fun _ => .pure hdirty) fun hlt => ?_
    refine .bind (does_raftWaiterComplete hdirty hws (by omega)) ?_
    rintro _ s1 ⟨hdirty1, hkeeps⟩
    refine .modify_bind (g := s1.ghost) .drop (ih hdirty1 ?_ (hkeeps.cur.trans hcur))
    obtain ⟨more, hmore⟩ := hws.trans hkeeps.waiters
    show ws <+: s1.raft.waiters.tail
    rw [← hmore]
    exact ⟨more, rfl⟩

/-! ## 5. Timers and sessions -/

theorem does_runElectionTimer : Does ctx runElectionTimer s (Clean ctx) := by
  refine .getEnv_bind (.get_bind (.ite (fun _ => .pure hdirty) fun _ => .ite (fun _ => ?_)
    fun _ => does_raftStartElection hdirty))
  refine .ite (fun _ => ?_) fun _ => ?_
  · refine (SoftM.bind (.modify fun r g => ?_) fun _ => light_raftResetElectionTimer.soft).clean hdirty
    simp only [Raft.core, map_map]
    rfl
  · refine .bind does_raftBecomeFollower ?_
    rintro _ s1 ⟨hghost, -⟩
    exact does_raftStartElection (by rw [hghost, hdirty])

/-! ## 6. Calls -/

theorem does_raftLeave : Does ctx raftLeave s (Clean ctx) := by
  refine .get_bind (.ite (fun _ => .pure hdirty) fun _ => .skip_bind rfl ?_)
  refine .bind (light_raftTransferLeadership.soft ctx _) fun _ s1 h1 => ?_
  refine .bind does_raftBecomeFollower ?_
  rintro _ s2 ⟨hghost, -⟩
  refine light_raftSendRemoveServerRequests.soft.clean ?_
  rw [hghost, h1.ghost]
  exact hdirty

theorem does_raftUnixctlKick (hinput : ctx.ChangesMembership) :
    Does ctx (raftUnixctlKick sid) s (Clean ctx) := by
  refine .get_bind (.ite (fun _ => ?_) fun _ => .pure hdirty)
  refine .ite (fun _ => does_raftLeave hdirty) fun _ => .ite (fun _ => ?_) fun _ => ?_
  · exact does_raftHandleRemoveServerRequest hdirty hinput
  · exact .bind ((SoftM.send rfl).clean hdirty) fun _ _ h => .pure h

theorem does_raftUnixctlChangeElectionTimer {electionTimer : Nat} :
    Does ctx (raftUnixctlChangeElectionTimer electionTimer) s (Clean ctx) := by
  refine .get_bind (.ite (fun _ => .skip_bind rfl ?_) fun _ => .pure hdirty)
  refine .bind does_raftCommandExecute__ fun _ _ h => .pure ?_
  exact h.dirty.trans hdirty

/-! ## 7. Inputs -/

/-- Every input is handled by acts on the core. -/
theorem does_input {inp : Input} (hinput : ctx.input = some inp)
    (hstart : ctx.start = s.raft) (hone : 1 ≤ s.raft.logStart) : Does ctx inp.run s (Tidy ctx) := by
  have hsoft : ∀ {m : M Unit}, SoftM m → Does ctx m s (Tidy ctx) := fun h => (h.clean hdirty).tidy
  cases inp with
  | rpc rpc => exact does_raftHandleRpc hdirty (by rw [Ctx.msg, hinput]) hstart hone
  | synced cur =>
    refine .tidy ?_
    by_cases h : s.raft.log.cur ≤ cur ∧ cur ≤ s.raft.log.next
    · refine .modify (g := s.ghost) ?_ hdirty
      simp only [h, and_self, if_true]
      exact .progress cur h.1 h.2
    · refine .skip ?_ hdirty
      simp only [if_neg h]
      rfl
  | waiters => exact .tidy (.get_bind (does_completeWaiters hdirty _ _ (prefix_refl _) rfl))
  | electionTimer => exact .tidy (does_runElectionTimer hdirty)
  | leaveTimer => exact hsoft light_runLeaveTimer.soft
  | joinTimer => exact hsoft light_runJoinTimer.soft
  | pingTimer => exact hsoft softM_runPingTimer
  | close => exact hsoft softM_runClose
  | connected sid => exact hsoft softM_runConnected
  | disconnected sid => exact hsoft (.modify fun r => core_installInProgress r sid _ false)
  | clusterId cid =>
    refine hsoft (.modify fun r g => ?_)
    split <;> rfl
  | command data prereq =>
    refine .tidy (.bind does_raftCommandExecute__ fun _ _ h => .pure ?_)
    exact h.dirty.trans hdirty
  | nextEntry => exact .tidy (.bind (does_raftGetNextEntry hdirty) fun _ _ h => .pure h)
  | hasNextEntry =>
    exact .tidy (.bind (does_raftPeekNextEntry hdirty) fun _ _ h => .pure h.1)
  | snapshot data =>
    exact .tidy (.bind (does_raftStoreSnapshot hdirty hone) fun _ _ h => .pure h)
  | takeLeadership =>
    exact .tidy (.get_bind (.ite (fun _ => does_raftStartElection hdirty) fun _ => .pure hdirty))
  | transferLeadership reason => exact hsoft light_raftTransferLeadership.soft
  | changeElectionTimer timer => exact .tidy (does_raftUnixctlChangeElectionTimer hdirty)
  | kick sid => exact .tidy (does_raftUnixctlKick hdirty ⟨_, hinput, rfl⟩)
  | leave => exact .tidy (does_raftLeave hdirty)
  | rehash servers addServers commands =>
    refine .tidy ?_
    by_cases h : servers.isPerm s.raft.servers ∧ addServers.isPerm s.raft.addServers ∧
        commands.isPerm s.raft.commands
    · refine .modify (g := s.ghost) ?_ hdirty
      simp only [h, and_self, if_true]
      exact .rehash _ _ ((isPerm_iff.mp h.1).map _) ((isPerm_iff.mp h.2.1).map _)
    · refine .skip ?_ hdirty
      simp only [if_neg h]
      rfl

end Ovsgw.Cluster
