/-
  **The acts of the send path, of writes, and of commands.**
-/
import Ovsgw.Raft.Does
import Ovsgw.Raft.Mild

namespace Ovsgw.Cluster

/-! ## 1. Sending -/

/-- The bodies of which nothing is claimed. -/
def Body.free : Body → Bool
  | .appendRequest _ | .appendReply _ | .voteRequest _ | .voteReply _
  | .installSnapshotRequest _ => false
  | _ => true

variable {ctx : Ctx} {rpc : Rpc} {c : Core}

theorem MsgOk.of_free (h : rpc.body.free) : MsgOk ctx c rpc := by
  unfold MsgOk
  split <;> simp_all [Body.free]

theorem St.Soft.wait (s : St) (w : Waiter) :
    s.Soft ⟨{ s.raft with waiters := s.raft.waiters ++ [w] }, s.ghost⟩ :=
  ⟨⟨List.prefix_append _ _, rfl⟩, rfl⟩

theorem synced_of_raftIsRpcSynced {r : Raft} {g : Ghost}
    (h : raftIsRpcSynced r rpc = true) : (r.core g).Synced rpc := by
  simp only [raftIsRpcSynced, Bool.and_eq_true, decide_eq_true_eq] at h
  refine ⟨h.1.1, h.1.2, fun vote hvote => ?_⟩
  rw [hvote] at h
  exact eq_of_beq h.2

variable {s : St}

theorem does_raftWaiterCreate_rpc (hok : MsgOk ctx s.core rpc) :
    Does ctx (raftWaiterCreate (.rpc rpc) false) s (fun _ s' => s.Soft s') := by
  show Does ctx (modify fun r => { r with waiters := r.waiters ++ [⟨0, .rpc rpc⟩] }) s _
  exact .modify (g := s.ghost) (.sendLater rpc hok) (.wait s _)

theorem does_raftSendToConn (hok : MsgOk ctx s.core rpc)
    (hsync : s.core.Synced rpc ∨ rpc.body.unsynced) :
    Does ctx (raftSendToConn rpc) s (fun _ s' => s.Soft s') := by
  unfold raftSendToConn
  refine .getEnv_bind (.ite (fun _ => ?_) fun _ => .pure (.refl s))
  exact .get_bind (.bind (.emit (.send rpc s.raft rfl hok hsync) (.refl s)) fun _ _ hs => .pure hs)

theorem does_raftSend (hok : rpc.sid ≠ 0 → MsgOk ctx s.core rpc) :
    Does ctx (raftSend rpc) s (fun _ s' => s.Soft s') := by
  unfold raftSend
  refine .get_bind (.ite (fun _ => .pure (.refl s)) fun _ => ?_)
  refine .ite (fun _ => .pure (.refl s)) fun hconn => ?_
  have hsid : rpc.sid ≠ 0 := by
    intro hzero
    simp [raftFindConnBySid, hzero] at hconn
  refine .ite (fun _ => ?_) fun hsync => ?_
  · exact .bind (does_raftWaiterCreate_rpc (hok hsid)) fun _ _ hs => .pure hs
  · exact does_raftSendToConn (hok hsid) (.inl (synced_of_raftIsRpcSynced (by simpa using hsync)))

theorem SoftM.send (h : rpc.body.free) : SoftM (raftSend rpc) :=
  fun _ _ => does_raftSend fun _ => .of_free h

theorem SoftM.sendToConn (h : rpc.body.free) (h' : rpc.body.unsynced) :
    SoftM (raftSendToConn rpc) :=
  fun _ _ => does_raftSendToConn (.of_free h) (.inr h')

/-! ## 2. Functions that are soft and within a frame

Most functions that are soft are also mild, or calm.  One walk through the code shows both.
-/

structure Light (F : Frame) (m : M α) : Prop where
  within : Within F m
  soft : SoftM m

namespace Light

variable {α β : Type} {F : Frame} {p : Prop} [Decidable p] {m : M α}

theorem pure (a : α) : Light F (pure a) := ⟨.pure a, .pure a⟩

theorem get : Light F get := ⟨.get, .get⟩

theorem getEnv : Light F getEnv := ⟨.getEnv, .getEnv⟩

theorem modify {f : Raft → Raft} (h : ∀ r, F.rel r (f r) ∧ (f r).core = r.core) :
    Light F (modify f) :=
  ⟨.modify fun r => (h r).1, .modify fun r => congrFun (h r).2⟩

theorem bind {k : α → M β} (h : Light F m) (hk : ∀ a, Light F (k a)) : Light F (m >>= k) :=
  ⟨.bind h.within fun a => (hk a).within, .bind h.soft fun a => (hk a).soft⟩

theorem ite {m' : M α} (h : Light F m) (h' : Light F m') : Light F (if p then m else m') :=
  ⟨.ite h.within h'.within, .ite h.soft h'.soft⟩

theorem when {m : M Unit} {k : Unit → M β} (h : Light F m) (hk : Light F (k ())) :
    Light F (if p then m >>= k else k ()) :=
  .ite (.bind h fun _ => hk) hk

theorem forEach {xs : List α} {f : α → M Unit} (hf : ∀ x, Light F (f x)) : Light F (forEach xs f) :=
  ⟨.forEach fun x => (hf x).within, .forEach fun x _ => (hf x).soft⟩

theorem calm (h : Light mild m) : Light calm m := ⟨h.within.of_mild calm_mild, h.soft⟩

theorem send (h : rpc.body.free) : Light mild (raftSend rpc) := ⟨mild_raftSend, .send h⟩

theorem sendToConn (h : rpc.body.free) (h' : rpc.body.unsynced) : Light mild (raftSendToConn rpc) :=
  ⟨mild_raftSendToConn, .sendToConn h h'⟩

end Light

/-! ## 3. The file, timers and commands -/

variable {rec : Record} {comment : String} {sid eid targetSid : Uuid} {status : CommandStatus}
  {commitIndex : Nat} {cmd : Command} {f : Command → Command} {success : Bool} {n : Nat}

theorem softM_ovsdbLogWrite : SoftM (ovsdbLogWrite rec) := by
  intro ctx s
  unfold ovsdbLogWrite
  refine .getEnv_bind (.get_bind ?_)
  by_cases hok : ctx.env.writeOk s.raft.writes = true
  · simp only [hok, if_true]
    exact .modify_bind (g := s.ghost) (.write rec) (.pure ⟨⟨List.prefix_refl _, rfl⟩, rfl⟩)
  · simp only [hok]
    exact .skip_bind rfl (.pure (.of_core_eq rfl))

theorem light_ovsdbLogWrite : Light mild (ovsdbLogWrite rec) :=
  ⟨mild_ovsdbLogWrite, softM_ovsdbLogWrite⟩

theorem light_raftHandleWriteError {ok : Bool} : Light mild (raftHandleWriteError ok) := by
  unfold raftHandleWriteError
  exact .when (.modify fun _ => ⟨rfl, rfl⟩) (.bind .get fun _ => .pure _)

theorem mild_raftSetTerm {term : Nat} {vote : Uuid} : Within mild (raftSetTerm term vote) := by
  refine .bind mild_ovsdbLogWrite fun ok =>
    .bind light_raftHandleWriteError.within fun _ => ?_
  refine .ite (.pure _) (.bind mild_raftWaiterCreate fun _ => ?_)
  exact .bind (.modify fun _ => rfl) fun _ => .pure _

theorem light_raftRecordNote {note : String} : Light mild (raftRecordNote note comment) :=
  .bind light_ovsdbLogWrite fun _ => .pure _

theorem light_recordLeader : Light mild (recordLeader sid) :=
  .bind (.modify fun _ => ⟨rfl, rfl⟩) fun _ => .bind .get fun _ =>
    .bind light_ovsdbLogWrite fun _ => .pure _

theorem light_raftResetElectionTimer : Light mild raftResetElectionTimer :=
  .bind .getEnv fun _ => .modify fun _ => ⟨rfl, rfl⟩

theorem light_raftResetPingTimer : Light mild raftResetPingTimer :=
  .bind .getEnv fun _ => .modify fun _ => ⟨rfl, rfl⟩

theorem light_raftSendExecuteCommandReply :
    Light mild (raftSendExecuteCommandReply sid eid status commitIndex) :=
  .bind (.send rfl) fun _ => .pure _

theorem light_raftCommandComplete : Light calm (raftCommandComplete cmd status) := by
  unfold raftCommandComplete
  exact .when light_raftSendExecuteCommandReply.calm
    (.bind ⟨.emit trivial, .complete _ _ _⟩ fun _ => .modify fun _ => ⟨rfl, rfl⟩)

theorem light_updateCommand : Light calm (updateCommand cmd f) :=
  .bind (.modify fun _ => ⟨rfl, rfl⟩) fun _ => .pure _

theorem light_raftCompleteAllCommands : Light calm (raftCompleteAllCommands status) :=
  .bind .get fun _ => .forEach fun _ => light_raftCommandComplete

theorem light_completeByEid : Light calm (completeByEid eid f) := by
  refine .bind .get fun r => ?_
  cases raftFindCommandByEid r eid with
  | none => exact .pure _
  | some cmd => exact .bind light_updateCommand fun _ => light_raftCommandComplete

theorem light_raftHandleExecuteCommandReply {result : Uuid} :
    Light calm (raftHandleExecuteCommandReply result status commitIndex) := by
  refine .bind .get fun r => ?_
  cases raftFindCommandByEid r result with
  | none => exact .pure _
  | some cmd =>
    refine .ite (.bind .getEnv fun _ => .bind light_updateCommand fun _ => .pure _) ?_
    exact .bind light_updateCommand fun _ => light_raftCommandComplete

/-! ## 4. Membership -/

theorem light_raftSendAddServerReply__ :
    Light mild (raftSendAddServerReply__ sid success comment) :=
  .bind .get fun _ => .bind (.send rfl) fun _ => .pure _

theorem light_raftFinishedLeavingCluster : Light mild raftFinishedLeavingCluster :=
  .bind light_raftRecordNote fun _ => .modify fun _ => ⟨rfl, rfl⟩

theorem light_raftSendRemoveServerReplyRpc {dstSid : Uuid} :
    Light mild (raftSendRemoveServerReplyRpc dstSid targetSid success comment) :=
  .bind .get fun _ => .ite (.ite light_raftFinishedLeavingCluster (.pure _))
    (.bind (.send rfl) fun _ => .pure _)

theorem light_raftSendRemoveServerReply__ {requesterSid : Uuid} :
    Light mild (raftSendRemoveServerReply__ targetSid requesterSid success comment) := by
  unfold raftSendRemoveServerReply__
  exact .when light_raftSendRemoveServerReplyRpc (.ite light_raftSendRemoveServerReplyRpc (.pure _))

theorem light_raftHandleAddServerReply {remoteAddresses : List String} :
    Light mild (raftHandleAddServerReply success remoteAddresses) :=
  .bind .get fun _ => .ite (.pure _)
    (.ite (.modify fun _ => ⟨rfl, rfl⟩) (.modify fun _ => ⟨rfl, rfl⟩))

theorem light_raftHandleRemoveServerReply :
    Light mild (raftHandleRemoveServerReply success targetSid) :=
  .bind .get fun _ => .ite light_raftFinishedLeavingCluster (.pure _)

theorem light_raftSendRemoveServerRequests : Light mild raftSendRemoveServerRequests :=
  .bind .getEnv fun _ => .bind .get fun _ => .bind
    (.forEach fun _ => .ite (.bind (.send rfl) fun _ => .pure _) (.pure _))
    fun _ => .modify fun _ => ⟨rfl, rfl⟩

theorem light_runLeaveTimer : Light mild runLeaveTimer :=
  .bind .getEnv fun _ => .bind .get fun _ => .ite light_raftSendRemoveServerRequests (.pure _)

theorem light_runJoinTimer : Light mild runJoinTimer :=
  .bind .getEnv fun _ => .bind .get fun _ => .ite (.bind (.modify fun _ => ⟨rfl, rfl⟩) fun _ =>
      .forEach fun _ => .bind (.sendToConn rfl rfl) fun _ => .pure _)
    (.pure _)

theorem light_raftTransferLeadership {reason : String} :
    Light mild (raftTransferLeadership reason) := by
  refine .bind .get fun r => .ite ?_ (.pure _)
  cases r.servers.find? (fun s =>
      s.sid != r.sid && s.phase == .stable && raftFindConnBySid r s.sid) with
  | none => exact .pure _
  | some s => exact .bind (.sendToConn rfl rfl) fun _ => light_raftRecordNote

theorem softM_reportRemoved : SoftM (reportRemoved success comment) := by
  refine .bind .get fun r => ?_
  cases r.removeServer with
  | some s =>
    exact .bind light_raftSendRemoveServerReply__.soft fun _ => .modify fun _ _ => rfl
  | none => exact .pure _

/-! ## 5. Reading the log -/

theorem does_entryAt (site : Site) (i : Nat) :
    Does ctx (entryAt site i) s (fun e s' => s = s' ∧ s.raft.entryAt? i = some e) := by
  refine .get_bind ?_
  cases he : s.raft.entryAt? i with
  | some e => exact .pure ⟨rfl, rfl⟩
  | none => exact .fault (.access _ _)

theorem does_raftGetEntry (i : Nat)
    (hbound : s.core.IndexOk → s.raft.logStart ≤ i ∧ i < s.raft.logEnd) :
    Does ctx (raftGetEntry i) s (fun e s' => s = s' ∧ s.raft.entryAt? i = some e) := by
  refine .get_bind (.assert_bind (fun hlow _ _ _ hok => hlow (hbound hok).1) fun _ => ?_)
  refine .assert_bind (fun hhigh _ _ _ hok => hhigh (hbound hok).2) fun _ => ?_
  exact does_entryAt _ _

theorem does_raftGetEid (i : Nat)
    (hbound : s.core.IndexOk → s.raft.logStart ≤ i → i < s.raft.logEnd) :
    Does ctx (raftGetEid i) s (fun eid s' => s = s' ∧
      eid = latestEid s.raft.snap.eid (s.raft.entries.take (i + 1 - s.raft.logStart))) := by
  unfold raftGetEid
  refine .get_bind (.when (P := fun s' => s = s') (fun hlow => ?_) (fun _ => rfl) ?_)
  · exact .assert (fun hhigh _ _ _ hok => hhigh (hbound hok hlow)) fun _ => rfl
  · rintro _ rfl
    exact .pure ⟨rfl, rfl⟩

theorem does_raftCurrentEid :
    Does ctx raftCurrentEid s (fun eid s' => s = s' ∧ eid = s.core.currentEid) := by
  refine .get_bind ((does_raftGetEid _ fun hok _ => ?_).weaken ?_)
  · have := hok.start
    have : s.core.logStart = s.raft.logStart := rfl
    simp only [Raft.logEnd]
    omega
  · rintro eid s' ⟨rfl, rfl⟩
    refine ⟨rfl, ?_⟩
    rw [List.take_of_length_le (by simp only [Raft.logEnd]; omega)]
    rfl

/-! ## 6. Append requests and snapshots -/

theorem Raft.core_assign {f : Server → Server} (hf : ∀ s, (f s).peer = s.peer) (r : Raft)
    (ref : ServerRef) (g : Ghost) : (r.assign ref f).core g = r.core g := by
  cases ref <;> simp only [Raft.assign] <;> split <;>
    simp [Raft.core, map_peer_updateServer_of_peer_eq hf]

theorem SoftM.assign {f : Server → Server} (hf : ∀ s, (f s).peer = s.peer) (ref : ServerRef) :
    SoftM (Cluster.modify (·.assign ref f)) :=
  .modify fun r g => r.core_assign hf ref g

theorem segment_of_next {next prevLogTerm : Nat} {rq : AppendRequest}
    (hnext : next ≠ 0) (hprev : rq.prevLogIndex = next - 1) (hterm : rq.prevLogTerm = prevLogTerm)
    (hbefore : next - 1 < c.logStart → prevLogTerm = c.snap.term)
    (hwithin : c.logStart ≤ next - 1 → ∃ e, c.entryAt? (next - 1) = some e ∧ prevLogTerm = e.term)
    (hn : n ≠ 0 → c.logStart ≤ next)
    (hentries : rq.entries = (c.entries.drop (next - c.logStart)).take n) : c.Segment rq where
  before h := by rw [hterm]; exact hbefore (hprev ▸ h)
  within h := by rw [hterm, hprev]; exact hwithin (hprev ▸ h)
  entries := by
    have hindex : rq.prevLogIndex + 1 = next := by
      rw [hprev, Nat.sub_add_cancel (Nat.pos_of_ne_zero hnext)]
    rw [hindex, hentries]
    exact List.take_prefix _ _
  start hne := by
    have hn0 : n ≠ 0 := by
      rintro rfl
      simp [hentries] at hne
    rw [hprev, Nat.sub_add_cancel (Nat.pos_of_ne_zero hnext)]
    exact hn hn0

theorem softM_raftSendAppendRequest {peer : Server} {comment : Option String} :
    SoftM (raftSendAppendRequest peer n comment) := by
  intro ctx s
  unfold raftSendAppendRequest
  refine .get_bind (.assert_bind (fun _ => .of_not_indexed rfl _) fun hrole => ?_)
  refine .when (P := fun s' => s = s' ∧ peer.nextIndex ≠ 0) (fun _ => .fault (.access _ _))
    (fun h => ⟨rfl, h⟩) ?_
  rintro _ ⟨rfl, hnext⟩
  refine .choose (P := fun t s' => s = s' ∧
      (peer.nextIndex - 1 < s.raft.logStart → t = s.raft.snap.term) ∧
      (s.raft.logStart ≤ peer.nextIndex - 1 →
        ∃ e, s.raft.entryAt? (peer.nextIndex - 1) = some e ∧ t = e.term))
    (fun hstart => ?_) (fun hstart => ?_) ?_
  · refine .bind (does_entryAt _ _) ?_
    rintro e _ ⟨rfl, he⟩
    exact .pure ⟨rfl, fun hlt => absurd hstart (Nat.not_le.mpr hlt), fun _ => ⟨e, he, rfl⟩⟩
  · exact .pure ⟨rfl, fun _ => rfl, fun hle => absurd hle hstart⟩
  rintro prevLogTerm _ ⟨rfl, hbefore, hwithin⟩
  refine .when (P := fun s' => s = s' ∧ (n ≠ 0 → s.raft.logStart ≤ peer.nextIndex))
    (fun _ => .fault (.access _ _)) (fun h => ⟨rfl, fun hn => ?_⟩) ?_
  · exact Decidable.byContradiction fun hlow => h ⟨hn, fun hin => hlow hin.1⟩
  rintro _ ⟨rfl, hn⟩
  refine .bind (does_raftSend fun _ => ⟨hrole, rfl, rfl, ?_⟩) fun _ _ hs => .pure hs
  exact segment_of_next hnext rfl rfl hbefore hwithin hn rfl

theorem softM_raftSendInstallSnapshotRequest {ref : ServerRef} {comment : Option String} :
    SoftM (raftSendInstallSnapshotRequest ref comment) := by
  intro ctx s
  unfold raftSendInstallSnapshotRequest
  refine .get_bind ?_
  cases s.raft.deref ref with
  | none => exact .fault (.access _ _)
  | some server =>
    refine .ite (fun _ => .pure (.refl s)) fun _ => ?_
    cases hservers : s.raft.snap.servers with
    | none => exact .fault (.access _ _)
    | some lastServers =>
      cases s.raft.snap.data with
      | none => exact .fault (.access _ _)
      | some data =>
        refine .bind (does_raftSend fun _ => ⟨rfl, rfl, rfl, rfl, hservers.symm⟩) fun sent s' hs => ?_
        exact (SoftM.assign (f := ({ · with installSnapshotRequestInProgress := sent }))
          (fun _ => rfl) ref ctx s').weaken fun _ _ hs' => hs.trans hs'

theorem softM_raftSendHeartbeats : SoftM raftSendHeartbeats :=
  .bind .get fun _ => .bind
    (.forEach fun _ _ => .ite softM_raftSendAppendRequest (.pure _)) fun _ =>
    .bind (.forEach fun _ _ => .ite light_raftSendExecuteCommandReply.soft (.pure _))
      fun _ => light_raftResetPingTimer.soft

end Ovsgw.Cluster
