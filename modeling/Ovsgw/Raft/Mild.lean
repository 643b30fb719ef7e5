/-
  **Functions with mild effects.**

  Sending, writing to the log file, waiting for the disk and setting timers touch neither the log
  nor the servers nor the pending commands, and nothing stops them.  Such a function is `Within` the
  frame `mild`; every other frame of the development contains it.
-/
import Ovsgw.Raft.Hoare

namespace Ovsgw.Cluster

/-! ## 1. The frame -/

/-- The fields that mild functions leave alone. -/
structure Kept where
  sid : Uuid
  role : Role
  servers : List Server
  addServers : List Server
  removeServer : Option Server
  entries : List Entry
  logStart : Nat
  snap : Entry
  commitIndex : Nat
  commands : List Command

def Raft.kept (r : Raft) : Kept :=
  { sid := r.sid
    role := r.role
    servers := r.servers
    addServers := r.addServers
    removeServer := r.removeServer
    entries := r.entries
    logStart := r.logStart
    snap := r.snap
    commitIndex := r.commitIndex
    commands := r.commands }

def mild : Frame where
  ok ev := ∃ rpc r, ev = .sent rpc r
  rel r r' := r'.kept = r.kept
  bad _ := True
  refl _ := rfl
  trans h h' := h'.trans h

/-- A frame that allows what mild functions do. -/
structure Frame.Mild (F : Frame) : Prop where
  sent : ∀ rpc r, F.ok (.sent rpc r)
  kept : ∀ r r', r'.kept = r.kept → F.rel r r'

theorem Within.of_mild {F : Frame} {m : M α} (h : Within mild m) (hF : F.Mild) : Within F m :=
  h.mono (by rintro _ ⟨rpc, r, rfl⟩; exact hF.sent rpc r) hF.kept fun _ _ => trivial

/-- The frame of the functions that may complete commands as well. -/
def calm : Frame where
  ok _ := True
  rel r r' := r'.kept = { r.kept with commands := r'.commands }
  bad f := ∃ site, f = .access site
  refl _ := rfl
  trans h h' := by rw [h', h]

theorem calm_mild : calm.Mild where
  sent _ _ := trivial
  kept r r' h := by
    show r'.kept = { r.kept with commands := r'.kept.commands }
    rw [h]

theorem calm_assert (site : Site) : ¬ calm.bad (.assert site) := by rintro ⟨_, ⟨⟩⟩

/-! ## 2. The log file, waiters and sending -/

variable {rpc : Rpc} {index : Nat}

theorem mild_ovsdbLogWrite {rec : Record} : Within mild (ovsdbLogWrite rec) :=
  .bind .getEnv fun _ => .bind .get fun _ => .bind (.modify fun _ => rfl) fun _ => .pure _

theorem mild_raftWaiterCreate {body : WaiterBody} {startCommit : Bool} :
    Within mild (raftWaiterCreate body startCommit) := by
  unfold raftWaiterCreate
  refine .ite (.bind (.bind (.modify fun _ => rfl) fun _ => .bind .get fun _ => .pure _) ?_) ?_
  · exact fun _ => .modify fun _ => rfl
  · exact .bind (.pure _) fun _ => .modify fun _ => rfl

theorem mild_raftSendToConn : Within mild (raftSendToConn rpc) :=
  .bind .getEnv fun _ =>
    .ite (.bind .get fun r => .bind (.emit ⟨rpc, r, rfl⟩) fun _ => .pure _) (.pure _)

theorem mild_raftSend : Within mild (raftSend rpc) := by
  refine .bind .get fun _ => .ite (.pure _) (.ite (.pure _) (.ite ?_ mild_raftSendToConn))
  exact .bind mild_raftWaiterCreate fun _ => .pure _

/-- The end of `raft_update_commit_index`. -/
theorem mild_recordCommitIndex : Within mild (do
    let r ← get
    let _ ← ovsdbLogWrite { body := .commitIndex r.commitIndex }
    return true) :=
  .bind .get fun _ => .bind mild_ovsdbLogWrite fun _ => .pure _

/-! ## 3. Reading the log -/

section

variable {F : Frame} (hbad : ¬ F.bad (.assert .raftGetEntry))
include hbad

/-- The assertions of `raft_get_entry` come before its access. -/
theorem within_raftGetEntry : Within F (raftGetEntry index) := by
  intro env r
  by_cases hbound : r.logStart ≤ index ∧ index < r.logEnd
  · obtain ⟨e, -, hrun⟩ := raftGetEntry_run env r hbound.1 hbound.2
    rw [hrun]
    exact Within.pure e env r
  · rw [raftGetEntry_fault env r hbound]
    exact Within.fault hbad env r

theorem within_raftGetEid : Within F (raftGetEid index) := by
  unfold raftGetEid
  exact .bind .get fun _ => .when (.assert hbad) (.pure _)

theorem within_raftCurrentEid : Within F raftCurrentEid :=
  .bind .get fun _ => within_raftGetEid hbad

end

theorem within_raftHasUncommittedConfiguration {F : Frame}
    (hbad : ¬ F.bad (.assert .raftHasUncommittedConfiguration)) :
    Within F raftHasUncommittedConfiguration :=
  .bind .get fun _ => .bind (.assert hbad) fun _ => .pure _

/-! ## 4. Replies -/

theorem mild_sendAppendReplyRpc (src : Uuid) (rq : AppendRequest) (result : AppendResult)
    (comment : String) : Within mild (sendAppendReplyRpc src rq result comment) :=
  .bind .get fun _ => .bind mild_raftSend fun _ => .pure _

end Ovsgw.Cluster
