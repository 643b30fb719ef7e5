/-
  **Array accesses of the handler of append requests.**

  `raft_handle_append_request` computes with indexes that come from the network.  Where a request
  starts before the log, it skips entries of the request, and the number of entries to skip is a
  difference of 64-bit numbers.  It stays within the request unless `prev_log_index` is the largest
  such number and the request has no entries: then the index of the first entry is 0 and the index
  of the last one is not.  Otherwise the log reaches, by the time a reply says so, to the last entry
  of the request, and the commit index does not leave it.
-/
import Ovsgw.Raft.RpcCodec
import Ovsgw.Raft.Snapshot

namespace Ovsgw.Cluster

/-! ## 1. Functions that leave the log alone -/

/-- A request is read where it has no entry, or the log where it has none. -/
def Fault.OutOfRange (f : Fault) : Prop :=
  f = .access .raftHandleAppendRequest ∨ f = .access .raftHandleAppendEntries ∨
    f = .assert .raftGetEntry

/-- The log ends and is committed where it was, and no server has become a leader. -/
structure Raft.SameLog (r r' : Raft) : Prop where
  start : r'.logStart = r.logStart
  stop : r'.logEnd = r.logEnd
  commit : r'.commitIndex = r.commitIndex
  role : r.role ≠ .leader → r'.role ≠ .leader

def sameLog (bad : Fault → Prop) : Frame where
  ok _ := True
  rel := Raft.SameLog
  bad := bad
  refl _ := ⟨rfl, rfl, rfl, id⟩
  trans h h' := ⟨h'.start.trans h.start, h'.stop.trans h.stop, h'.commit.trans h.commit,
    fun hrole => h'.role (h.role hrole)⟩

variable {bad : Fault → Prop} {m : M α} {env : Env} {r r' : Raft} {rq : AppendRequest} {rpc : Rpc}
  {src : Uuid} {comment : String} {entries : List Entry} {w : Written} {index last : Nat}

theorem sameLog_mild : (sameLog bad).Mild where
  sent _ _ := trivial
  kept r r' h := by
    have hstart : r'.logStart = r.logStart := congrArg Kept.logStart h
    have hentries : r'.entries = r.entries := congrArg Kept.entries h
    have hrole : r'.role = r.role := congrArg Kept.role h
    exact ⟨hstart, by rw [Raft.logEnd, Raft.logEnd, hstart, hentries], congrArg Kept.commitIndex h,
      fun h => hrole ▸ h⟩

theorem Within.sameLog (h : Within mild m) : Within (sameLog bad) m := h.of_mild sameLog_mild

/-- The run from `r` reads nothing out of range. -/
abbrev Bounded (env : Env) (m : M α) (r : Raft) (post : α → Raft → Prop) : Prop :=
  Ensures (fun _ => True) Fault.OutOfRange env m r post

theorem Within.ensures (h : Within (Cluster.sameLog bad) m) :
    Ensures (fun _ => True) bad env m r (fun _ => r.SameLog) := by
  intro _
  obtain ⟨-, hsame, hfault⟩ := h env r
  cases hres : (m env r).result with
  | ok a => exact hsame
  | error f => exact hfault f hres

end Ovsgw.Cluster
