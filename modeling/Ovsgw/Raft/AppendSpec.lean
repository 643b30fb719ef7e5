/-
  **The acts of replication: append requests and replies, and snapshots.**
-/
import Ovsgw.Raft.ElectionSpec

namespace Ovsgw.Cluster

open List

/-! ## 1. Replies to append requests -/

variable {ctx : Ctx} {s : St} {src : Uuid} {rq part : AppendRequest} {comment : String} {rpc : Rpc}
  {ref : ServerRef} {i : Nat}

theorem softM_raftSendAppendReply {result : AppendResult} (hresult : result ≠ .ok) :
    SoftM (raftSendAppendReply src rq result comment) := by
  intro ctx s
  unfold raftSendAppendReply
  refine .get_bind (.ite (fun h => absurd h.1 hresult) fun _ => ?_)
  unfold sendAppendReplyRpc
  refine .get_bind ?_
  exact .bind (does_raftSend fun _ => ⟨rfl, fun h => absurd h hresult⟩) fun _ _ h => .pure h

theorem Core.Acknowledges.of_commits {s' : St}
    (h : s.core.Acknowledges rq) (hs : s.Commits s') : s'.core.Acknowledges rq := by
  rw [hs.core]
  exact h

theorem does_raftSendAppendReply_ok
    (hrole : s.raft.role ≠ .leader) (hrq : ctx.Appending s.core rq) (hack : s.core.Acknowledges rq) :
    Does ctx (raftSendAppendReply src rq .ok comment) s (fun _ s' => s.Commits s') := by
  have hsend : ∀ s', s.Commits s' →
      Does ctx (sendAppendReplyRpc src rq .ok comment) s' (fun _ s' => s.Commits s') := by
    intro s' hs'
    have hterm : s'.core.term = s.core.term := hs'.term
    have hrq' : ctx.Appending s'.core rq := ⟨hrq.1, hterm ▸ hrq.2⟩
    exact .get_bind (.bind
      (does_raftSend fun _ => ⟨rfl, fun _ => ⟨rq, hrq', hack.of_commits hs', rfl, rfl⟩⟩)
      fun _ _ h => .pure (hs'.trans (.of_soft h)))
  refine .get_bind (.ite (fun _ => ?_) fun _ => hsend s (.of_soft (.refl s)))
  refine .bind (does_raftUpdateCommitIndex_follower hrole ?_) fun _ => hsend
  exact .follow rq _ hrole hrq hack (Nat.min_le_left _ _) (Nat.min_le_right _ _)

/-! ## 2. Matching a request against the log -/

variable {g : Ghost} {c : Core} {r : Raft}

theorem termAt_of_matchIndexAndTerm {prev prevTerm : Nat}
    (h : matchIndexAndTerm r prev prevTerm = none) :
    (r.core g).termAt prev = some prevTerm ∧ r.logStart ≤ prev + 1 := by
  unfold matchIndexAndTerm at h
  split at h
  · cases h
  next hlow =>
    split at h
    · rename_i hprev
      split at h
      · cases h
      · rename_i hterm
        have hstart : prev = (r.core g).logStart - 1 := hprev
        refine ⟨?_, by omega⟩
        rw [Core.termAt, if_pos hstart]
        exact congrArg some (Decidable.not_not.mp hterm).symm
    · rename_i hprev
      cases he : r.entryAt? prev with
      | none => simp [he] at h
      | some e =>
        simp only [he, ite_eq_right_iff, reduceCtorEq, imp_false, Decidable.not_not] at h
        have hstart : prev ≠ (r.core g).logStart - 1 := hprev
        refine ⟨?_, by omega⟩
        rw [Core.termAt, if_neg hstart, Raft.core_entry?, he]
        exact congrArg some h

/-- What `raft_handle_append_request` passes on of a request: the part from an
    index on, or all of it. -/
structure AppendRequest.Part (rq part : AppendRequest) : Prop where
  sub : ∀ e ∈ part.entries, e ∈ rq.entries
  last : rq.Fits → part.last = rq.last
  entryAt : rq.Fits → ∀ i, part.prevLogIndex < i → part.entryAt i = rq.entryAt i
  termAt : rq.Fits → ∀ i, part.prevLogIndex ≤ i → part.termAt i = rq.termAt i

theorem Core.Agrees.of_part (hpart : rq.Part part) (hfits : rq.Fits)
    (hi : part.prevLogIndex ≤ i) (h : c.Agrees part i) : c.Agrees rq i := by
  obtain ⟨t, hc, hrq⟩ := h
  exact ⟨t, hc, hpart.termAt hfits i hi ▸ hrq⟩

theorem Core.termAt_lt {t : Nat} (h : c.termAt i = some t) : 1 ≤ c.logStart → i < c.logEnd := by
  intro hone
  unfold Core.termAt at h
  split at h
  · simp only [Core.logEnd]
    omega
  · cases he : c.entryAt? i with
    | none => simp [he] at h
    | some e =>
      unfold Core.entryAt? at he
      split at he
      · have := (List.getElem?_eq_some_iff.mp he).1
        simp only [Core.logEnd]
        omega
      · cases he

theorem Core.termAt_congr {c' : Core} (hstart : c'.logStart = c.logStart)
    (hsnap : c'.snap = c.snap) (h : c.logStart ≤ i →
      c'.entries[i - c.logStart]? = c.entries[i - c.logStart]?) : c'.termAt i = c.termAt i := by
  rw [Core.termAt, Core.termAt, Core.entryAt?, Core.entryAt?, hstart, hsnap]
  by_cases hle : c.logStart ≤ i
  · rw [if_pos hle, if_pos hle, h hle]
  · rw [if_neg hle, if_neg hle]

theorem Core.termAt_take (c : Core) {n : Nat} (h : i < c.logStart + n) :
    ({ c with entries := c.entries.take n, ghost := g } : Core).termAt i = c.termAt i :=
  termAt_congr rfl rfl fun _ => getElem?_take_of_lt (by omega)

theorem Core.termAt_push (c : Core) (e : Entry) (ok : Bool) (h : i < c.logEnd)
    : ({ c.push e ok with ghost := g } : Core).termAt i = c.termAt i := by
  simp only [Core.logEnd] at h
  exact termAt_congr rfl rfl fun _ => getElem?_append_left (by omega)

/-- The state of a follower that is comparing its log with a request, up to `index` so far. -/
structure St.Comparing (ctx : Ctx) (rq part : AppendRequest) (index : Nat) (s : St) : Prop where
  one : 1 ≤ s.raft.logStart
  role : s.raft.role ≠ .leader
  appending : ctx.Appending s.core rq
  start : s.raft.logStart ≤ index
  past : part.prevLogIndex < index
  agrees : s.core.Agrees part (index - 1)

variable {e : Entry} {index : Nat} {w : Written}

theorem AppendRequest.entryAt_of_drop {es : List Entry} (hpast : part.prevLogIndex < index)
    (hes : part.entries.drop (index - part.prevLogIndex - 1) = e :: es) :
    part.entryAt index = some e ∧
      part.entries.drop (index + 1 - part.prevLogIndex - 1) = es ∧ e ∈ part.entries := by
  have hget : part.entries[index - part.prevLogIndex - 1]? = some e := by
    have := congrArg List.head? hes
    simpa [head?_drop] using this
  refine ⟨by rw [AppendRequest.entryAt, if_pos hpast, hget], ?_, mem_of_getElem? hget⟩
  have htail := congrArg List.tail hes
  rw [tail_drop, tail_cons] at htail
  rw [← htail]
  congr 1
  omega

theorem AppendRequest.termAt_of_entryAt (hpast : part.prevLogIndex < index)
    (he : part.entryAt index = some e) : part.termAt index = some e.term := by
  rw [AppendRequest.termAt, if_neg (by omega), he]
  rfl

namespace St.Comparing

variable {ctx : Ctx} {rq part : AppendRequest} {index : Nat} {s : St}

section

variable (h : s.Comparing ctx rq part index)
include h

theorem le_logEnd : index ≤ s.raft.logEnd := by
  obtain ⟨t, ht, -⟩ := h.agrees
  have hlt : index - 1 < s.raft.logEnd := Core.termAt_lt ht h.one
  omega

variable {e old : Entry}

/-- The entry at `index` is the one in the request. -/
theorem next (hold : s.raft.entryAt? index = some old)
    (he : part.entryAt index = some e) (hterm : old.term = e.term) :
    s.Comparing ctx rq part (index + 1) where
  one := h.one
  role := h.role
  appending := h.appending
  start := Nat.le_succ_of_le h.start
  past := Nat.lt_succ_of_lt h.past
  agrees := by
    refine ⟨e.term, ?_, part.termAt_of_entryAt h.past he⟩
    have hne : index ≠ s.core.logStart - 1 := by
      have h1 : s.core.logStart = s.raft.logStart := rfl
      have h2 := h.one
      have h3 := h.start
      omega
    show s.core.termAt index = some e.term
    rw [Core.termAt, if_neg hne]
    show (s.raft.entryAt? index).map (·.term) = some e.term
    rw [hold, ← hterm]
    rfl

theorem conflicts (hpart : rq.Part part) (hold : s.raft.entryAt? index = some old)
    (he : part.entryAt index = some e) (hterm : old.term ≠ e.term) (hlt : index < s.raft.logEnd) :
    s.core.Conflicts rq index := by
  have hpast := h.past
  refine ⟨h.start, hlt, fun hfits => ⟨h.agrees.of_part hpart hfits (by omega), old, e, hold, ?_,
    hterm⟩⟩
  rw [← hpart.entryAt hfits index h.past, he]

/-- The log after it has been cut at `index`. -/
theorem truncated (g : Ghost) : St.Comparing ctx rq part index
      ⟨{ s.raft with entries := s.raft.entries.take (index - s.raft.logStart) }, g⟩ where
  one := h.one
  role := h.role
  appending := h.appending
  start := h.start
  past := h.past
  agrees := by
    obtain ⟨t, ht, hrq⟩ := h.agrees
    have hstart : s.core.logStart ≤ index := h.start
    have hpos : 1 ≤ s.core.logStart := h.one
    refine ⟨t, ?_, hrq⟩
    show ({ s.core with entries := s.core.entries.take (index - s.core.logStart), ghost := g }
      : Core).termAt (index - 1) = some t
    rw [Core.termAt_take _ (by omega), ht]

theorem agrees_last (hes : part.entries.drop (index - part.prevLogIndex - 1) = []) :
    s.core.Agrees part part.last := by
  have hlen := drop_eq_nil_iff.mp hes
  have hpast := h.past
  obtain ⟨t, ht, hrq⟩ := h.agrees
  have hle : index - 1 ≤ part.last := by
    unfold AppendRequest.termAt at hrq
    split at hrq
    · simp only [AppendRequest.last]
      omega
    · cases hget : part.entryAt (index - 1) with
      | none => simp [hget] at hrq
      | some e =>
        unfold AppendRequest.entryAt at hget
        split at hget
        · have := (List.getElem?_eq_some_iff.mp hget).1
          simp only [AppendRequest.last]
          omega
        · cases hget
  have heq : index - 1 = part.last := by
    simp only [AppendRequest.last] at hle ⊢
    omega
  exact heq ▸ h.agrees

theorem acknowledges (hpart : rq.Part part)
    (hes : part.entries.drop (index - part.prevLogIndex - 1) = []) : s.core.Acknowledges rq := by
  intro hfits
  have hlast : s.core.Agrees rq part.last :=
    (h.agrees_last hes).of_part hpart hfits (Nat.le_add_right _ _)
  rw [hpart.last hfits] at hlast
  exact .inr hlast

end

theorem pushed (h : s.Comparing ctx rq part s.raft.logEnd) (env : Env)
    (he : part.entryAt s.raft.logEnd = some e) (g : Ghost) :
    St.Comparing ctx rq part (s.raft.pushed env e).logEnd ⟨s.raft.pushed env e, g⟩ := by
  have hpushed : St.Comparing ctx rq part s.raft.logEnd ⟨s.raft.pushed env e, g⟩ := by
    refine ⟨h.one, h.role, h.appending, h.start, h.past, ?_⟩
    obtain ⟨t, ht, hrq⟩ := h.agrees
    refine ⟨t, ?_, hrq⟩
    have hlt : s.core.logEnd - 1 < s.core.logEnd := Core.termAt_lt ht h.one
    exact (s.core.termAt_push e (env.writeOk s.raft.writes) hlt (g := g)).trans ht
  have hstart : (s.raft.pushed env e).logStart ≤ s.raft.logEnd := h.start
  have hentry : (s.raft.pushed env e).entryAt? s.raft.logEnd = some e := by
    rw [Raft.entryAt?, if_pos hstart]
    simp [Raft.pushed, Raft.logEnd]
  rw [Raft.pushed_logEnd]
  exact hpushed.next hentry he rfl

end St.Comparing

theorem raftTruncate_run (env : Env) (r : Raft) (newEnd : Nat) (h : r.logStart ≤ newEnd) :
    raftTruncate newEnd env r =
      ⟨.ok ((r.entries.drop (newEnd - r.logStart)).any (·.servers.isSome)),
        { r with entries := r.entries.take (newEnd - r.logStart) }, [.truncate newEnd r]⟩ := by
  simp [raftTruncate, ovsAssert, h]

theorem does_skipPresent (hpart : rq.Part part) (es : List Entry)
    (h : s.Comparing ctx rq part index)
    (hes : part.entries.drop (index - part.prevLogIndex - 1) = es) :
    Does ctx (skipPresent index es) s (fun x s' =>
      s'.ghost.dirty = (s.ghost.dirty || x.2) ∧ ∃ index', s'.Comparing ctx rq part index' ∧
        part.entries.drop (index' - part.prevLogIndex - 1) = x.1 ∧
        (x.1 ≠ [] → s'.raft.logEnd = index') ∧ (x.1 = [] → x.2 = false)) := by
  induction es generalizing index with
  | nil => exact .pure ⟨by simp, index, h, hes, fun hne => absurd rfl hne, fun _ => rfl⟩
  | cons e es ih =>
    obtain ⟨hentry, htail, -⟩ := part.entryAt_of_drop h.past hes
    refine .get_bind (.ite (fun hend => .pure ⟨by simp, index, h, hes, fun _ => ?_, fun _ => rfl⟩)
      fun hlt => ?_)
    · have := h.le_logEnd
      omega
    · refine .bind (does_entryAt _ index) ?_
      rintro old _ ⟨rfl, hold⟩
      refine .ite (fun hterm => ?_) fun hterm => ih (h.next hold hentry (by simpa using hterm)) htail
      have hlt : index < s.raft.logEnd := Nat.not_le.mp hlt
      have hconf := h.conflicts hpart hold hentry hterm hlt
      refine .bind (Q := fun b s' => s'.ghost.dirty = (s.ghost.dirty || b) ∧
          s'.Comparing ctx rq part index ∧ s'.raft.logEnd = index) ?_ ?_
      · unfold Does
        rw [raftTruncate_run _ _ _ h.start]
        refine ⟨_, .one (.truncate index s.raft ⟨rfl, rq, h.appending, hconf⟩ h.role), rfl,
          h.truncated _, ?_⟩
        have hstart := h.start
        simp only [Raft.logEnd, length_take] at hlt ⊢
        omega
      · rintro b s' ⟨hdirty, hcomp, hend⟩
        exact .pure ⟨hdirty, index, hcomp, hes, fun _ => hend, fun h => absurd h (by simp)⟩

/-- An entry with `servers` could not be written. -/
def Ctx.LosesServers (ctx : Ctx) : Prop :=
  ¬ ctx.env.Writes ∧ ∃ src comment rq, ctx.msg = some ⟨src, comment, .appendRequest rq⟩ ∧
    ∃ e ∈ rq.entries, e.servers.isSome

/-- `servers` is behind the log no more than it was when the input came in. -/
def Tidy {α : Type} (ctx : Ctx) : α → St → Prop :=
  fun _ s => s.ghost.dirty = true → ctx.dirty = true ∨ ctx.LosesServers

theorem Tidy.of_clean {α : Type} {a : α} (h : Clean ctx a s) : Tidy ctx a s :=
  fun hdirty => .inl (h ▸ hdirty)

theorem Does.tidy {m : M Unit} (h : Does ctx m s (Clean ctx)) : Does ctx m s (Tidy ctx) :=
  h.weaken fun _ _ => .of_clean

/-- What is written to the log are entries of the request. -/
theorem does_writeEntries (hpart : rq.Part part) (es : List Entry)
    (h : s.Comparing ctx rq part s.raft.logEnd)
    (hes : part.entries.drop (s.raft.logEnd - part.prevLogIndex - 1) = es)
    (hdirty : s.ghost.dirty = true → ctx.dirty = true ∨ w.serversChanged = true)
    (hw : w.error = false) : Does ctx (writeEntries es w) s (fun w' s' =>
      (s'.ghost.dirty = true → ctx.dirty = true ∨ w'.serversChanged = true ∨ ctx.LosesServers) ∧
      s'.raft.role ≠ .leader ∧ ctx.Appending s'.core rq ∧
      (w'.error = false → s'.core.Acknowledges rq)) := by
  induction es generalizing s w with
  | nil =>
    refine .pure ⟨fun hd => ?_, h.role, h.appending, fun _ => h.acknowledges hpart hes⟩
    rcases hdirty hd with h | h
    · exact .inl h
    · exact .inr (.inl h)
  | cons e es ih =>
    obtain ⟨hentry, htail, hmem⟩ := part.entryAt_of_drop h.past hes
    have hact : ∀ ok, (ctx.env.Writes → ok = true) → Act ctx s.core []
        ((s.raft.core { s.ghost with dirty := s.ghost.dirty || e.servers.isSome }).push e ok) := by
      intro ok hok
      refine .adopt rq e ok h.role h.appending (hpart.sub e hmem) (fun hfits => ?_) hok
      have hpast : part.prevLogIndex ≤ s.core.logEnd - 1 := Nat.le_sub_one_of_lt h.past
      exact ⟨(hpart.entryAt hfits _ h.past).symm.trans hentry, h.agrees.of_part hpart hfits hpast⟩
    refine .bind (does_raftWriteEntry e hact) ?_
    rintro ok _ ⟨rfl, hok⟩
    refine .ite (fun hfail => .pure ⟨fun hd => ?_, h.role, h.appending, fun h => ?_⟩) fun _ => ?_
    · have hd : s.ghost.dirty = true ∨ e.servers.isSome = true := by simpa using hd
      rcases hd with hd | hd
      · exact (hdirty hd).imp_right .inl
      · obtain ⟨src, comment, hmsg⟩ := h.appending.1
        exact .inr (.inr ⟨fun hwrites => hfail (hok hwrites), src, comment, rq, hmsg, e,
          hpart.sub e hmem, hd⟩)
    · cases h
    · have hpushed := h.pushed ctx.env hentry
        { s.ghost with dirty := s.ghost.dirty || e.servers.isSome }
      refine ih hpushed ?_ (fun hd => ?_) hw
      · show part.entries.drop ((s.raft.pushed ctx.env e).logEnd - part.prevLogIndex - 1) = es
        rw [Raft.pushed_logEnd, htail]
      · have hd : s.ghost.dirty = true ∨ e.servers.isSome = true := by simpa using hd
        rcases hd with hd | hd
        · exact (hdirty hd).imp_right fun h => by simp [h]
        · exact .inr (by simp [hd])

/-! ## 3. Append requests -/

theorem does_raftGetServersFromLog : Does ctx raftGetServersFromLog s (fun _ s' => ∃ servers,
      s' = ⟨{ s.raft with servers }, { s.ghost with dirty := false }⟩) := by
  refine .getEnv_bind (.get_bind ?_)
  cases hlog : latestServers s.raft.snap.servers s.raft.entries with
  | none => exact .fault (.of_not_indexed rfl _)
  | some servers =>
    refine .assert_bind (fun _ => .of_not_indexed rfl _) fun _ => ?_
    have hact : Act ctx s.core [] (Raft.core
        { s.raft with servers := setServers s.raft.logEnd s.raft.servers servers }
        { s.ghost with dirty := false }) := by
      simp only [Raft.core, map_peer_setServers]
      exact .setServers servers hlog
    exact .modify hact ⟨_, rfl⟩

theorem does_finishAppend
    (hdirty : s.ghost.dirty = true → ctx.dirty = true ∨ w.serversChanged = true ∨ ctx.LosesServers)
    (hrole : s.raft.role ≠ .leader) (hrq : ctx.Appending s.core rq)
    (hack : w.error = false → s.core.Acknowledges rq) :
    Does ctx (finishAppend rpc rq w) s (Tidy ctx) := by
  unfold finishAppend
  refine .when (P := fun s' => s.Soft s') (fun _ => .get_bind (does_raftWaiterCreate_entry rfl))
    (fun _ => .refl s) fun s1 h1 => ?_
  have hrole1 : s1.raft.role ≠ .leader := h1.role ▸ hrole
  have hrq1 : ctx.Appending s1.core rq :=
    ⟨hrq.1, hrq.2.imp_left fun h => h.trans h1.term.symm⟩
  have hack1 : w.error = false → s1.core.Acknowledges rq := by
    rw [h1.core]
    exact hack
  refine .when (P := fun s' => s'.raft.role ≠ .leader ∧ ctx.Appending s'.core rq ∧
      (w.error = false → s'.core.Acknowledges rq) ∧ Tidy ctx () s') (fun _ => ?_) (fun hw => ?_) ?_
  · refine does_raftGetServersFromLog.weaken ?_
    rintro _ _ ⟨servers, rfl⟩
    exact ⟨hrole1, hrq1, hack1, fun h => absurd h (by simp)⟩
  · refine ⟨hrole1, hrq1, hack1, fun hd => ?_⟩
    rw [h1.ghost] at hd
    rcases hdirty hd with h | h | h
    · exact .inl h
    · exact absurd h hw
    · exact .inr h
  · rintro s2 ⟨hrole2, hrq2, hack2, htidy⟩
    refine .ite (fun _ => ?_) fun hw => ?_
    · refine (softM_raftSendAppendReply (by simp) ctx s2).weaken fun _ s' h hd => htidy ?_
      exact h.dirty.symm.trans hd
    · refine (does_raftSendAppendReply_ok hrole2 hrq2
        (hack2 (by simpa using hw))).weaken fun _ s' h hd => htidy ?_
      exact h.dirty.symm.trans hd

variable (hdirty : s.ghost.dirty = ctx.dirty)

include hdirty in
theorem does_raftHandleAppendEntries (hpart : rq.Part part)
    (hone : 1 ≤ s.raft.logStart) (hrole : s.raft.role ≠ .leader) (hrq : ctx.Appending s.core rq) :
    Does ctx (raftHandleAppendEntries rpc rq part.prevLogIndex part.prevLogTerm part.entries) s
      (Tidy ctx) := by
  refine .get_bind ?_
  cases hmatch : matchIndexAndTerm s.raft part.prevLogIndex part.prevLogTerm with
  | some mismatch =>
    refine (softM_raftSendAppendReply (by simp) ctx s).weaken fun _ s' h hd => .inl ?_
    rw [← hdirty, ← hd, h.ghost]
  | none =>
    obtain ⟨hterm, hstart⟩ := termAt_of_matchIndexAndTerm (g := s.ghost) hmatch
    have hcomp : s.Comparing ctx rq part (part.prevLogIndex + 1) := by
      refine ⟨hone, hrole, hrq, hstart, Nat.lt_succ_self _, part.prevLogTerm, hterm, ?_⟩
      rw [Nat.add_sub_cancel, AppendRequest.termAt, if_pos rfl]
    refine .bind (does_skipPresent hpart part.entries hcomp (by simp)) ?_
    rintro ⟨rest, changed⟩ s1 ⟨hdirty1, index, hcomp1, hrest, hend, hchanged⟩
    refine .ite (fun hempty => ?_) fun hempty => ?_
    · have hnil : rest = [] := isEmpty_iff.mp hempty
      subst hnil
      refine (does_raftSendAppendReply_ok hcomp1.role hcomp1.appending
        (hcomp1.acknowledges hpart hrest)).weaken fun _ s' h hd => .inl ?_
      rw [← hdirty, ← hd, h.dirty, hdirty1, hchanged rfl, Bool.or_false]
    · have hne : rest ≠ [] := fun h => hempty (isEmpty_iff.mpr h)
      have hend := hend hne
      subst hend
      refine .bind (does_writeEntries hpart rest hcomp1 hrest (fun hd => ?_) rfl) ?_
      · rw [hdirty1, hdirty] at hd
        simpa using hd
      · rintro w s2 ⟨hdirty2, hrole2, hrq2, hack2⟩
        exact does_finishAppend hdirty2 hrole2 hrq2 hack2

theorem AppendRequest.Part.refl (rq : AppendRequest) : rq.Part rq :=
  ⟨fun _ h => h, fun _ => rfl, fun _ _ _ => rfl, fun _ _ _ => rfl⟩

/-- The rest of a request is part of it. -/
theorem AppendRequest.Part.trim {start : Nat} (hone : 1 ≤ start)
    (hlow : u64 (rq.prevLogIndex + 1) < start)
    (he : rq.entries[start - u64 (rq.prevLogIndex + 1) - 1]? = some e) : rq.Part { rq with
      prevLogIndex := start - 1
      prevLogTerm := e.term
      entries := rq.entries.drop (start - u64 (rq.prevLogIndex + 1)) } := by
  have hlen := (List.getElem?_eq_some_iff.mp he).1
  have hfirst : rq.Fits → u64 (rq.prevLogIndex + 1) = rq.prevLogIndex + 1 := by
    intro hfits
    refine Nat.mod_eq_of_lt ?_
    simp only [AppendRequest.Fits, AppendRequest.last] at hfits
    omega
  have hentry : rq.Fits → ∀ i, start - 1 < i →
      (rq.entries.drop (start - u64 (rq.prevLogIndex + 1)))[i - (start - 1) - 1]? =
        rq.entryAt i := by
    intro hfits i hi
    rw [hfirst hfits] at hlow ⊢
    rw [getElem?_drop, AppendRequest.entryAt, if_pos (by omega)]
    congr 1
    omega
  refine ⟨fun _ h => mem_of_mem_drop h, fun hfits => ?_, fun hfits i hi => ?_,
    fun hfits i hi => ?_⟩
  · rw [hfirst hfits] at hlen hlow
    simp only [AppendRequest.last, hfirst hfits, length_drop]
    omega
  · rw [AppendRequest.entryAt, if_pos hi]
    exact hentry hfits i hi
  · have hne : i ≠ rq.prevLogIndex := by
      have := hfirst hfits
      simp only at hi
      omega
    by_cases heq : i = start - 1
    · rw [AppendRequest.termAt, if_pos heq, AppendRequest.termAt, if_neg hne, heq,
        AppendRequest.entryAt]
      rw [hfirst hfits] at he hlow
      rw [if_pos (by omega)]
      have hindex : start - 1 - rq.prevLogIndex - 1 = start - (rq.prevLogIndex + 1) - 1 := by omega
      rw [hindex, he]
      rfl
    · have hlt : start - 1 < i := by
        simp only at hi
        omega
      rw [AppendRequest.termAt, if_neg heq, AppendRequest.termAt, if_neg hne,
        AppendRequest.entryAt, if_pos hlt]
      exact congrArg _ (hentry hfits i hlt)

theorem does_raftUpdateLeader {sid : Uuid} :
    Does ctx (raftUpdateLeader sid) s (fun b s' => s'.ghost = s.ghost ∧
      s'.raft.logStart = s.raft.logStart ∧ s'.raft.term = s.raft.term ∧
      (b = true → s'.raft.role ≠ .leader)) := by
  refine .get_bind (.ite (fun _ => .pure ⟨rfl, rfl, rfl, fun h => absurd h (by simp)⟩)
    fun hrole => ?_)
  refine .when (P := fun s' => s.Soft s') (fun _ => light_recordLeader.soft ctx s)
    (fun _ => .refl s) fun s1 h1 => ?_
  refine .when (P := fun s' => s'.ghost = s1.ghost ∧ s'.raft.logStart = s1.raft.logStart ∧
      s'.raft.term = s1.raft.term ∧ s'.raft.role ≠ .leader) (fun _ => ?_) (fun _ => ?_) ?_
  · exact .modify (g := s1.ghost) .stepDown ⟨rfl, rfl, rfl, by simp⟩
  · exact ⟨rfl, rfl, rfl, h1.role ▸ hrole⟩
  · rintro s2 ⟨hghost, hstart, hterm, hrole2⟩
    exact .pure ⟨hghost.trans h1.ghost, hstart.trans h1.logStart, hterm.trans h1.term,
      fun _ => hrole2⟩

theorem AppendRequest.termAt_last (rq : AppendRequest) :
    rq.termAt rq.last = some ((rq.entries.getLast?.map (·.term)).getD rq.prevLogTerm) := by
  unfold AppendRequest.termAt AppendRequest.last
  cases hlast : rq.entries.getLast? with
  | none =>
    have hnil := getLast?_eq_none_iff.mp hlast
    simp [hnil]
  | some e =>
    have hne : rq.entries ≠ [] := by
      rintro h
      simp [h] at hlast
    have hpos := length_pos_iff.mpr hne
    have hget : rq.entries[rq.prevLogIndex + rq.entries.length - rq.prevLogIndex - 1]? = some e := by
      rw [← hlast, getLast?_eq_getElem?]
      congr 1
      omega
    rw [if_neg (by omega), AppendRequest.entryAt, if_pos (by omega), hget]
    rfl

include hdirty in
/-- An append request is handled by acts on the core. -/
theorem does_raftHandleAppendRequest (hrq : ctx.Appending s.core rq) (hone : 1 ≤ s.raft.logStart) :
    Does ctx (raftHandleAppendRequest rpc rq) s (Tidy ctx) := by
  refine .bind does_raftUpdateLeader ?_
  rintro b s1 ⟨hghost1, hstart1, hterm1, hrole1⟩
  have hdirty1 : s1.ghost.dirty = ctx.dirty := by rw [hghost1, hdirty]
  refine .ite (fun _ => ?_) fun hb => ?_
  · exact ((softM_raftSendAppendReply (by simp)).clean hdirty1).tidy
  refine .bind (light_raftResetElectionTimer.soft ctx s1) fun _ s2 h2 => .get_bind ?_
  have hrole2 : s2.raft.role ≠ .leader := h2.role ▸ hrole1 (by simpa using hb)
  have hrq2 : ctx.Appending s2.core rq :=
    ⟨hrq.1, hrq.2.imp_left fun h => h.trans (h2.term.trans hterm1).symm⟩
  have hone2 : 1 ≤ s2.raft.logStart := by rw [h2.logStart, hstart1]; exact hone
  have hdirty2 : s2.ghost.dirty = ctx.dirty := h2.dirty.trans hdirty1
  have hok : ∀ comment, s2.core.Acknowledges rq →
      Does ctx (raftSendAppendReply rpc.sid rq .ok comment) s2 (Tidy ctx) := fun comment hack =>
    (does_raftSendAppendReply_ok hrole2 hrq2 hack).weaken
      fun _ _ h => .of_clean (h.dirty.trans hdirty2)
  have hnth : rq.Fits → u64 (rq.prevLogIndex + rq.entries.length) = rq.last := by
    intro hfits
    refine u64_of_lt ?_
    simp only [AppendRequest.Fits, AppendRequest.last] at hfits
    omega
  refine .ite (fun _ => ?_) fun hfirst => ?_
  · exact does_raftHandleAppendEntries hdirty2 (.refl rq) hone2 hrole2 hrq2
  refine .ite (fun hbefore => hok _ fun hfits => .inl (hnth hfits ▸ hbefore)) fun _ => ?_
  refine .ite (fun hsnap => .ite (fun hterm => hok _ fun hfits => .inr ?_) fun _ => ?_) fun _ => ?_
  · refine ⟨s2.raft.snap.term, ?_, ?_⟩
    · rw [← hnth hfits, hsnap]
      exact if_pos rfl
    · rw [rq.termAt_last]
      exact congrArg some hterm.symm
  · exact ((softM_raftSendAppendReply (by simp)).clean hdirty2).tidy
  · dsimp only
    cases he : rq.entries[s2.raft.logStart - u64 (rq.prevLogIndex + 1) - 1]? with
    | none => exact .fault (.access _ _)
    | some e =>
      exact does_raftHandleAppendEntries hdirty2 (.trim hone2 (Nat.not_le.mp hfirst) he)
        hone2 hrole2 hrq2

/-! ## 4. Append replies -/

theorem raftServerFind_isSome (servers : List Server) (sid : Uuid) :
    (raftServerFind servers sid).isSome = true ↔ sid ∈ sids (servers.map Server.peer) := by
  simp [raftServerFind, sids, mem_map]

/-- The server that a pointer was taken from is still there. -/
def Core.Refers (c : Core) : ServerRef → Prop
  | .peer sid => sid ≠ c.sid ∧ sid ∈ sids c.servers
  | .new sid => sid ∈ sids c.addServers

theorem refers_of_raftFindPeerOrNew (h : raftFindPeerOrNew r src = some ref) :
    (r.core g).Refers ref ∧ (ref = .peer src ∨ ref = .new src) := by
  unfold raftFindPeerOrNew at h
  split at h
  next hpeer =>
    cases h
    unfold raftFindPeer at hpeer
    split at hpeer
    · cases hpeer
    · exact ⟨⟨‹_›, (raftServerFind_isSome _ _).mp hpeer⟩, .inl rfl⟩
  · split at h
    next hnew =>
      cases h
      exact ⟨(raftServerFind_isSome _ _).mp hnew, .inr rfl⟩
    · cases h

theorem act_matchIndex (src : Uuid) (comment : Option String) (rpy : AppendReply)
    (hrefers : s.core.Refers ref) (href : ref = .peer src ∨ ref = .new src)
    (hmsg : ctx.msg = some ⟨src, comment, .appendReply rpy⟩)
    (hterm : rpy.term = s.raft.term ∨ rpy.term = 0) (hok : rpy.result = .ok)
    (hrole : s.raft.role = .leader) : Act ctx s.core [] ((s.raft.assign ref ({ · with
      matchIndex := u64 (u64 (rpy.prevLogIndex + rpy.nEntries + 1) + (2 ^ 64 - 1)) })).core
        s.ghost) := by
  rcases href with rfl | rfl
  · have hfind : (raftFindServer s.raft src).isSome = true :=
      (raftServerFind_isSome _ _).mpr hrefers.2
    simp only [Raft.assign, hfind, if_true]
    exact .of_updateServer (.matchPeer src comment rpy hrole hmsg hterm hok hrefers.1) fun _ => rfl
  · have hfind : (raftFindNewServer s.raft src).isSome = true :=
      (raftServerFind_isSome _ _).mpr hrefers
    simp only [Raft.assign, hfind, if_true]
    exact .of_updateNewServer (.matchNew src comment rpy hrole hmsg hterm hok) fun _ => rfl

/-- The assignment of `sendNext`: an act, or invisible because the server has
    been removed meanwhile. -/
theorem acts_caughtUp {server : Server} (hderef : s.raft.deref ref = some server)
    (hphase : server.phase = .catchup) : Acts ctx s.core []
      ((s.raft.assign ref ({ · with phase := .caughtUp })).core s.ghost) := by
  have hmem : ∀ {servers : List Server} {sid : Uuid}, raftServerFind servers sid = some server →
      server.peer ∈ servers.map Server.peer := fun h =>
    mem_map_of_mem (mem_of_find?_eq_some h)
  have hservers {sid : Uuid} (h : raftFindServer s.raft sid = some server) : Acts ctx s.core []
      (Raft.core { s.raft with
        servers := updateServer s.raft.servers sid ({ · with phase := .caughtUp }) } s.ghost) :=
    .one (.of_updateServer (.caughtUp sid ⟨_, mem_append_left _ (hmem h), hphase⟩ _ _
      (.inl ⟨rfl, rfl⟩)) fun _ => rfl)
  cases ref with
  | peer sid =>
    cases hfind : raftFindServer s.raft sid with
    | none =>
      simp only [Raft.assign, hfind, Raft.core]
      exact .nil _
    | some p =>
      simp only [Raft.assign, hfind, Option.isSome_some, if_true]
      exact hservers (by simpa [Raft.deref, hfind] using hderef)
  | new sid =>
    cases hfind : raftFindNewServer s.raft sid with
    | none =>
      simp only [Raft.assign, hfind, Option.isSome_none, Bool.false_eq_true, if_false]
      exact hservers (by simpa [Raft.deref, hfind] using hderef)
    | some p =>
      obtain rfl : p = server := by simpa [Raft.deref, hfind] using hderef
      simp only [Raft.assign, hfind, Option.isSome_some, if_true]
      exact .one (.of_updateNewServer (.caughtUp sid ⟨_, mem_append_right _ (hmem hfind), hphase⟩
        _ _ (.inr ⟨rfl, rfl⟩)) fun _ => rfl)

include hdirty

theorem does_sendNext : Does ctx (sendNext ref) s (Clean ctx) := by
  refine .get_bind ?_
  cases hderef : s.raft.deref ref with
  | none => exact .fault (.access _ _)
  | some server =>
    refine .ite (fun _ => softM_raftSendInstallSnapshotRequest.clean hdirty) fun _ => ?_
    refine .ite (fun _ => softM_raftSendAppendRequest.clean hdirty) fun _ => ?_
    refine .ite (fun hphase => .hold (.modify_bind (.release (g := s.ghost)
      (acts_caughtUp hderef hphase) ?_))) fun _ => .pure hdirty
    exact Does.weaken (does_raftRunReconfigure (by exact hdirty)) fun _ _ h => h.dirty.trans hdirty

theorem does_raftHandleAppendReply {comment : Option String} {rpy : AppendReply}
    (hmsg : ctx.msg = some ⟨src, comment, .appendReply rpy⟩)
    (hterm : rpy.term = s.raft.term ∨ rpy.term = 0) :
    Does ctx (raftHandleAppendReply src rpy) s (Clean ctx) := by
  refine .get_bind (.ite (fun _ => .pure hdirty) fun hleader => ?_)
  cases href : raftFindPeerOrNew s.raft src with
  | none => exact .pure hdirty
  | some ref =>
    obtain ⟨hrefers, hsrc⟩ := refers_of_raftFindPeerOrNew (g := s.ghost) href
    refine .bind (Q := fun _ s' => s = s')
      (.emit (.mark _ ⟨rfl, Decidable.not_not.mp hleader⟩) rfl) ?_
    rintro _ _ rfl
    refine .bind (SoftM.assign (by exact fun _ => rfl) ref ctx s) fun _ s1 h1 => ?_
    have hdirty1 : s1.ghost.dirty = ctx.dirty := h1.dirty.trans hdirty
    refine .ite (fun hok => ?_) fun _ => ?_
    · refine .bind (SoftM.assign (by exact fun _ => rfl) ref ctx s1) fun _ s2 h2 => ?_
      have hdirty2 : s2.ghost.dirty = ctx.dirty := h2.dirty.trans hdirty1
      have h : s.Soft s2 := h1.trans h2
      have hrefers2 : s2.core.Refers ref := by
        rw [h.core]
        exact hrefers
      refine .bind (does_raftUpdateMatchIndex hdirty2 fun hrole _ =>
        act_matchIndex src comment rpy hrefers2 hsrc hmsg ?_ hok hrole) fun _ s3 h3 => ?_
      · exact hterm.imp_left fun ht => ht.trans h.term.symm
      · exact does_sendNext (h3.dirty.trans hdirty2)
    · refine .bind (SoftM.assign (by exact fun _ => rfl) ref ctx s1) fun _ s2 h2 => ?_
      have hdirty2 : s2.ghost.dirty = ctx.dirty := h2.dirty.trans hdirty1
      exact .ite (fun _ => .pure hdirty2) fun _ => does_sendNext hdirty2

/-! ## 5. Snapshots -/

omit hdirty in
theorem raftSaveSnapshot_run (env : Env) (r : Raft) (newStart : Nat) (snap : Entry)
    (h : env.saveOk = true) : raftSaveSnapshot newStart snap env r =
      ⟨.ok true,
        { r with
          log := r.log.replace (raftWriteSnapshot r newStart snap).1
            (raftWriteSnapshot r newStart snap).2 }, []⟩ := by
  simp [raftSaveSnapshot, h]

omit hdirty in
theorem raftSaveSnapshot_fail (env : Env) (r : Raft) (newStart : Nat) (snap : Entry)
    (h : env.saveOk ≠ true) : raftSaveSnapshot newStart snap env r = ⟨.ok false, r, []⟩ := by
  simp [raftSaveSnapshot, h]

theorem does_raftHandleInstallSnapshotRequest {comment : Option String}
    {rq : InstallSnapshotRequest} (hmsg : ctx.msg = some ⟨src, comment, .installSnapshotRequest rq⟩)
    (hterm : rq.term = s.raft.term ∨ rq.term = 0) :
    Does ctx (raftHandleInstallSnapshotRequest src rq) s (Tidy ctx) := by
  have hinstall : Does ctx (raftHandleInstallSnapshotRequest__ rq) s
      (fun _ s' => s'.ghost.dirty = true → ctx.dirty = true) := by
    refine .bind (light_raftResetElectionTimer.soft ctx s) fun _ s1 h1 => .get_bind ?_
    have hdirty1 : s1.ghost.dirty = ctx.dirty := h1.dirty.trans hdirty
    have hclean : s1.ghost.dirty = true → ctx.dirty = true := fun h => hdirty1.symm.trans h
    refine .ite (fun _ => .pure hclean) fun hend => .hold (.emit_bind ?_)
    have hev : Marks ctx s1.core (.install rq s1.raft) :=
      ⟨rfl, ⟨src, comment, hmsg⟩, Nat.not_lt.mp hend⟩
    by_cases hsave : ctx.env.saveOk = true
    · refine .run_bind (raftSaveSnapshot_run _ _ _ _ hsave) (.ite (fun h => absurd rfl h)
        fun _ => .modify_bind (.release (g := { s1.ghost with dirty := true }) (.one ?_) ?_))
      · exact .install rq s1.raft _ hev (hterm.imp_left fun h => h.trans h1.term.symm)
          ⟨rfl, rfl, rfl, rfl⟩
      · refine .bind does_raftGetServersFromLog ?_
        rintro _ _ ⟨servers, rfl⟩
        exact .skip_bind rfl (.pure fun h => absurd h (by simp))
    · refine .run_bind (raftSaveSnapshot_fail _ _ _ _ hsave) (.ite (fun _ => ?_)
        fun h => absurd (by simp) h)
      exact .release (g := s1.ghost) (.one (.mark _ hev)) (.pure hclean)
  refine .bind hinstall fun b s1 h1 => .ite (fun _ => .get_bind ?_) fun _ => .pure fun h => .inl (h1 h)
  refine .bind (SoftM.send rfl ctx s1) fun _ _ h => .pure fun hd => .inl (h1 ?_)
  exact h.dirty.symm.trans hd

omit hdirty in
theorem softM_raftHandleInstallSnapshotReply {rpy : InstallSnapshotReply} :
    SoftM (raftHandleInstallSnapshotReply src rpy) := by
  refine .bind .get fun r => ?_
  cases raftFindPeerOrNew r src with
  | none => exact .pure _
  | some ref =>
    refine .bind (.assign (by exact fun _ => rfl) ref) fun _ => ?_
    refine .ite softM_raftSendInstallSnapshotRequest ?_
    refine .bind (.assign (by exact fun _ => rfl) ref) fun _ => .bind .get fun r' => ?_
    cases r'.deref ref with
    | none => exact .fault (.access _)
    | some server => exact softM_raftSendAppendRequest

omit hdirty in
theorem does_raftGetTerm (hi : i ≠ s.raft.logStart - 1)
    (hbound : s.core.IndexOk → s.raft.logStart ≤ i ∧ i < s.raft.logEnd) :
    Does ctx (raftGetTerm i) s (fun t s' => s = s' ∧
      ∃ e, s.raft.entryAt? i = some e ∧ t = e.term) := by
  refine .get_bind (.ite (fun h => absurd h hi) fun _ => ?_)
  refine .bind (does_raftGetEntry i hbound) ?_
  rintro e _ ⟨rfl, he⟩
  exact .pure ⟨rfl, e, he, rfl⟩

omit hdirty in
theorem does_raftServersForIndex
    (hbound : s.core.IndexOk → s.raft.logStart - 1 ≤ i ∧ i < s.raft.logEnd) :
    Does ctx (raftServersForIndex i) s (fun servers s' => s = s' ∧
      servers = latestServers s.raft.snap.servers
        (s.raft.entries.take (i + 1 - s.raft.logStart))) := by
  refine .get_bind (.assert_bind (fun h _ _ _ hok => h (hbound hok).1) fun _ => ?_)
  refine .assert_bind (fun h _ _ _ hok => h (hbound hok).2) fun _ => ?_
  exact .pure ⟨rfl, rfl⟩

theorem does_raftStoreSnapshot {data : Json} (hone : 1 ≤ s.raft.logStart) :
    Does ctx (raftStoreSnapshot data) s (Clean ctx) := by
  refine .get_bind (.ite (fun _ => .pure hdirty) fun _ => .ite (fun _ => .pure hdirty) fun _ =>
    .ite (fun _ => .pure hdirty) fun _ => .ite (fun _ => .pure hdirty) fun _ =>
    .ite (fun _ => .pure hdirty) fun hstart => ?_)
  have hstart : s.raft.logStart ≤ s.raft.lastApplied := Nat.not_lt.mp hstart
  have hbound : s.core.IndexOk →
      s.raft.logStart ≤ s.raft.lastApplied ∧ s.raft.lastApplied < s.raft.logEnd :=
    fun hok => ⟨hstart, Nat.lt_of_le_of_lt hok.applied hok.commit⟩
  refine .bind (does_raftGetTerm (by omega) hbound) ?_
  rintro _ _ ⟨rfl, e, he, rfl⟩
  refine .bind (does_raftGetEid _ fun hok _ => (hbound hok).2) ?_
  rintro eid _ ⟨rfl, rfl⟩
  refine .bind (does_raftServersForIndex fun hok =>
    ⟨Nat.le_trans (Nat.sub_le _ _) (hbound hok).1, (hbound hok).2⟩) ?_
  rintro servers _ ⟨rfl, rfl⟩
  refine .when (P := fun s' => s = s') (fun _ => .fault (.access _ _)) (fun _ => rfl) ?_
  rintro _ rfl
  by_cases hsave : ctx.env.saveOk = true
  · refine .hold (.run_bind (raftSaveSnapshot_run _ _ _ _ hsave) (.ite (fun h => absurd rfl h)
      fun _ => .modify_bind (.release (g := s.ghost) (.one ?_) (.pure hdirty))))
    exact .store e data s.raft.electionTimer _ hstart he ⟨rfl, rfl, rfl, rfl⟩
  · refine .hold (.run_bind (raftSaveSnapshot_fail _ _ _ _ hsave) (.ite (fun _ => ?_)
      fun h => absurd (by simp) h))
    exact .release (g := s.ghost) (.nil _) (.pure hdirty)

/-! ## 6. Handing entries to the database -/

theorem does_skipApplied (n : Nat) (hstart : s.raft.logStart ≤ s.raft.lastApplied + 1)
    (hn : s.raft.lastApplied + n ≤ s.raft.commitIndex) :
    Does ctx (skipApplied n) s (fun x s' => s'.ghost.dirty = ctx.dirty ∧
      (x.isSome = true → s'.raft.lastApplied < s'.raft.commitIndex)) := by
  induction n generalizing s with
  | zero => exact .pure ⟨hdirty, fun h => absurd h (by simp)⟩
  | succ n ih =>
    refine .get_bind (.bind (does_raftGetEntry _ fun hok => ⟨hstart, ?_⟩) ?_)
    · have hcommit : s.raft.commitIndex < s.raft.logEnd := hok.commit
      omega
    · rintro e _ ⟨rfl, -⟩
      cases e.data with
      | some data => exact .pure ⟨hdirty, fun _ => by omega⟩
      | none =>
        have hlt : s.raft.lastApplied < s.raft.commitIndex := by omega
        have hact : Act ctx s.core [] _ := .apply (.inl hlt)
        refine .modify_bind (g := s.ghost) hact (ih hdirty ?_ ?_)
        · exact Nat.le_succ_of_le hstart
        · show s.raft.lastApplied + 1 + n ≤ s.raft.commitIndex
          omega

theorem does_raftPeekNextEntry :
    Does ctx raftPeekNextEntry s (fun x s' => s'.ghost.dirty = ctx.dirty ∧
      (x.isSome = true → s'.raft.lastApplied < s'.raft.commitIndex ∨
        s'.raft.logStart = s'.raft.lastApplied + 2)) := by
  refine .get_bind (.assert_bind (fun h _ _ _ hok => h hok.applied_low) fun hlow => ?_)
  refine .assert_bind (fun h _ _ _ hok => h hok.applied) fun happlied => ?_
  refine .assert_bind (fun h _ _ _ hok => h hok.commit) fun _ => ?_
  refine .ite (fun _ => .pure ⟨hdirty, fun h => absurd h (by simp)⟩) fun _ => ?_
  refine .ite (fun hsnap => .pure ⟨hdirty, fun _ => .inr hsnap⟩) fun hne => ?_
  refine (does_skipApplied hdirty _ (by omega) (by omega)).weaken ?_
  rintro x s' ⟨hd, hx⟩
  exact ⟨hd, fun h => .inl (hx h)⟩

theorem does_raftGetNextEntry : Does ctx raftGetNextEntry s (Clean ctx) := by
  refine .bind (does_raftPeekNextEntry hdirty) ?_
  rintro x s1 ⟨hdirty1, hnext⟩
  refine .when (P := fun s' => s'.ghost.dirty = ctx.dirty) (fun hx => ?_) (fun _ => hdirty1)
    fun s' hs' => .pure hs'
  exact .modify (g := s1.ghost) (.apply (hnext hx)) hdirty1

end Ovsgw.Cluster
