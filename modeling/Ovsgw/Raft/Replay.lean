/-
  **Replaying a log file record by record.**

  `raft_apply_record` refuses an entry record with `index < commit_index`, where `index <=
  commit_index` is what would protect the committed entries.  So a record whose index is the commit
  index either removes a committed entry or, if that entry is in the snapshot, fails the assertion
  of `raft_truncate`.  The main result says exactly which replays go well.
-/
import Ovsgw.Raft.CodecSpec
import Ovsgw.Raft.Open

namespace Ovsgw.Cluster

open List

/-! ## 1. What an entry record does -/

def Raft.cut (r : Raft) (index : Nat) : Raft :=
  { r with entries := r.entries.take (index - r.logStart) }

def Raft.grow (r : Raft) (e : Entry) : Raft :=
  { r with entries := r.entries ++ [e], logSynced := r.logEnd }

/-- The ways in which applying an entry record can end. -/
inductive EntryOutcome (r : Raft) (index : Nat) (e : Entry) :
    Outcome (Option OvsdbError) → Prop
  | refused (error : OvsdbError) (h : index < r.commitIndex ∨ r.logEnd < index) :
    EntryOutcome r index e ⟨.ok (some error), r, []⟩
  | asserts (tr : List Event) (hcommit : r.commitIndex ≤ index) (hend : index < r.logEnd)
      (hstart : index < r.logStart) :
    EntryOutcome r index e ⟨.error (.assert .raftTruncate), r, tr⟩
  | stale (error : OvsdbError) (tr : List Event) (hcommit : r.commitIndex ≤ index)
      (hend : index ≤ r.logEnd) (hstart : r.logStart ≤ index)
      (hterm : e.term < (r.cut index).lastLogTerm) :
    EntryOutcome r index e ⟨.ok (some error), r.cut index, tr⟩
  | overflow (tr : List Event) (hcommit : r.commitIndex ≤ index) (hend : index ≤ r.logEnd)
      (hstart : r.logStart ≤ index) (hterm : (r.cut index).lastLogTerm ≤ e.term)
      (hfits : 2 ^ 64 ≤ index + 1) :
    EntryOutcome r index e ⟨.error .overflow, r.cut index, tr⟩
  | applied (tr : List Event) (hcommit : r.commitIndex ≤ index) (hend : index ≤ r.logEnd)
      (hstart : r.logStart ≤ index) (hterm : (r.cut index).lastLogTerm ≤ e.term)
      (hfits : index + 1 < 2 ^ 64) :
    EntryOutcome r index e ⟨.ok none, (r.cut index).grow e, tr⟩

variable {index : Nat} {r : Raft}

theorem logEnd_cut (hstart : r.logStart ≤ index)
    (hend : index ≤ r.logEnd) : (r.cut index).logEnd = index := by
  simp only [Raft.logEnd, Raft.cut, length_take] at hend ⊢
  omega

theorem cut_logEnd : r.cut r.logEnd = r := by
  simp [Raft.cut, Raft.logEnd]

theorem truncateTo_assert {env : Env} (hend : index < r.logEnd) (hstart : index < r.logStart) :
    truncateTo index env r = ⟨.error (.assert .raftTruncate), r, [.truncate index r]⟩ := by
  simp [truncateTo, raftTruncate, ovsAssert, hend, Nat.not_le.mpr hstart]

theorem truncateTo_ok (env : Env) (hend : index ≤ r.logEnd) (hstart : r.logStart ≤ index) :
    ∃ tr, truncateTo index env r = ⟨.ok (), r.cut index, tr⟩ := by
  by_cases h : index < r.logEnd
  · exact ⟨[.truncate index r], by simp [truncateTo, raftTruncate, ovsAssert, h, hstart, Raft.cut]⟩
  · have heq : index = r.logEnd := by omega
    exact ⟨[], by simp [truncateTo, heq, cut_logEnd]⟩

/-- The ways in which an entry of the file is applied. -/
theorem applyEntry_outcome (recIdx index : Nat) (e : Entry) (env : Env) (r : Raft) :
    EntryOutcome r index e (applyEntry recIdx index e env r) := by
  by_cases hcommit : index < r.commitIndex
  · simp only [applyEntry, bind_run, get_run, if_pos hcommit, pure_run]
    exact .refused _ (.inl hcommit)
  by_cases hend : index > r.logEnd
  · simp only [applyEntry, bind_run, get_run, if_neg hcommit, if_pos hend, pure_run]
    exact .refused _ (.inr hend)
  have hcommit' := Nat.not_lt.mp hcommit
  have hend' := Nat.not_lt.mp hend
  by_cases hstart : r.logStart ≤ index
  · obtain ⟨tr, htruncate⟩ := truncateTo_ok env hend' hstart
    have hcut := logEnd_cut hstart hend'
    by_cases hterm : e.term < (r.cut index).lastLogTerm
    · simp only [applyEntry, bind_run, get_run, if_neg hcommit, if_neg hend, htruncate,
        if_pos hterm, pure_run]
      exact .stale _ _ hcommit' hend' hstart hterm
    · have hterm' := Nat.not_lt.mp hterm
      by_cases hfits : 2 ^ 64 ≤ index + 1
      · have hadd : raftAddEntry e.term e.data (some e.eid) e.servers e.electionTimer env
            (r.cut index) = ⟨.error .overflow, r.cut index, []⟩ := by
          simp only [raftAddEntry, bind_run, get_run, hcut, if_pos hfits, fault_run]
          rfl
        simp only [applyEntry, bind_run, get_run, if_neg hcommit, if_neg hend, htruncate,
          if_neg hterm, hadd]
        exact .overflow _ hcommit' hend' hstart hterm' hfits
      · have hadd : raftAddEntry e.term e.data (some e.eid) e.servers e.electionTimer env
            (r.cut index) =
            ⟨.ok index, { r.cut index with entries := (r.cut index).entries ++ [e] }, []⟩ := by
          simp only [raftAddEntry, bind_run, get_run, hcut, if_neg hfits, pure_run, modify_run]
          rfl
        have hgrow : { r.cut index with
            entries := (r.cut index).entries ++ [e], logSynced := index } =
            (r.cut index).grow e := by
          rw [Raft.grow, hcut]
        simp only [applyEntry, bind_run, get_run, if_neg hcommit, if_neg hend, htruncate,
          if_neg hterm, hadd, modify_run, pure_run, hgrow]
        exact .applied _ hcommit' hend' hstart hterm' (Nat.not_le.mp hfits)
  · have hstart' := Nat.not_le.mp hstart
    have hlt : index < r.logEnd := by
      simp only [Raft.logEnd] at hend' ⊢
      omega
    simp only [applyEntry, bind_run, get_run, if_neg hcommit, if_neg hend,
      truncateTo_assert hlt hstart']
    exact .asserts _ hcommit' hlt hstart'

variable {e : Entry} {o : Outcome (Option OvsdbError)} {term : Nat}

theorem EntryOutcome.skips (ho : EntryOutcome r index e o) (hend : r.logEnd < index) :
    ∃ error, o = ⟨.ok (some error), r, []⟩ := by
  cases ho with
  | refused error => exact ⟨error, rfl⟩
  | _ => omega

/-! ## 2. What any record does -/

def Record.entryOf (rec : Record) : Option (Nat × Entry) :=
  match rec.body with
  | .entry index data servers electionTimer eid =>
    some (index, { term := rec.term, data, eid, servers, electionTimer })
  | _ => none

theorem applyTerm_log :
    (r.applyTerm term).entries = r.entries ∧ (r.applyTerm term).logStart = r.logStart ∧
      (r.applyTerm term).snap = r.snap ∧ (r.applyTerm term).commitIndex = r.commitIndex := by
  unfold Raft.applyTerm
  split <;> exact ⟨rfl, rfl, rfl, rfl⟩

variable {rec : Record} {j : Nat}

theorem raftApplyRecord_entry
    (h : rec.entryOf = some (index, e)) (recIdx : Nat) (env : Env) (r : Raft) :
    raftApplyRecord recIdx rec env r = applyEntry recIdx index e env (r.applyTerm rec.term) := by
  unfold Record.entryOf at h
  split at h
  case h_1 hbody =>
    cases h
    simp only [raftApplyRecord, hbody, bind_run, modify_run, nil_append]
  case h_2 => cases h

/-- A record that is no entry leaves the log alone; it can move the commit index
    forward within the log. -/
structure KeepsLog (r r' : Raft) : Prop where
  entries : r'.entries = r.entries
  logStart : r'.logStart = r.logStart
  snap : r'.snap = r.snap
  commit : r'.commitIndex = r.commitIndex ∨
    (r.commitIndex ≤ r'.commitIndex ∧ r'.commitIndex < r.logEnd)

theorem raftApplyRecord_other (h : rec.entryOf = none) {recIdx : Nat} {env : Env} :
    ∃ error r', raftApplyRecord recIdx rec env r = ⟨.ok error, r', []⟩ ∧ KeepsLog r r' := by
  obtain ⟨hentries, hstart, hsnap, hcommit⟩ := applyTerm_log
  have hkeep : KeepsLog r (r.applyTerm rec.term) := ⟨hentries, hstart, hsnap, .inl hcommit⟩
  unfold raftApplyRecord
  cases hbody : rec.body with
  | entry => simp [Record.entryOf, hbody] at h
  | term => exact ⟨none, _, rfl, hkeep⟩
  | leader => exact ⟨none, _, rfl, hkeep⟩
  | note note =>
    by_cases hleft : note = "left"
    · simp only [bind_run, modify_run, if_pos hleft, pure_run]
      exact ⟨_, _, rfl, hkeep⟩
    · simp only [bind_run, modify_run, if_neg hleft, pure_run]
      exact ⟨_, _, rfl, hkeep⟩
  | vote sid =>
    simp only [bind_run, modify_run, applyVote, get_run]
    split
    · exact ⟨_, _, rfl, hkeep⟩
    · split
      · exact ⟨_, _, rfl, hkeep⟩
      · exact ⟨_, _, rfl, hentries, hstart, hsnap, .inl hcommit⟩
  | commitIndex commitIndex =>
    simp only [bind_run, modify_run, applyCommitIndex, get_run]
    split
    · exact ⟨_, _, rfl, hkeep⟩
    · split
      · exact ⟨_, _, rfl, hkeep⟩
      next hlow hhigh =>
        refine ⟨_, _, rfl, hentries, hstart, hsnap, .inr ?_⟩
        simp only [Raft.logEnd, hentries, hstart, hcommit] at hlow hhigh ⊢
        exact ⟨Nat.not_lt.mp hlow, Nat.not_le.mp hhigh⟩

/-! ## 3. The log during a replay -/

/-- The invariant of a replay: the commit index is in the log or is that of the
    snapshot, and terms never decrease. -/
structure Raft.Replayed (r : Raft) : Prop where
  low : r.logStart - 1 ≤ r.commitIndex
  high : r.commitIndex < r.logEnd
  terms : (r.snap.term :: r.entries.map Entry.term).Pairwise (· ≤ ·)

theorem lastLogTerm_mem (r : Raft) : r.lastLogTerm ∈ r.snap.term :: r.entries.map Entry.term := by
  unfold Raft.lastLogTerm
  cases hlast : r.entries.getLast? with
  | none => exact mem_cons_self
  | some e =>
    exact mem_cons_of_mem _ (mem_map.mpr ⟨e, mem_of_getLast? hlast, rfl⟩)

section

variable (h : (r.snap.term :: r.entries.map Entry.term).Pairwise (· ≤ ·))
include h

theorem le_lastLogTerm : ∀ t ∈ r.snap.term :: r.entries.map Entry.term, t ≤ r.lastLogTerm := by
  intro t ht
  unfold Raft.lastLogTerm
  rcases eq_nil_or_concat r.entries with hnil | ⟨init, last, heq⟩
  · simp only [hnil, map_nil, mem_singleton, getLast?_nil] at ht ⊢
    exact Nat.le_of_eq ht
  · rw [concat_eq_append] at heq
    rw [heq, map_append, ← cons_append] at h ht
    simp only [heq, getLast?_append, getLast?_singleton, Option.some_or]
    rcases mem_append.mp ht with hinit | hlast
    · exact (pairwise_append.mp h).2.2 t hinit _ (by simp)
    · exact Nat.le_of_eq (by simpa using hlast)

theorem terms_cut :
    ((r.cut index).snap.term :: (r.cut index).entries.map Entry.term).Pairwise (· ≤ ·) := by
  refine h.sublist ?_
  exact ((take_sublist _ _).map _).cons_cons _

theorem terms_grow (hterm : r.lastLogTerm ≤ e.term) :
    ((r.grow e).snap.term :: (r.grow e).entries.map Entry.term).Pairwise (· ≤ ·) := by
  show (r.snap.term :: (r.entries ++ [e]).map Entry.term).Pairwise (· ≤ ·)
  rw [map_append, ← cons_append]
  refine pairwise_append.mpr ⟨h, by simp, ?_⟩
  intro t ht t' ht'
  rw [map_singleton, mem_singleton] at ht'
  subst ht'
  exact Nat.le_trans (le_lastLogTerm h t ht) hterm

theorem lastLogTerm_cut_le (he : r.entryAt? index = some e) :
    (r.cut index).lastLogTerm ≤ e.term := by
  unfold Raft.entryAt? at he
  split at he
  case isFalse => cases he
  case isTrue hstart =>
    have hmem := lastLogTerm_mem (r.cut index)
    have hdrop : e ∈ r.entries.drop (index - r.logStart) := by
      rw [mem_iff_getElem?]
      exact ⟨0, by simpa using he⟩
    rw [← take_append_drop (index - r.logStart) r.entries, map_append, ← cons_append] at h
    exact (pairwise_append.mp h).2.2 _ hmem _ (mem_map_of_mem hdrop)

end

theorem entryAt?_cut_of_lt (h : j < index) : (r.cut index).entryAt? j = r.entryAt? j := by
  unfold Raft.entryAt? Raft.cut
  dsimp only
  split
  · exact getElem?_take_of_lt (by omega)
  · rfl

theorem entryAt?_cut_self : (r.cut index).entryAt? index = none := by
  unfold Raft.entryAt? Raft.cut
  dsimp only
  split
  · exact getElem?_take_eq_none (Nat.le_refl _)
  · rfl

theorem entryAt?_grow_of_lt (h : j < r.logEnd) : (r.grow e).entryAt? j = r.entryAt? j := by
  unfold Raft.entryAt? Raft.grow
  dsimp only
  split
  · simp only [Raft.logEnd] at h
    exact getElem?_append_left (by omega)
  · rfl

theorem entryAt?_grow_logEnd (r : Raft) (e : Entry) : (r.grow e).entryAt? r.logEnd = some e := by
  simp [Raft.entryAt?, Raft.grow, Raft.logEnd]

/-! ## 4. Which replays go well -/

/-- What is asked of one record: no assertion fails, an applied record leaves
    the invariant, and no committed entry is changed or removed. -/
structure Applies (r : Raft) (o : Outcome (Option OvsdbError)) : Prop where
  runs : ∃ error, o.result = .ok error
  sound : o.result = .ok none → o.state.Replayed
  kept : ∀ index ≤ r.commitIndex, o.state.entryAt? index = r.entryAt? index

/-- The records are applied in order, up to the first one that is refused. -/
def ReplayOk (env : Env) : Raft → Nat → List Record → Prop
  | _, _, [] => True
  | r, i, rec :: recs =>
    Applies r (raftApplyRecord i rec env r) ∧
      ((raftApplyRecord i rec env r).result = .ok none →
        ReplayOk env (raftApplyRecord i rec env r).state (i + 1) recs)

/-- The records that a log that ends at 0 refuses: all entries and commit indexes lie past its end;
    the note that the server has left; and a vote of an old term, or for another server. -/
def Record.Refused (r : Raft) (rec : Record) : Prop :=
  match rec.body with
  | .entry .. | .commitIndex _ => True
  | .note note => note = "left"
  | .vote sid => rec.term < r.term ∨ rec.term = r.term ∧ r.vote ≠ 0 ∧ r.vote ≠ sid
  | .term | .leader _ => False

/-- The record at hand does no harm: if it is an entry at the commit index, then
    it is the entry that is already there; the index after an appended entry
    fits in 64 bits; and where the one after the snapshot does not, the record is refused. -/
structure Harmless (r : Raft) (rec : Record) : Prop where
  same : ∀ index e, rec.entryOf = some (index, e) → index = r.commitIndex →
    index ≤ r.logEnd → r.entryAt? index = some e
  fits : ∀ index e, rec.entryOf = some (index, e) → r.commitIndex ≤ index →
    index ≤ r.logEnd → index + 1 = 2 ^ 64 → e.term < (r.cut index).lastLogTerm
  start : r.logEnd = 0 → rec.Refused r

/-- Every record that is reached does no harm. -/
def ReplayHarmless (env : Env) : Raft → Nat → List Record → Prop
  | _, _, [] => True
  | r, i, rec :: recs =>
    Harmless r rec ∧
      ((raftApplyRecord i rec env r).result = .ok none →
        ReplayHarmless env (raftApplyRecord i rec env r).state (i + 1) recs)

/-- A state from which a replay can start or go on.  Its log is empty and ends
    at 0 if the index of the snapshot is the largest 64-bit number. -/
def Raft.Sound (r : Raft) : Prop :=
  0 < r.logEnd → r.Replayed

/-- The index in an entry record, as the codec reads it. -/
def Record.Readable (rec : Record) : Prop :=
  ∀ index e, rec.entryOf = some (index, e) → index ≠ 0 ∧ index < 2 ^ 64

variable {r' : Raft}

theorem Raft.Replayed.of_log (h : r.Replayed) (hentries : r'.entries = r.entries)
    (hstart : r'.logStart = r.logStart) (hsnap : r'.snap = r.snap)
    (hlow : r.commitIndex ≤ r'.commitIndex) (hhigh : r'.commitIndex < r.logEnd) : r'.Replayed where
  low := by rw [hstart]; exact Nat.le_trans h.low hlow
  high := by rw [Raft.logEnd, hentries, hstart]; exact hhigh
  terms := by rw [hentries, hsnap]; exact h.terms

theorem KeepsLog.replayed (hk : KeepsLog r r') (h : r.Replayed) : r'.Replayed := by
  rcases hk.commit with heq | ⟨hlow, hhigh⟩
  · exact h.of_log hk.entries hk.logStart hk.snap (Nat.le_of_eq heq.symm) (heq ▸ h.high)
  · exact h.of_log hk.entries hk.logStart hk.snap hlow hhigh

theorem KeepsLog.logEnd (hk : KeepsLog r r') : r'.logEnd = r.logEnd := by
  rw [Raft.logEnd, Raft.logEnd, hk.entries, hk.logStart]

theorem KeepsLog.entryAt? (hk : KeepsLog r r') (index : Nat) :
    r'.entryAt? index = r.entryAt? index := by
  rw [Raft.entryAt?, Raft.entryAt?, hk.entries, hk.logStart]

theorem replayed_grow_cut (h : r.Replayed)
    (hcommit : r.commitIndex ≤ index) (hend : index ≤ r.logEnd) (hstart : r.logStart ≤ index)
    (hterm : (r.cut index).lastLogTerm ≤ e.term) : ((r.cut index).grow e).Replayed where
  low := h.low
  high := by
    have hcut := logEnd_cut hstart hend
    show r.commitIndex < r.logStart + ((r.cut index).entries ++ [e]).length
    simp only [Raft.logEnd] at hcut
    have hlen : (r.cut index).logStart = r.logStart := rfl
    simp only [length_append, length_singleton]
    omega
  terms := terms_grow (terms_cut h.terms) hterm

theorem EntryOutcome.applies_iff (ho : EntryOutcome r index e o) (h : r.Replayed)
    (hlt : index < 2 ^ 64) : Applies r o ↔
      (index = r.commitIndex → index ≤ r.logEnd → r.entryAt? index = some e) ∧
      (r.commitIndex ≤ index → index ≤ r.logEnd → index + 1 = 2 ^ 64 →
        e.term < (r.cut index).lastLogTerm) := by
  have hlow := h.low
  have hhigh := h.high
  cases ho with
  | refused error hrefused =>
    have happlies : Applies r ⟨.ok (some error), r, []⟩ :=
      ⟨⟨_, rfl⟩, (by intro hok; cases hok), fun _ _ => rfl⟩
    refine iff_of_true happlies ⟨?_, ?_⟩ <;> omega
  | asserts tr hcommit hend hstart =>
    refine iff_of_false ?_ ?_
    · intro ha
      obtain ⟨_, hok⟩ := ha.runs
      cases hok
    rintro ⟨hsame, _⟩
    -- The index is that of the snapshot, where the log has no entry.
    have hentry := hsame (by omega) (by omega)
    rw [Raft.entryAt?, if_neg (by omega)] at hentry
    cases hentry
  | stale error tr hcommit hend hstart hterm =>
    constructor
    · intro ha
      refine ⟨fun heq _ => ?_, fun _ _ _ => hterm⟩
      obtain ⟨e', he'⟩ := r.entryAt?_eq_some hstart (heq ▸ hhigh)
      have hkept := ha.kept index (Nat.le_of_eq heq)
      rw [entryAt?_cut_self, he'] at hkept
      cases hkept
    · rintro ⟨hsame, _⟩
      refine ⟨⟨_, rfl⟩, (by intro hok; cases hok), fun j hj => entryAt?_cut_of_lt ?_⟩
      have hne : index ≠ r.commitIndex := by
        intro heq
        have := lastLogTerm_cut_le h.terms (hsame heq hend)
        omega
      omega
  | overflow tr hcommit hend hstart hterm hfits =>
    refine iff_of_false ?_ ?_
    · intro ha
      obtain ⟨_, hok⟩ := ha.runs
      cases hok
    rintro ⟨_, hroom⟩
    have := hroom hcommit hend (by omega)
    omega
  | applied tr hcommit hend hstart hterm hfits =>
    have hcut := logEnd_cut hstart hend
    have hself : ((r.cut index).grow e).entryAt? index = some e := by
      have := entryAt?_grow_logEnd (r.cut index) e
      rwa [hcut] at this
    have hbefore (j : Nat) (hj : j < index) : ((r.cut index).grow e).entryAt? j = r.entryAt? j := by
      rw [entryAt?_grow_of_lt (by omega), entryAt?_cut_of_lt hj]
    constructor
    · intro ha
      refine ⟨fun heq _ => ?_, by omega⟩
      rw [← ha.kept index (Nat.le_of_eq heq)]
      exact hself
    · rintro ⟨hsame, _⟩
      refine ⟨⟨_, rfl⟩, fun _ => replayed_grow_cut h hcommit hend hstart hterm, fun j hj => ?_⟩
      by_cases hj' : j < index
      · exact hbefore j hj'
      · have heq : j = index := by omega
        subst heq
        rw [hself, hsame (by omega) hend]

theorem harmless_entry_iff (hbody : rec.entryOf = some (index, e)) : Harmless r rec ↔
      (index = r.commitIndex → index ≤ r.logEnd → r.entryAt? index = some e) ∧
      (r.commitIndex ≤ index → index ≤ r.logEnd → index + 1 = 2 ^ 64 →
        e.term < (r.cut index).lastLogTerm) := by
  constructor
  · intro h
    exact ⟨h.same index e hbody, h.fits index e hbody⟩
  · rintro ⟨hsame, hfits⟩
    refine ⟨?_, ?_, fun _ => ?_⟩
    · intro index' e' h'
      cases hbody.symm.trans h'
      exact hsame
    · intro index' e' h'
      cases hbody.symm.trans h'
      exact hfits
    · cases hrec : rec.body <;> simp [Record.entryOf, Record.Refused, hrec] at hbody ⊢

theorem Applies.congr (hcommit : r'.commitIndex = r.commitIndex)
    (hentry : ∀ index, r'.entryAt? index = r.entryAt? index) : Applies r' o ↔ Applies r o := by
  constructor
  · intro h
    exact ⟨h.runs, h.sound, fun j hj => by rw [h.kept j (hcommit ▸ hj), hentry]⟩
  · intro h
    exact ⟨h.runs, h.sound, fun j hj => by rw [h.kept j (hcommit ▸ hj), hentry]⟩

theorem raftApplyRecord_wrapped {i : Nat} {env : Env} (h : r.logEnd = 0)
    (hbody : rec.entryOf = none) :
    (raftApplyRecord i rec env r).result = .ok none ↔ ¬ rec.Refused r := by
  obtain ⟨hentries, hstart, -, -⟩ := @applyTerm_log r rec.term
  unfold raftApplyRecord Record.Refused
  cases hrec : rec.body with
  | entry => simp [Record.entryOf, hrec] at hbody
  | term => simp
  | leader => simp
  | note note => by_cases hleft : note = "left" <;> simp [hleft, recordError]
  | vote sid =>
    simp only [bind_run, modify_run, applyVote, get_run, Raft.applyTerm]
    by_cases hterm : r.term < rec.term
    · simp [hterm, Nat.lt_asymm hterm, Nat.ne_of_gt hterm]
    · simp only [hterm, if_false]
      split
      next hold => exact iff_of_false (by rintro ⟨⟩) fun h => h (.inl hold)
      next hold =>
        split
        next hvote => exact iff_of_false (by rintro ⟨⟩) fun h => h (.inr ⟨by omega, hvote⟩)
        next hvote => exact iff_of_true rfl fun h => h.elim hold fun h => hvote h.2
  | commitIndex commitIndex =>
    have hend : (r.applyTerm rec.term).logEnd = 0 := by
      rw [Raft.logEnd, hentries, hstart]
      exact h
    simp only [bind_run, modify_run, applyCommitIndex, get_run, hend]
    split <;> simp [recordError]

/-- A record applies well exactly if it is harmless. -/
theorem applies_iff_harmless (hs : r.Sound) (hr : rec.Readable) (env : Env) (i : Nat) :
    Applies r (raftApplyRecord i rec env r) ↔ Harmless r rec := by
  obtain ⟨hentries, hstart, hsnap, hcommit⟩ := applyTerm_log
  have hk : KeepsLog r (r.applyTerm rec.term) := ⟨hentries, hstart, hsnap, .inl hcommit⟩
  cases hbody : rec.entryOf with
  | none =>
    obtain ⟨error, r', hrun, hkeep⟩ := raftApplyRecord_other hbody
    constructor
    · intro ha
      refine ⟨by simp [hbody], by simp [hbody], fun hzero => ?_⟩
      refine Classical.byContradiction fun haccepted => ?_
      have hhigh := (ha.sound ((raftApplyRecord_wrapped hzero hbody).mpr haccepted)).high
      rw [hrun, hkeep.logEnd] at hhigh
      omega
    · intro hh
      refine ⟨⟨error, by rw [hrun]⟩, fun hok => ?_, fun j _ => by rw [hrun]; exact hkeep.entryAt? j⟩
      have hpos : 0 < r.logEnd := Nat.pos_of_ne_zero fun hzero =>
        (raftApplyRecord_wrapped hzero hbody).mp hok (hh.start hzero)
      rw [hrun]
      exact hkeep.replayed (hs hpos)
  | some p =>
    obtain ⟨index, e⟩ := p
    obtain ⟨hne, hlt⟩ := hr index e hbody
    have hrun := raftApplyRecord_entry hbody i env r
    have ho := applyEntry_outcome i index e env (r.applyTerm rec.term)
    rw [← hrun] at ho
    have hcut : ((r.applyTerm rec.term).cut index).lastLogTerm = (r.cut index).lastLogTerm := by
      simp only [Raft.lastLogTerm, Raft.cut, hentries, hstart, hsnap]
    rw [harmless_entry_iff hbody]
    by_cases hpos : 0 < r.logEnd
    · have hiff := ho.applies_iff (hk.replayed (hs hpos)) hlt
      rwa [Applies.congr hcommit hk.entryAt?, hcommit, hk.logEnd, hk.entryAt?, hcut] at hiff
    · -- The log ends at 0, so every entry record skips past its end.
      obtain ⟨error, heq⟩ := ho.skips (by rw [hk.logEnd]; omega)
      rw [heq]
      refine iff_of_true ⟨⟨_, rfl⟩, nofun, fun j _ => hk.entryAt? j⟩ ⟨?_, ?_⟩ <;> omega

variable {env : Env} {h : Header} {json : Json}

theorem replayOk_iff_harmless {recs : List Record} (hs : r.Sound)
    (hr : ∀ rec ∈ recs, rec.Readable) (i : Nat) :
    ReplayOk env r i recs ↔ ReplayHarmless env r i recs := by
  induction recs generalizing r i with
  | nil => exact Iff.rfl
  | cons rec recs ih =>
    have hstep := applies_iff_harmless hs (hr rec mem_cons_self) env i
    have hrest (ha : Applies r (raftApplyRecord i rec env r))
        (hok : (raftApplyRecord i rec env r).result = .ok none) :=
      ih (fun _ => ha.sound hok) (fun rec' hmem => hr rec' (mem_cons_of_mem _ hmem)) (i + 1)
    constructor
    · rintro ⟨ha, hnext⟩
      exact ⟨hstep.mp ha, fun hok => (hrest ha hok).mp (hnext hok)⟩
    · rintro ⟨hh, hnext⟩
      have ha := hstep.mpr hh
      exact ⟨ha, fun hok => (hrest ha hok).mpr (hnext hok)⟩

/-! ## 5. From the text of the file -/

theorem returns_raftParseUint64 {name : String} {optional : Bool} :
    Returns (raftParseUint64 name optional) (· < 2 ^ 64) := by
  refine .skip fun json => ?_
  split
  · exact .pure (BitVec.isLt _)
  · exact .pure (by decide)

theorem readable_of_raftRecordFromJson
    (h : raftRecordFromJson env json = .ok rec) : rec.Readable := by
  refine Returns.of_ovsdbParse ?_ h
  refine .skip fun comment => .skip fun note => ?_
  split
  · exact .pure nofun
  refine .skip fun commitIndex => ?_
  split
  · exact .pure nofun
  refine .skip fun term => .skip fun leader => ?_
  split
  · split
    · exact .skip fun _ => .pure nofun
    · exact .pure nofun
  refine .skip fun vote => ?_
  split
  · split
    · exact .skip fun _ => .pure nofun
    · exact .pure nofun
  refine .bind returns_raftParseUint64 fun index hindex => ?_
  split
  · exact .pure nofun
  · next hne =>
    have hentry : Returns (raftParseEntry env index) fun body =>
        ∃ data servers timer eid, body = .entry index data servers timer eid :=
      .skip fun _ => .skip fun _ => .skip fun _ => .skip fun _ => .pure ⟨_, _, _, _, rfl⟩
    refine .bind hentry ?_
    rintro body ⟨data, servers, timer, eid, rfl⟩
    refine .pure ?_
    intro index' e' h'
    cases h'
    exact ⟨hne, hindex⟩

def afterHeader (h : Header) : Raft := (raftAlloc { header := h }).applyHeader h

theorem snapIndex_lt_of_raftHeaderFromJson
    (hh : raftHeaderFromJson env json = .ok h) : h.snapIndex < 2 ^ 64 := by
  refine Returns.of_ovsdbParse (Q := fun h : Header => h.snapIndex < 2 ^ 64) ?_ hh
  refine .skip fun sid => .skip fun name => .skip fun localAddress => .skip fun remote => ?_
  split
  · exact .skip fun _ => .skip fun _ => .pure (Nat.two_pow_pos 64)
  · have hsnap : Returns (raftParseSnapshot env) fun snap => snap.1 < 2 ^ 64 := by
      refine .skip fun servers => .bind returns_raftParseUint64 fun n hn => ?_
      split
      · exact .skip fun _ => .skip fun _ => .skip fun _ => .skip fun _ => .pure hn
      · exact .pure (Nat.two_pow_pos 64)
    exact .bind hsnap fun snap hlt => .skip fun _ => .pure hlt

theorem sound_afterHeader (hlt : h.snapIndex < 2 ^ 64) : (afterHeader h).Sound := by
  intro hpos
  cases hjoining : h.joining with
  | true =>
    have hr : afterHeader h = { raftAlloc { header := h } with
        sid := h.sid, cid := h.cid, name := h.name, localAddress := h.localAddress,
        joining := true, remoteAddresses := h.remoteAddresses } := by
      simp [afterHeader, Raft.applyHeader, hjoining]
    rw [hr]
    exact ⟨Nat.le_refl 0, Nat.zero_lt_one, pairwise_singleton _ _⟩
  | false =>
    have hstart : (afterHeader h).logStart = u64 (h.snapIndex + 1) := by
      simp [afterHeader, Raft.applyHeader, hjoining]
    have hentries : (afterHeader h).entries = [] := by
      simp [afterHeader, Raft.applyHeader, hjoining]
    have hcommit : (afterHeader h).commitIndex = h.snapIndex := by
      simp [afterHeader, Raft.applyHeader, hjoining]
    rw [Raft.logEnd, hstart, hentries, u64] at hpos
    refine ⟨?_, ?_, by rw [hentries]; exact pairwise_singleton _ _⟩
    · rw [hstart, hcommit, u64]
      omega
    · rw [Raft.logEnd, hstart, hcommit, hentries, u64]
      simp only [length_nil] at hpos ⊢
      omega

/-- For every accepted header and accepted records: the replay fails no
    assertion, keeps the invariant and never rewrites a committed entry if and
    only if no record that is reached does harm. -/
theorem replay_well_iff_harmless {env : Env} {json : Json} {h : Header}
    (hh : raftHeaderFromJson env json = .ok h) {recs : List Record}
    (hr : ∀ rec ∈ recs, ∃ json, raftRecordFromJson env json = .ok rec) :
    ReplayOk env (afterHeader h) 1 recs ↔ ReplayHarmless env (afterHeader h) 1 recs := by
  apply replayOk_iff_harmless (sound_afterHeader (snapIndex_lt_of_raftHeaderFromJson hh))
  intro rec hmem
  obtain ⟨json, hjson⟩ := hr rec hmem
  exact readable_of_raftRecordFromJson hjson

def soloHeader : Header :=
  { sid := 1, cid := 1, name := "db", localAddress := "unix:s1", snapIndex := 1
    snap := { term := 1, data := some (.object []), eid := 1,
              servers := some [(1, "unix:s1")] } }

theorem soloHeader_writable : soloHeader.Writable {} where
  cid := by decide
  joined := rfl
  remoteAddresses := rfl
  snapIndex := by decide
  snapIndex_lt := by decide
  term := by decide
  data := rfl
  servers := ⟨[(1, "unix:s1")], rfl, by decide, by decide⟩
  electionTimer := by decide

theorem emptyEntry_writable (h : term < 2 ^ 64) : ({ term } : Entry).Writable {} where
  term := h
  data := nofun
  eid := by simp
  servers := nofun
  electionTimer := Nat.two_pow_pos 64

theorem replay_well_solo : raftHeaderFromJson {} (raftHeaderToJson soloHeader) = .ok soloHeader ∧
      ReplayOk {} (afterHeader soloHeader) 1 [entryRecord 2 { term := 1 }] := by
  have hh := raftHeaderFromJson_raftHeaderToJson soloHeader_writable
  refine ⟨hh, (replay_well_iff_harmless hh ?_).mpr ⟨⟨?_, ?_, by rintro ⟨⟩⟩, fun _ => trivial⟩⟩
  · intro rec hmem
    rw [mem_singleton.mp hmem]
    exact ⟨_, raftRecordFromJson_entryRecord (emptyEntry_writable (by decide)) (by decide)
      (by decide)⟩
  · rintro _ _ ⟨⟩ ⟨⟩
  · rintro _ _ ⟨⟩ - - ⟨⟩

/-- An entry record at the commit index: at the index of the snapshot it fails
    the assertion of `raft_truncate`, later on it replaces a committed entry. -/
theorem replay_not_well : raftHeaderFromJson {} (raftHeaderToJson soloHeader) = .ok soloHeader ∧
      raftRecordFromJson {} (raftRecordToJson (entryRecord 1 { term := 1 })) =
        .ok (entryRecord 1 { term := 1 }) ∧
      (raftApplyRecord 1 (entryRecord 1 { term := 1 }) {} (afterHeader soloHeader)).result =
        .error (.assert .raftTruncate) ∧
      ¬ ReplayOk {} (afterHeader soloHeader) 1 [entryRecord 1 { term := 1 }] ∧
      ¬ ReplayOk {} (afterHeader soloHeader) 1
        [entryRecord 2 { term := 1 }, { body := .commitIndex 2 }, entryRecord 2 { term := 2 }] := by
  have hassert : (raftApplyRecord 1 (entryRecord 1 { term := 1 }) {}
      (afterHeader soloHeader)).result = .error (.assert .raftTruncate) := rfl
  refine ⟨raftHeaderFromJson_raftHeaderToJson soloHeader_writable,
    raftRecordFromJson_entryRecord (emptyEntry_writable (by decide)) (by decide) (by decide),
    hassert, ?_, ?_⟩
  · rintro ⟨⟨⟨error, hok⟩, _, _⟩, _⟩
    rw [hassert] at hok
    cases hok
  · rintro ⟨_, hnext⟩
    obtain ⟨_, hnext⟩ := hnext rfl
    obtain ⟨⟨_, _, hkept⟩, _⟩ := hnext rfl
    have hsame : some ({ term := 2 } : Entry) = some { term := 1 } := hkept 2 (Nat.le_refl 2)
    have hterm : (2 : Nat) = 1 := congrArg Entry.term (Option.some.inj hsame)
    cases hterm

end Ovsgw.Cluster
