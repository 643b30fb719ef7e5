/-
  **A file written by `raft_write_snapshot` restores the state it was written from.**

  The records are read one by one with all the checks of `raft_apply_record`, so the argument
  follows the file: header, entries, term and vote, commit index.
-/
import Ovsgw.Raft.Core
import Ovsgw.Raft.Replay

namespace Ovsgw.Cluster

open List

/-! ## 1. The records of the file, one kind at a time -/

/-- The state after an entry at the end of the log has been read. -/
def Raft.readEntry (r : Raft) (e : Entry) : Raft := (r.applyTerm e.term).grow e

theorem logEnd_applyTerm (r : Raft) (term : Nat) : (r.applyTerm term).logEnd = r.logEnd := by
  obtain ⟨hentries, hstart, _, _⟩ := applyTerm_log
  rw [Raft.logEnd, Raft.logEnd, hentries, hstart]

variable {i term : Nat} {vote : Uuid} {r : Raft}

theorem lastLogTerm_applyTerm : (r.applyTerm term).lastLogTerm = r.lastLogTerm := by
  obtain ⟨hentries, _, hsnap, _⟩ := applyTerm_log
  rw [Raft.lastLogTerm, Raft.lastLogTerm, hentries, hsnap]

variable {env : Env} {rest : List Json} {e : Entry} {r' : Raft} {json : Json}

theorem applyEntry_append (hcommit : r.commitIndex ≤ r.logEnd) (hterm : r.lastLogTerm ≤ e.term)
    (hfits : r.logEnd + 1 < 2 ^ 64) : applyEntry i r.logEnd e env r = ⟨.ok none, r.grow e, []⟩ := by
  have htruncate : truncateTo r.logEnd env r = ⟨.ok (), r, []⟩ := by
    simp [truncateTo]
  have hadd : raftAddEntry e.term e.data (some e.eid) e.servers e.electionTimer env r =
      ⟨.ok r.logEnd, { r with entries := r.entries ++ [e] }, []⟩ := by
    simp only [raftAddEntry, bind_run, get_run, if_neg (Nat.not_le.mpr hfits), pure_run, modify_run]
    rfl
  simp only [applyEntry, bind_run, get_run, if_neg (Nat.not_lt.mpr hcommit),
    if_neg (Nat.lt_irrefl _), htruncate, if_neg (Nat.not_lt.mpr hterm), hadd, modify_run, pure_run]
  rfl

theorem raftApplyRecord_append (env : Env) (i : Nat)
    (hcommit : r.commitIndex ≤ r.logEnd) (hterm : r.lastLogTerm ≤ e.term)
    (hfits : r.logEnd + 1 < 2 ^ 64) :
    raftApplyRecord i (entryRecord r.logEnd e) env r = ⟨.ok none, r.readEntry e, []⟩ := by
  have hrun := raftApplyRecord_entry
    (show (entryRecord r.logEnd e).entryOf = some (r.logEnd, e) from rfl) i env r
  rw [hrun, ← logEnd_applyTerm r e.term]
  apply applyEntry_append
  · rw [logEnd_applyTerm, applyTerm_log.2.2.2]
    exact hcommit
  · rw [lastLogTerm_applyTerm]
    exact hterm
  · rw [logEnd_applyTerm]
    exact hfits

theorem readRecords_cons {rec : Record}
    (hjson : raftRecordFromJson env (raftRecordToJson rec) = .ok rec)
    (happly : raftApplyRecord i rec env r = ⟨.ok none, r', []⟩) :
    readRecords i (raftRecordToJson rec :: rest) env r = readRecords (i + 1) rest env r' := by
  simp only [readRecords, bind_run, getEnv_run, get_run, hjson, happly, nil_append]

theorem readRecords_refused {error : OvsdbError}
    (h : raftRecordFromJson env json = .error error) (i : Nat) (rest : List Json) :
    ∃ error, readRecords i (json :: rest) env r = ⟨.ok (some error), r, []⟩ := by
  simp only [readRecords, bind_run, getEnv_run, get_run, h, pure_run]
  exact ⟨_, rfl⟩

theorem raftReadHeader_accepted {h : Header} (hjson : raftHeaderFromJson env json = .ok h) :
    raftReadHeader (json :: rest) env r = ⟨.ok none, r.applyHeader h, []⟩ := by
  simp only [raftReadHeader, bind_run, getEnv_run, hjson, modify_run, pure_run]
  rfl

theorem raftRecordFromJson_stateRecord (hterm : term < 2 ^ 64) :
    raftRecordFromJson env (raftRecordToJson (stateRecord term vote)) =
      .ok (stateRecord term vote) := by
  unfold stateRecord
  split
  · next hvote => exact raftRecordFromJson_vote hterm hvote
  · exact raftRecordFromJson_term hterm

/-- The state after the term and the vote have been read. -/
def Raft.readState (r : Raft) (term : Nat) (vote : Uuid) : Raft :=
  if vote ≠ 0 then { r.applyTerm term with vote, syncedVote := vote } else r.applyTerm term

theorem readState_log :
    (r.readState term vote).entries = r.entries ∧ (r.readState term vote).logStart = r.logStart ∧
      (r.readState term vote).snap = r.snap ∧
      (r.readState term vote).commitIndex = r.commitIndex := by
  unfold Raft.readState
  split <;> exact applyTerm_log

theorem readState_term (h : r.term ≤ term) : (r.readState term vote).term = term := by
  have hterm : (r.applyTerm term).term = term := by
    unfold Raft.applyTerm
    split
    · rfl
    · omega
  unfold Raft.readState
  split <;> exact hterm

theorem readState_vote (h : r.vote = 0) : (r.readState term vote).vote = vote := by
  unfold Raft.readState
  split
  · rfl
  · next hzero =>
    rw [Decidable.not_not.mp hzero]
    unfold Raft.applyTerm
    split
    · rfl
    · exact h

theorem raftApplyRecord_stateRecord (env : Env) (vote : Uuid) (i : Nat)
    (hterm : r.term ≤ term) (hvote : r.vote = 0) :
    raftApplyRecord i (stateRecord term vote) env r = ⟨.ok none, r.readState term vote, []⟩ := by
  have hterm' : (r.applyTerm term).term ≤ term := by
    unfold Raft.applyTerm
    split <;> simp_all
  have hvote' : (r.applyTerm term).vote = 0 := by
    unfold Raft.applyTerm
    split <;> simp_all
  by_cases hzero : vote = 0
  · simp only [raftApplyRecord, stateRecord, Raft.readState, hzero, bind_run, modify_run]
    rfl
  · simp only [raftApplyRecord, stateRecord, Raft.readState, if_pos hzero, bind_run, modify_run,
      applyVote, get_run, if_neg (Nat.not_lt.mpr hterm'), hvote']
    rfl

/-! ## 2. The records of the file, in order -/

theorem logEnd_readEntry (r : Raft) (e : Entry) : (r.readEntry e).logEnd = r.logEnd + 1 := by
  have h := logEnd_applyTerm r e.term
  simp only [Raft.logEnd, Raft.readEntry, Raft.grow, length_append, length_singleton] at h ⊢
  omega

theorem lastLogTerm_readEntry (r : Raft) (e : Entry) : (r.readEntry e).lastLogTerm = e.term := by
  simp [Raft.lastLogTerm, Raft.readEntry, Raft.grow]

theorem commitIndex_readEntry (r : Raft) (e : Entry) :
    (r.readEntry e).commitIndex = r.commitIndex := applyTerm_log.2.2.2

variable {es : List Entry} {servers : Servers} {commitIndex : Nat}

theorem readRecords_entries (i : Nat)
    (he : ∀ e ∈ es, e.Writable env) (hpos : r.logEnd ≠ 0) (hcommit : r.commitIndex ≤ r.logEnd)
    (hterms : (r.lastLogTerm :: es.map Entry.term).Pairwise (· ≤ ·))
    (hfits : r.logEnd + es.length < 2 ^ 64) :
    readRecords i ((entryRecords r.logEnd es).map raftRecordToJson ++ rest) env r =
      readRecords (i + es.length) rest env (es.foldl Raft.readEntry r) := by
  induction es generalizing r i with
  | nil => rfl
  | cons e es ih =>
    rw [length_cons] at hfits
    obtain ⟨hhead, htail⟩ := pairwise_cons.mp hterms
    have hjson := raftRecordFromJson_entryRecord (he e mem_cons_self) hpos (by omega)
    have happly := raftApplyRecord_append env i hcommit (hhead e.term mem_cons_self) (by omega)
    have hnext := ih (r := r.readEntry e) (i + 1) (fun e' hmem => he e' (mem_cons_of_mem _ hmem))
      (by rw [logEnd_readEntry]; omega) (by rw [logEnd_readEntry, commitIndex_readEntry]; omega)
      (by rw [lastLogTerm_readEntry]; exact htail) (by rw [logEnd_readEntry]; omega)
    rw [logEnd_readEntry] at hnext
    rw [entryRecords, map_cons, cons_append, readRecords_cons hjson happly, hnext,
      length_cons, foldl_cons]
    congr 1
    omega

/-- What reading the entries does to the state, with `term` a bound on their terms. -/
structure ReadEntries (r r' : Raft) (es : List Entry) (term : Nat) : Prop where
  entries : r'.entries = r.entries ++ es
  logStart : r'.logStart = r.logStart
  snap : r'.snap = r.snap
  commitIndex : r'.commitIndex = r.commitIndex
  term : r'.term ≤ term
  vote : r'.vote = 0

theorem readEntries_foldl (hterm : r.term ≤ term)
    (hvote : r.vote = 0) (hes : ∀ e ∈ es, e.term ≤ term) :
    ReadEntries r (es.foldl Raft.readEntry r) es term := by
  induction es generalizing r with
  | nil => exact ⟨by simp, rfl, rfl, rfl, hterm, hvote⟩
  | cons e es ih =>
    obtain ⟨hentries, hstart, hsnap, hcommit⟩ := applyTerm_log
    have he := hes e mem_cons_self
    have hnext := ih (r := r.readEntry e)
      (by simp only [Raft.readEntry, Raft.grow, Raft.applyTerm]; split <;> assumption)
      (by simp only [Raft.readEntry, Raft.grow, Raft.applyTerm]; split <;> simp_all)
      (fun e' hmem => hes e' (mem_cons_of_mem _ hmem))
    refine ⟨?_, hnext.logStart.trans hstart, hnext.snap.trans hsnap,
      hnext.commitIndex.trans hcommit, hnext.term, hnext.vote⟩
    rw [foldl_cons, hnext.entries]
    simp [Raft.readEntry, Raft.grow, hentries]

theorem raftApplyRecord_commitIndex
    (hlow : r.commitIndex ≤ commitIndex) (hhigh : commitIndex < r.logEnd) :
    raftApplyRecord i { body := .commitIndex commitIndex } env r =
      ⟨.ok none, { r with commitIndex }, []⟩ := by
  have hterm : r.applyTerm 0 = r := if_neg (Nat.not_lt_zero _)
  simp only [raftApplyRecord, bind_run, modify_run, hterm, applyCommitIndex, get_run,
    if_neg (Nat.not_lt.mpr hlow), if_neg (Nat.not_le.mpr hhigh), pure_run]
  rfl

/-- The state after all records of a file have been read. -/
def Raft.readAll (r : Raft) (es : List Entry) (term : Nat) (vote : Uuid) (commitIndex : Nat) :
    Raft :=
  { (es.foldl Raft.readEntry r).readState term vote with commitIndex }

/-- The records after the header give back entries, term, vote and index. -/
theorem readRecords_snapshotRecords
    (vote : Uuid) (he : ∀ e ∈ es, e.Writable env) (hpos : r.logEnd ≠ 0)
    (hcommit : r.commitIndex + 1 = r.logEnd)
    (hterms : (r.lastLogTerm :: es.map Entry.term).Pairwise (· ≤ ·))
    (hfits : r.logEnd + es.length < 2 ^ 64) (hterm : r.term ≤ term) (hvote : r.vote = 0)
    (hes : ∀ e ∈ es, e.term ≤ term) (hlt : term < 2 ^ 64)
    (hlow : r.commitIndex ≤ commitIndex) (hhigh : commitIndex < r.logEnd + es.length) :
    readRecords 1 ((snapshotRecords r.logEnd es term vote commitIndex).map raftRecordToJson) env r
      = ⟨.ok none, r.readAll es term vote commitIndex, []⟩ := by
  have hread := readEntries_foldl hterm hvote hes
  have hstate := raftApplyRecord_stateRecord env vote (1 + es.length) hread.term hread.vote
  obtain ⟨hentries, hstart, _, hcommit'⟩ := readState_log
  have hend : ((es.foldl Raft.readEntry r).readState term vote).logEnd = r.logEnd + es.length := by
    rw [Raft.logEnd, hentries, hstart, hread.entries, hread.logStart, Raft.logEnd,
      length_append, Nat.add_assoc]
  rw [hread.commitIndex] at hcommit'
  rw [snapshotRecords, map_append, map_append, append_assoc,
    readRecords_entries 1 he hpos (by omega) hterms hfits, map_singleton,
    singleton_append,
    readRecords_cons (raftRecordFromJson_stateRecord hlt) hstate]
  by_cases hpast : r.logEnd ≤ commitIndex
  · rw [if_pos hpast, map_singleton,
      readRecords_cons (raftRecordFromJson_commitIndex (by omega) (by omega))
        (raftApplyRecord_commitIndex (by omega) (by omega))]
    rfl
  · -- The commit index is that of the snapshot, which the header has set.
    have heq : commitIndex = ((es.foldl Raft.readEntry r).readState term vote).commitIndex := by
      omega
    rw [if_neg hpast, Raft.readAll, heq]
    rfl

theorem readAll_state (vote : Uuid) (commitIndex : Nat)
    (hterm : r.term ≤ term) (hvote : r.vote = 0) (hes : ∀ e ∈ es, e.term ≤ term) :
    (r.readAll es term vote commitIndex).entries = r.entries ++ es ∧
      (r.readAll es term vote commitIndex).logStart = r.logStart ∧
      (r.readAll es term vote commitIndex).snap = r.snap ∧
      (r.readAll es term vote commitIndex).term = term ∧
      (r.readAll es term vote commitIndex).vote = vote := by
  have hread := readEntries_foldl hterm hvote hes
  obtain ⟨hentries, hstart, hsnap, _⟩ := readState_log
  exact ⟨hentries.trans hread.entries, hstart.trans hread.logStart, hsnap.trans hread.snap,
    readState_term hread.term, readState_vote hread.vote⟩

/-! ## 3. The whole file -/

def readBack (file : Header × List Record) : M (Option OvsdbError) := do
  match ← raftReadHeader [raftHeaderToJson file.1] with
  | some error => return some error
  | none => raftReadLog (file.2.map raftRecordToJson)

theorem latestServers_valid (he : ∀ e ∈ es, e.Writable env) (hv : servers.Valid env) :
    ∃ latest, latestServers (some servers) es = some latest ∧ latest.Valid env := by
  induction es generalizing servers with
  | nil => exact ⟨servers, rfl, hv⟩
  | cons e es ih =>
    have hrest := fun e' hmem => he e' (mem_cons_of_mem e hmem)
    cases hservers : e.servers with
    | none =>
      simp only [latestServers, foldl_cons, hservers, Option.none_or]
      exact ih hrest hv
    | some s =>
      simp only [latestServers, foldl_cons, hservers, Option.some_or]
      exact ih hrest ((he e mem_cons_self).servers s hservers)

/-- The servers and the election timer are all that the end of `raft_read_log` sets. -/
theorem raftReadLog_of_readRecords {records : List Json}
    (hread : readRecords 1 records env r = ⟨.ok none, r', []⟩)
    (hservers : latestServers r'.snap.servers r'.entries = some servers) (hv : servers.Valid env) :
    ∃ r'', raftReadLog records env r = ⟨.ok none, r'', []⟩ ∧
      ∃ servers electionTimer, r'' = { r' with servers, electionTimer } := by
  have hall : servers.all (fun n => env.addressValid n.2) = true := all_eq_true.mpr hv.2
  simp only [raftReadLog, bind_run, hread, raftGetServersFromLog, getEnv_run, get_run, hservers,
    ovsAssert, if_pos (And.intro hv.1 hall), pure_run, raftSetServers, modify_run,
    raftGetElectionTimerFromLog]
  exact ⟨_, rfl, _, _, rfl⟩

/-- What a state and a new snapshot must satisfy so that every value the file
    holds can be read back.  The servers of a running cluster satisfy it: an
    entry has an eid exactly if it has data, which is an object or an array. -/
structure Writable (env : Env) (r : Raft) (newLogStart : Nat) (newSnapshot : Entry) : Prop where
  cid : r.cid ≠ 0
  snapIndex : 2 ≤ newLogStart
  logEnd : r.logEnd < 2 ^ 64
  term : r.term < 2 ^ 64
  entries : ∀ e ∈ r.entries, e.Writable env
  data : newSnapshot.data.isSome
  servers : ∃ servers, newSnapshot.servers = some servers ∧ servers.Valid env
  snapTerm : newSnapshot.term < 2 ^ 64
  electionTimer : newSnapshot.electionTimer < 2 ^ 64

/-- The state `r'` read from a file has the log of `r` from `newLogStart` on, and
    its term, vote and commit index. -/
structure Restores (r r' : Raft) (newLogStart : Nat) (newSnapshot : Entry) : Prop where
  logStart : r'.logStart = newLogStart
  logEnd : r'.logEnd = r.logEnd
  entries : ∀ index, newLogStart ≤ index → index < r.logEnd → r'.entryAt? index = r.entryAt? index
  snap : r'.snap = newSnapshot
  term : r'.term = r.term
  vote : r'.vote = r.vote
  commitIndex : r'.commitIndex = r.commitIndex

variable {newLogStart : Nat} {newSnapshot : Entry}

theorem writable_header
    (hw : Writable env r newLogStart newSnapshot) (hstart : newLogStart ≤ r.logEnd) :
    (raftWriteSnapshot r newLogStart newSnapshot).1.Writable env where
  cid := hw.cid
  joined := rfl
  remoteAddresses := rfl
  snapIndex := by
    have := hw.snapIndex
    show newLogStart - 1 ≠ 0
    omega
  snapIndex_lt := by
    have := hw.logEnd
    show newLogStart - 1 < 2 ^ 64
    omega
  term := hw.snapTerm
  data := hw.data
  servers := hw.servers
  electionTimer := hw.electionTimer

theorem term_of_raftGetTerm
    (hstart : 1 ≤ r.logStart) (hlow : r.logStart ≤ newLogStart) (hhigh : newLogStart ≤ r.logEnd)
    (h : (raftGetTerm (newLogStart - 1) env r).result = .ok term) :
    (r.snap.term :: r.entries.map Entry.term)[newLogStart - r.logStart]? = some term := by
  unfold raftGetTerm at h
  by_cases heq : newLogStart - 1 = r.logStart - 1
  · simp only [bind_run, get_run, if_pos heq, pure_run, Except.ok.injEq] at h
    have hzero : newLogStart - r.logStart = 0 := by omega
    rw [hzero, ← h]
    rfl
  · obtain ⟨e, he, hrun⟩ := raftGetEntry_run env r (i := newLogStart - 1) (by omega) (by omega)
    simp only [bind_run, get_run, if_neg heq, hrun, pure_run, Except.ok.injEq] at h
    rw [Raft.entryAt?, if_pos (by omega)] at he
    have hsucc : newLogStart - r.logStart = newLogStart - 1 - r.logStart + 1 := by omega
    rw [hsucc, getElem?_cons_succ, getElem?_map, he, ← h]
    rfl

structure HeaderRead (r : Raft) (newLogStart : Nat) (newSnapshot : Entry) : Prop where
  entries : r.entries = []
  logStart : r.logStart = newLogStart
  commitIndex : r.commitIndex + 1 = newLogStart
  snap : r.snap = newSnapshot
  term : r.term = 0
  vote : r.vote = 0

theorem raftReadHeader_raftWriteSnapshot (hw : Writable env r newLogStart newSnapshot)
    (hstart : newLogStart ≤ r.logEnd) (log : LogFile) :
    ∃ r0, raftReadHeader [raftHeaderToJson (raftWriteSnapshot r newLogStart newSnapshot).1] env
        (raftAlloc log) = ⟨.ok none, r0, []⟩ ∧ HeaderRead r0 newLogStart newSnapshot := by
  have hjson := raftHeaderFromJson_raftHeaderToJson (writable_header hw hstart)
  have hindex := hw.snapIndex
  have hfits := hw.logEnd
  refine ⟨(raftAlloc log).applyHeader (raftWriteSnapshot r newLogStart newSnapshot).1, ?_, ?_⟩
  · exact raftReadHeader_accepted hjson
  · refine ⟨rfl, ?_, ?_, rfl, rfl, rfl⟩
    · show u64 (newLogStart - 1 + 1) = newLogStart
      rw [Nat.sub_add_cancel (by omega), u64_of_lt (by omega)]
    · show newLogStart - 1 + 1 = newLogStart
      omega

/-- Snapshot file fidelity. -/
theorem readBack_raftWriteSnapshot {env : Env} {r : Raft} {newLogStart : Nat}
    {newSnapshot : Entry} (hindex : r.IndexOk)
    (hterms : (r.snap.term :: r.entries.map Entry.term).Pairwise (· ≤ ·))
    (hbound : ∀ e ∈ r.entries, e.term ≤ r.term) (hlow : r.logStart ≤ newLogStart)
    (hhigh : newLogStart ≤ r.commitIndex + 1)
    (hterm : (raftGetTerm (newLogStart - 1) env r).result = .ok newSnapshot.term)
    (hw : Writable env r newLogStart newSnapshot) (log : LogFile) :
    ∃ r', readBack (raftWriteSnapshot r newLogStart newSnapshot) env (raftAlloc log) =
        ⟨.ok none, r', []⟩ ∧ Restores r r' newLogStart newSnapshot := by
  have hcommit := hindex.commit
  have hfits := hw.logEnd
  have hend : newLogStart + (r.entries.drop (newLogStart - r.logStart)).length = r.logEnd := by
    simp only [Raft.logEnd, length_drop] at hcommit ⊢
    omega
  have hsub {e : Entry} (hmem : e ∈ r.entries.drop (newLogStart - r.logStart)) : e ∈ r.entries :=
    mem_of_mem_drop hmem
  have hnew := term_of_raftGetTerm hindex.start hlow (by omega) hterm
  obtain ⟨servers, hservers, hvalid⟩ := hw.servers
  obtain ⟨r0, hheader, hr0⟩ := raftReadHeader_raftWriteSnapshot hw (by omega) log
  have hend0 : r0.logEnd = newLogStart := by
    rw [Raft.logEnd, hr0.entries, hr0.logStart]
    rfl
  have hlast0 : r0.lastLogTerm = newSnapshot.term := by
    rw [Raft.lastLogTerm, hr0.entries, hr0.snap]
    rfl
  -- The terms in the file are those of the log from the new snapshot on.
  have hterms0 : (r0.lastLogTerm ::
      (r.entries.drop (newLogStart - r.logStart)).map Entry.term).Pairwise (· ≤ ·) := by
    have hdrop := hterms.sublist (drop_sublist (newLogStart - r.logStart) _)
    obtain ⟨hlt, hget⟩ := List.getElem?_eq_some_iff.mp hnew
    rw [drop_eq_getElem_cons hlt, hget, drop_succ_cons, ← map_drop] at hdrop
    rw [hlast0]
    exact hdrop
  have hterm0 : r0.term ≤ r.term := by
    rw [hr0.term]
    exact Nat.zero_le _
  have hbound' := fun e hmem => hbound e (hsub (e := e) hmem)
  have hread := readRecords_snapshotRecords r.vote (fun e hmem => hw.entries e (hsub hmem))
    (by have := hw.snapIndex; omega) (by rw [hend0]; exact hr0.commitIndex) hterms0 (by omega)
    hterm0 hr0.vote hbound' hw.term (by have := hr0.commitIndex; omega)
    (show r.commitIndex < _ by omega)
  obtain ⟨hentries, hstart, hsnap, hterm', hvote⟩ :=
    readAll_state r.vote r.commitIndex hterm0 hr0.vote hbound'
  rw [hr0.entries, nil_append] at hentries
  obtain ⟨latest, hlatest, hlatestValid⟩ :=
    latestServers_valid (fun e hmem => hw.entries e (hsub hmem)) hvalid
  obtain ⟨r', hlog, newServers, timer, heq⟩ := raftReadLog_of_readRecords hread
    (by rw [hsnap, hr0.snap, hservers, hentries]; exact hlatest) hlatestValid
  have hentries' : r'.entries = r.entries.drop (newLogStart - r.logStart) := by
    rw [heq]
    exact hentries
  have hstart' : r'.logStart = newLogStart := by
    rw [heq]
    exact hstart.trans hr0.logStart
  refine ⟨r', ?_, hstart', ?_, ?_, ?_, ?_, ?_, ?_⟩
  · rw [hend0] at hlog
    simp only [readBack, bind_run, hheader, nil_append]
    exact hlog
  · rw [Raft.logEnd, hentries', hstart', hend]
  · intro index hle hlt
    rw [Raft.entryAt?, Raft.entryAt?, hstart', hentries', if_pos hle, if_pos (by omega),
      getElem?_drop]
    congr 1
    omega
  · rw [heq]
    exact hsnap.trans hr0.snap
  · rw [heq]
    exact hterm'
  · rw [heq]
    exact hvote
  · rw [heq]
    rfl

/-- A server whose snapshot is that of `soloHeader`, with more entries. -/
def soloRaft (entries : List Entry) : Raft :=
  { log := { header := soloHeader }, cid := 1, sid := 1, localAddress := "unix:s1", name := "db"
    term := 3, vote := 1, entries, logStart := 2, snap := soloHeader.snap, commitIndex := 1
    lastApplied := 0 }

/-- A command, a change of the servers and another command, the first two committed. -/
def votedRaft : Raft :=
  { soloRaft [{ term := 1, data := some (.object []), eid := 1 },
      { term := 2, servers := some [(1, "unix:s1"), (2, "unix:s2")] },
      { term := 2, data := some (.array []), eid := 2 }] with commitIndex := 3 }

/-- The first entry goes into the snapshot. -/
theorem readBack_votedRaft : ∃ r', readBack (raftWriteSnapshot votedRaft 3 soloHeader.snap) {}
        (raftAlloc { header := soloHeader }) = ⟨.ok none, r', []⟩ ∧
      Restores votedRaft r' 3 soloHeader.snap := by
  apply readBack_raftWriteSnapshot
  · constructor <;> decide
  · decide
  · decide
  · decide
  · decide
  · rfl
  · refine ⟨by decide, by decide, by decide, by decide, ?_, rfl, soloHeader_writable.servers,
      by decide, by decide⟩
    intro e hmem
    simp only [votedRaft, soloRaft, mem_cons, not_mem_nil, or_false] at hmem
    rcases hmem with rfl | rfl | rfl
    · refine ⟨by decide, ?_, by decide, by rintro _ ⟨⟩, by decide⟩
      rintro _ ⟨⟩
      exact .inl rfl
    · refine ⟨by decide, by rintro _ ⟨⟩, by decide, ?_, by decide⟩
      rintro _ ⟨⟩
      exact ⟨by decide, by decide⟩
    · refine ⟨by decide, ?_, by decide, by rintro _ ⟨⟩, by decide⟩
      rintro _ ⟨⟩
      exact .inr rfl

/-- A server with an entry that has data under the all-zero eid, as a leader may send it. -/
def zeroEid : Raft := soloRaft [{ term := 1, data := some (.object []) }]

/-- Such a server can satisfy the bounds on indexes and terms, and yet the record of the entry,
    which has no eid, is not accepted when the file is read. -/
theorem readBack_zeroEid : zeroEid.IndexOk ∧
      (zeroEid.snap.term :: zeroEid.entries.map Entry.term).Pairwise (· ≤ ·) ∧
      (∀ e ∈ zeroEid.entries, e.term ≤ zeroEid.term) ∧
      zeroEid.logStart ≤ 2 ∧ 2 ≤ zeroEid.commitIndex + 1 ∧
      (raftGetTerm 1 {} zeroEid).result = .ok soloHeader.snap.term ∧
      ∃ error, (readBack (raftWriteSnapshot zeroEid 2 soloHeader.snap) {}
        (raftAlloc { header := soloHeader })).result = .ok (some error) := by
  have hheader := raftHeaderFromJson_raftHeaderToJson soloHeader_writable
  have hrecord : ∃ error, raftRecordFromJson {} (raftRecordToJson
      (entryRecord 2 { term := 1, data := some (.object []) })) = .error error := ⟨_, rfl⟩
  obtain ⟨error, hrecord⟩ := hrecord
  refine ⟨by constructor <;> decide, by decide, by decide, by decide, by decide, rfl, ?_⟩
  obtain ⟨error, hread⟩ := readRecords_refused
    (r := (raftAlloc { header := soloHeader }).applyHeader soloHeader) hrecord 1
    [raftRecordToJson (stateRecord 3 1)]
  have hrun : readBack (soloHeader, [entryRecord 2 { term := 1, data := some (.object []) },
      stateRecord 3 1]) {} (raftAlloc { header := soloHeader }) =
      ⟨.ok (some error), (raftAlloc { header := soloHeader }).applyHeader soloHeader, []⟩ := by
    simp only [readBack, bind_run, raftReadHeader_accepted hheader, raftReadLog, map_cons,
      map_nil, hread, pure_run]
    rfl
  exact ⟨error, congrArg Outcome.result hrun⟩

end Ovsgw.Cluster
