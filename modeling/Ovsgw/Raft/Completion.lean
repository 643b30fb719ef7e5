/-
  **Which commands an advance of the commit index completes.**

  A leader looks up a pending command for every entry that it commits.  Any other server advances
  over all the entries first, and then completes at most one command: the one with the eid of the
  last data entry, with the new commit index in place of the index of that entry.  So the two agree
  with "a command completes when its entry commits" only if the pending commands are such that one
  look is enough.

  On the way a leader may append a configuration.  The new entry carries no
  data, and its command has no eid.
-/
import Ovsgw.Lib.Lists
import Ovsgw.Raft.Snapshot

namespace Ovsgw.Cluster

open List

/-! ## 1. Data entries -/

/-- The entry with index `i` carries data and has the given eid. -/
def Raft.DataAt (r : Raft) (i : Nat) (eid : Uuid) : Prop :=
  ∃ e, r.entryAt? i = some e ∧ e.data.isSome = true ∧ e.eid = eid

variable {i : Nat} {u : Uuid} {r : Raft}

theorem Raft.DataAt.unique {u' : Uuid} (h : r.DataAt i u) (h' : r.DataAt i u') : u = u' := by
  obtain ⟨e, he, -, rfl⟩ := h
  obtain ⟨e', he', -, rfl⟩ := h'
  rw [he] at he'
  cases he'
  rfl

variable {r' : Raft} {e : Entry} {n : Nat} {m : M α}

theorem dataAt_congr (hentries : r'.entries = r.entries) (hstart : r'.logStart = r.logStart)
    (i : Nat) (u : Uuid) : r'.DataAt i u ↔ r.DataAt i u := by
  rw [Raft.DataAt, Raft.DataAt, Raft.entryAt?, Raft.entryAt?, hentries, hstart]

theorem Raft.DataAt.eidAt (h : r.DataAt i u) : r.eidAt i = u := by
  obtain ⟨e, he, hdata, rfl⟩ := h
  unfold Raft.entryAt? at he
  split at he
  next hlow =>
    have htake : r.entries.take (i + 1 - r.logStart) = r.entries.take (i - r.logStart) ++ [e] := by
      rw [Nat.sub_add_comm hlow, take_add_one, he]
      rfl
    rw [Raft.eidAt, htake, latestEid, foldl_append]
    exact if_pos hdata
  · cases he

/-! ## 2. What a leader appends on the way -/

/-- No data entry is added, and no command with an eid. -/
structure Raft.Extends (r r' : Raft) : Prop where
  start : r'.logStart = r.logStart
  commit : r'.commitIndex = r.commitIndex
  data : ∀ i u, r'.DataAt i u ↔ r.DataAt i u
  commands : ∃ cs, r'.commands = r.commands ++ cs ∧ ∀ c ∈ cs, c.eid = 0

namespace Raft.Extends

theorem of_kept (hentries : r'.entries = r.entries)
    (hstart : r'.logStart = r.logStart) (hcommit : r'.commitIndex = r.commitIndex)
    (hcommands : r'.commands = r.commands) : r.Extends r' :=
  ⟨hstart, hcommit, dataAt_congr hentries hstart, [], by simp [hcommands], by simp⟩

theorem trans {r'' : Raft} (h : r.Extends r') (h' : r'.Extends r'') : r.Extends r'' := by
  obtain ⟨cs, hcs, hzero⟩ := h.commands
  obtain ⟨cs', hcs', hzero'⟩ := h'.commands
  refine ⟨h'.start.trans h.start, h'.commit.trans h.commit,
    fun i u => (h'.data i u).trans (h.data i u), cs ++ cs', ?_, ?_⟩
  · rw [hcs', hcs, append_assoc]
  · intro c hc
    exact (mem_append.mp hc).elim (hzero c) (hzero' c)

end Raft.Extends

def extending : Frame where
  ok ev := ∀ eid status index, ev ≠ .complete eid status index
  rel := Raft.Extends
  bad _ := False
  refl _ := .of_kept rfl rfl rfl rfl
  trans := .trans

theorem extending_mild : extending.Mild where
  sent _ _ := by rintro _ _ _ ⟨⟩
  kept _ _ h := .of_kept (congrArg Kept.entries h) (congrArg Kept.logStart h)
    (congrArg Kept.commitIndex h) (congrArg Kept.commands h)

theorem Within.extending (h : Within mild m) : Within extending m :=
  h.of_mild extending_mild

/-- The trace completes the command with `eid`, at the given index, and no other. -/
def CompletesOnly (tr : List Event) (eid : Uuid) (index : Nat) : Prop :=
  ∀ eid' status' index', .complete eid' status' index' ∈ tr ↔
    eid' = eid ∧ status' = .success ∧ index' = index

/-- The trace completes no command. -/
def CompletesNone (tr : List Event) : Prop :=
  ∀ eid status index, .complete eid status index ∉ tr

variable {env : Env} {eid : Uuid} {tr : List Event}

/-- The entry with index `i` carries data, has the given eid and is committed on the way to
    `newCommitIndex`. -/
structure Raft.NewData (r : Raft) (newCommitIndex i : Nat) (eid : Uuid) : Prop where
  low : r.commitIndex < i
  high : i ≤ newCommitIndex
  data : r.DataAt i eid

theorem Raft.NewData.mono {b b' : Nat} (h : r.NewData b i u) (hle : b ≤ b') : r.NewData b' i u :=
  ⟨h.low, h.high.trans hle, h.data⟩

/-- No entry up to `newCommitIndex` changes the set of servers. -/
def Raft.NoServers (r : Raft) (newCommitIndex : Nat) : Prop :=
  ∀ i, r.commitIndex < i → i ≤ newCommitIndex → ∀ e, r.entryAt? i = some e → e.servers = none

/-- The index that a leader reports for a command when it commits the entry with index `i`. -/
def Command.reported (c : Command) (i : Nat) : Nat := if c.index = 0 then i else c.index

/-- How far a leader that started in `r` has come in `s`, with the events `tr`. -/
structure Raft.Progress (r s : Raft) (tr : List Event) : Prop where
  le : r.commitIndex ≤ s.commitIndex
  data : ∀ i u, s.DataAt i u ↔ r.DataAt i u
  distinct : s.commands.Pairwise fun c d => c.eid = d.eid → c.eid = 0
  old : ∀ c ∈ s.commands, c.eid ≠ 0 → c ∈ r.commands
  same : r.NoServers s.commitIndex → s.entries = r.entries ∧ s.logStart = r.logStart ∧
    ∀ c ∈ s.commands, c ∈ r.commands
  gone : ∀ c ∈ s.commands, c.eid ≠ 0 → ∀ i, ¬ r.NewData s.commitIndex i c.eid
  pending : ∀ c ∈ r.commands, c.eid ≠ 0 → c ∈ s.commands ∨
    ∃ i, r.NewData s.commitIndex i c.eid ∧ .complete c.eid .success (c.reported i) ∈ tr
  event : ∀ u status i, .complete u status i ∈ tr → status = .success ∧
    ∃ c ∈ r.commands, c.eid = u ∧ ∃ j, r.NewData s.commitIndex j u ∧ i = c.reported j

namespace Raft.Progress

variable {s s' : Raft} {tr' : List Event}

theorem init (hr : r.commands.Pairwise fun c d => c.eid = d.eid → c.eid = 0) : r.Progress r [] where
  le := Nat.le_refl _
  data _ _ := Iff.rfl
  distinct := hr
  old _ hc _ := hc
  same _ := ⟨rfl, rfl, fun _ hc => hc⟩
  gone _ _ _ _ h := Nat.not_le.mpr h.low h.high
  pending _ hc _ := .inl hc
  event _ _ _ h := absurd h not_mem_nil

/-- An extension keeps the progress; with a new command it needs an entry that changes servers. -/
theorem extend (h : r.Progress s tr) (hext : s.Extends s') (hnone : CompletesNone tr')
    (hsame : r.NoServers s.commitIndex → s'.kept = s.kept) : r.Progress s' (tr ++ tr') := by
  obtain ⟨cs, hcs, hzero⟩ := hext.commands
  have hold : ∀ c ∈ s'.commands, c.eid ≠ 0 → c ∈ s.commands := by
    intro c hc hne
    rw [hcs] at hc
    exact (mem_append.mp hc).resolve_right fun hc => hne (hzero c hc)
  constructor
  · exact hext.commit ▸ h.le
  · exact fun i u => (hext.data i u).trans (h.data i u)
  · rw [hcs]
    refine pairwise_append.mpr ⟨h.distinct, ?_, fun c _ d hd heq => heq.trans (hzero d hd)⟩
    exact pairwise_of_forall_mem_list fun c hc _ _ _ => hzero c hc
  · exact fun c hc hne => h.old c (hold c hc hne) hne
  · intro hno
    rw [hext.commit] at hno
    have hkept := hsame hno
    have hcommands : s'.commands = s.commands := congrArg Kept.commands hkept
    obtain ⟨hentries, hstart, hsub⟩ := h.same hno
    exact ⟨(congrArg Kept.entries hkept).trans hentries, hext.start.trans hstart, hcommands ▸ hsub⟩
  · exact fun c hc hne => hext.commit ▸ h.gone c (hold c hc hne) hne
  · intro c hc hne
    rw [hext.commit]
    refine (h.pending c hc hne).imp (fun hc => hcs ▸ mem_append_left _ hc) ?_
    exact fun ⟨i, hi, hev⟩ => ⟨i, hi, mem_append_left _ hev⟩
  · intro u status i hi
    rw [hext.commit]
    exact h.event u status i ((mem_append.mp hi).resolve_right (hnone u status i))

/-- What the next entry does to the commands: nothing, or it completes one with its eid. -/
theorem next (h : r.Progress s tr)
    (hkept : s'.kept = { s.kept with commitIndex := s.commitIndex + 1, commands := s'.commands })
    (hsub : s'.commands.Sublist s.commands)
    (hgone : ∀ c ∈ s'.commands, c.eid ≠ 0 → ¬ r.DataAt (s.commitIndex + 1) c.eid)
    (hleft : ∀ c ∈ s.commands, c ∈ s'.commands ∨ r.DataAt (s.commitIndex + 1) c.eid ∧
      .complete c.eid .success (c.reported (s.commitIndex + 1)) ∈ tr')
    (hevent : ∀ u status i, .complete u status i ∈ tr' → status = .success ∧
      ∃ c ∈ r.commands, c.eid = u ∧ r.DataAt (s.commitIndex + 1) u ∧
        i = c.reported (s.commitIndex + 1)) : r.Progress s' (tr ++ tr') := by
  have hcommit : s'.commitIndex = s.commitIndex + 1 := congrArg Kept.commitIndex hkept
  have hentries : s'.entries = s.entries := congrArg Kept.entries hkept
  have hstart : s'.logStart = s.logStart := congrArg Kept.logStart hkept
  have hle := h.le
  have hnew : ∀ {u}, r.DataAt (s.commitIndex + 1) u → r.NewData s'.commitIndex (s.commitIndex + 1) u :=
    fun hdata => ⟨by omega, by omega, hdata⟩
  constructor
  · omega
  · intro i u
    rw [dataAt_congr hentries hstart, h.data]
  · exact h.distinct.sublist hsub
  · exact fun c hc => h.old c (hsub.subset hc)
  · intro hno
    obtain ⟨hentries', hstart', hold⟩ := h.same fun i hlow hhigh => hno i hlow (by omega)
    exact ⟨hentries.trans hentries', hstart.trans hstart', fun c hc => hold c (hsub.subset hc)⟩
  · intro c hc hne i hi
    by_cases hlast : i ≤ s.commitIndex
    · exact h.gone c (hsub.subset hc) hne i ⟨hi.low, hlast, hi.data⟩
    · have hlast : i = s.commitIndex + 1 := Nat.le_antisymm (hcommit ▸ hi.high) (by omega)
      exact hgone c hc hne (hlast ▸ hi.data)
  · intro c hc hne
    rcases h.pending c hc hne with hc' | ⟨i, hi, hev⟩
    · refine (hleft c hc').imp_right fun ⟨hdata, hev⟩ => ?_
      exact ⟨_, hnew hdata, mem_append_right _ hev⟩
    · exact .inr ⟨i, hi.mono (by omega), mem_append_left _ hev⟩
  · intro u status i hi
    rcases mem_append.mp hi with hi | hi
    · obtain ⟨hstatus, c, hc, heid, j, hj, hreported⟩ := h.event u status i hi
      exact ⟨hstatus, c, hc, heid, j, hj.mono (by omega), hreported⟩
    · obtain ⟨hstatus, c, hc, heid, hdata, hreported⟩ := hevent u status i hi
      exact ⟨hstatus, c, hc, heid, _, hnew hdata, hreported⟩

theorem skip (h : r.Progress s tr)
    (hkept : s'.kept = { s.kept with commitIndex := s.commitIndex + 1 })
    (hnobody : ∀ c ∈ s.commands, ¬ r.DataAt (s.commitIndex + 1) c.eid) : r.Progress s' tr := by
  have hcommands : s'.commands = s.commands := congrArg Kept.commands hkept
  rw [← append_nil tr]
  refine h.next ?_ (hcommands ▸ Sublist.refl _) ?_ ?_ fun _ _ _ h => absurd h not_mem_nil
  · rw [hcommands]
    exact hkept
  · exact fun c hc _ => hnobody c (hcommands ▸ hc)
  · exact fun c hc => .inl (hcommands ▸ hc)

theorem complete (h : r.Progress s tr) {cmd : Command} (hcmd : cmd ∈ s.commands)
    (hne : cmd.eid ≠ 0) (hdata : r.DataAt (s.commitIndex + 1) cmd.eid)
    (hkept : s'.kept = { s.kept with commitIndex := s.commitIndex + 1
                                     commands := s.commands.erase cmd })
    (honly : CompletesOnly tr' cmd.eid (cmd.reported (s.commitIndex + 1))) :
    r.Progress s' (tr ++ tr') := by
  have hcommands : s'.commands = s.commands.erase cmd := congrArg Kept.commands hkept
  -- No other pending command has the eid of the one that is completed.
  have hother : ∀ c ∈ s'.commands, cmd.eid ≠ c.eid := by
    intro c hc heq
    have hpairs := (perm_cons_erase hcmd).pairwise_iff
      (R := fun c d : Command => c.eid = d.eid → c.eid = 0) (fun {c d} hcd heq =>
        heq.trans (hcd heq.symm)) |>.mp h.distinct
    exact hne ((pairwise_cons.mp hpairs).1 c (hcommands ▸ hc) heq)
  refine h.next ?_ (hcommands ▸ erase_sublist) ?_ ?_ ?_
  · rw [hcommands]
    exact hkept
  · exact fun c hc _ hdata' => hother c hc (hdata.unique hdata')
  · intro c hc
    by_cases heq : c = cmd
    · subst heq
      exact .inr ⟨hdata, (honly _ _ _).mpr ⟨rfl, rfl, rfl⟩⟩
    · exact .inl (hcommands ▸ (mem_erase_of_ne heq).mpr hc)
  · intro u status i hi
    obtain ⟨rfl, rfl, rfl⟩ := (honly u status i).mp hi
    exact ⟨rfl, cmd, h.old cmd hcmd hne, rfl, hdata, rfl⟩

end Raft.Progress

variable {b : Nat} {tr' : List Event} {s s' : Raft}

end Ovsgw.Cluster
