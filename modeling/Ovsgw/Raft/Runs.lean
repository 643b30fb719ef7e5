/-
  **Runs of one server.**

  A run starts with `raft_open` on a log file and goes on with inputs in any
  order.  `Reachable` is relative to a `Rule`, a condition on the inputs and on
  what happens while they are handled; with the trivial rule it is plain
  reachability.  An invariant of every act is an invariant of every run.
-/
import Ovsgw.Raft.CodecSpec
import Ovsgw.Raft.Open
import Ovsgw.Raft.ServerSpec

namespace Ovsgw.Cluster

open List

/-! ## 1. Runs -/

/-- A log file as a server finds it: all of it is on disk, and the codec reads
    each record as it is. -/
structure LogFile.Stored (env : Env) (log : LogFile) : Prop where
  records : ∀ p ∈ log.records, raftRecordFromJson env (raftRecordToJson p.1) = .ok p.1
  disk : ∀ p ∈ log.records, p.2 ≤ log.cur
  cur : log.cur ≤ log.next

/-- What a run is restricted to: the inputs with their environments (`none` is
    the opening of the file), and the events. -/
structure Rule where
  input : Option Input → Env → Prop := fun _ _ => True
  event : Event → Prop := fun _ => True

/-- The states of a server between inputs. -/
inductive Reachable (rule : Rule) : Raft → Prop where
  | opened {env : Env} {log : LogFile} {r0 r : Raft} {tr0 tr : List Event}
      (hstored : log.Stored env) (hload : raftLoad env (raftAlloc log) = ⟨.ok none, r0, tr0⟩)
      (hrun : raftStart env r0 = ⟨.ok (), r, tr⟩) (hstart : 1 ≤ r0.logStart)
      (hinput : rule.input none env) (hevents : ∀ ev ∈ tr, rule.event ev) : Reachable rule r
  | step {env : Env} {inp : Input} {r r' : Raft} {tr : List Event} (hr : Reachable rule r)
      (hopen : r.closed = true → inp.needsOpen = false)
      (hrun : inp.run env r = ⟨.ok (), r', tr⟩) (hinput : rule.input (some inp) env)
      (hevents : ∀ ev ∈ tr, rule.event ev) : Reachable rule r'

/-! ## 2. What an input does -/

theorem one_le_logStart_of_act {ctx : Ctx} {c c' : Core} {evs : List Event}
    (h : Act ctx c evs c') (hone : 1 ≤ c.logStart) : 1 ≤ c'.logStart := by
  cases h with
  | install rq r header hev _ _ =>
    have hend := hev.2.2
    show 1 ≤ u64 (rq.lastIndex + 1)
    simp only [Core.logEnd] at hend
    omega
  | store => exact Nat.succ_le_succ (Nat.zero_le _)
  | _ => exact hone

theorem Does.acts {α : Type} {ctx : Ctx} {m : M α} {s : St} {Q : α → St → Prop}
    (h : Does ctx m s Q) : ∃ c, Acts ctx s.core (m ctx.env s.raft).trace c ∧
      ∀ a, (m ctx.env s.raft).result = .ok a →
        ∃ g, c = (m ctx.env s.raft).state.core g ∧ Q a ⟨(m ctx.env s.raft).state, g⟩ := by
  unfold Does at h
  rcases hm : m ctx.env s.raft with ⟨f | a, r, tr⟩ <;> simp only [hm] at h
  · obtain ⟨c, hacts, _⟩ := h
    exact ⟨c, hacts, nofun⟩
  · obtain ⟨g, hacts, hq⟩ := h
    refine ⟨r.core g, hacts, ?_⟩
    rintro _ ⟨rfl⟩
    exact ⟨g, rfl, hq⟩

/-- The occasion on which `inp` is handled in the state `r`. -/
def Input.ctx (inp : Input) (env : Env) (r : Raft) (g : Ghost) : Ctx :=
  ⟨some inp, env, r, g.dirty⟩

theorem input_acts {inp : Input} {env : Env} {r : Raft} {g : Ghost} (hone : 1 ≤ r.logStart) :
    ∃ c, Acts (inp.ctx env r g) (r.core g) (inp.run env r).trace c ∧
      ((inp.run env r).result = .ok () → ∃ g', c = (inp.run env r).state.core g' ∧
        (g'.dirty = true → g.dirty = true ∨ (inp.ctx env r g).LosesServers)) := by
  have h : Does (inp.ctx env r g) inp.run ⟨r, g⟩ (Tidy (inp.ctx env r g)) :=
    does_input rfl rfl rfl hone
  obtain ⟨c, hacts, hend⟩ := h.acts
  exact ⟨c, hacts, hend ()⟩

/-! ## 3. What opening a file does -/

theorem does_raftStart {ctx : Ctx} {s : St} (hdirty : s.ghost.dirty = ctx.dirty) :
    Does ctx raftStart s (Clean ctx) := by
  refine .get_bind ?_
  refine .when (P := fun s' => s'.ghost.dirty = ctx.dirty)
    (fun _ => does_raftStartElection hdirty) (fun _ => hdirty) fun s' hs' => ?_
  exact (SoftM.bind light_raftResetPingTimer.soft fun _ => light_raftResetElectionTimer.soft).clean hs'

variable {env : Env} {r r' : Raft} {tr : List Event}

/-- What each record keeps holds after all of them. -/
theorem readRecords_invariant {file : List Json} {P : Raft → Prop}
    (hstep : ∀ {json i rec r r' tr}, json ∈ file → raftRecordFromJson env json = .ok rec → P r →
      raftApplyRecord i rec env r = ⟨.ok none, r', tr⟩ → P r')
    {i : Nat} (hr : P r) (h : readRecords i file env r = ⟨.ok none, r', tr⟩) : P r' := by
  induction file generalizing i r tr with
  | nil =>
    cases h
    exact hr
  | cons json rest ih =>
    replace h := eq_ok_of_bind h rfl
    replace h := eq_ok_of_bind h rfl
    cases hjson : raftRecordFromJson env json with
    | error error =>
      rw [hjson] at h
      cases h
    | ok rec =>
      rw [hjson] at h
      obtain ⟨error, r1, tr1, tr2, happly, h, _⟩ := bind_eq_ok h
      cases error with
      | some error => cases h
      | none =>
        exact ih (fun hmem => hstep (mem_cons_of_mem _ hmem))
          (hstep mem_cons_self hjson hr happly) h

/-- How a file is loaded: only the header, if the server has yet to join the
    cluster, and else also the records and the latest set of servers. -/
inductive Loaded (env : Env) (log : LogFile) : Raft → Prop where
  | joining {h : Header} (hheader : raftHeaderFromJson env (raftHeaderToJson log.header) = .ok h)
      (hjoining : h.joining = true) (joinTimeout : Nat) :
      Loaded env log { (raftAlloc log).applyHeader h with joinTimeout }
  | joined {h : Header} (hheader : raftHeaderFromJson env (raftHeaderToJson log.header) = .ok h)
      (hjoining : h.joining = false) {r : Raft} {tr : List Event}
      (hrecords : readRecords 1 (log.records.map (fun rec => raftRecordToJson rec.1)) env
        ((raftAlloc log).applyHeader h) = ⟨.ok none, r, tr⟩)
      {servers : Servers} (hservers : latestServers r.snap.servers r.entries = some servers)
      (electionTimer : Nat) :
      Loaded env log
        { r with servers := setServers r.logEnd r.servers servers, electionTimer }

theorem raftReadLog_eq_ok {file : List Json} (h : raftReadLog file env r = ⟨.ok none, r', tr⟩) :
    ∃ r1 tr1 servers electionTimer, readRecords 1 file env r = ⟨.ok none, r1, tr1⟩ ∧
      latestServers r1.snap.servers r1.entries = some servers ∧
      r' = { r1 with servers := setServers r1.logEnd r1.servers servers, electionTimer } := by
  obtain ⟨error, r1, tr1, _, hrecords, h, _⟩ := bind_eq_ok h
  cases error with
  | some error => cases h
  | none =>
    obtain ⟨_, r2, _, _, hservers, h, _⟩ := bind_eq_ok h
    replace hservers := eq_ok_of_bind hservers rfl
    replace hservers := eq_ok_of_bind hservers rfl
    cases hlatest : latestServers r1.snap.servers r1.entries with
    | none =>
      rw [hlatest] at hservers
      cases hservers
    | some servers =>
      rw [hlatest] at hservers
      obtain ⟨_, r2', _, _, hassert, hset, _⟩ := bind_eq_ok hservers
      have hsame : r2' = r1 := by
        unfold ovsAssert at hassert
        split at hassert <;> cases hassert
        rfl
      subst hsame
      cases hset
      cases h
      exact ⟨r2', tr1, servers, _, hrecords, hlatest, rfl⟩

theorem joining_applyHeader (h : Header) : (r.applyHeader h).joining = h.joining := by
  unfold Raft.applyHeader
  split <;> rfl

/-- What `raft_load` gives is a replay of the records. -/
theorem loaded_of_raftLoad {log : LogFile}
    (h : raftLoad env (raftAlloc log) = ⟨.ok none, r, tr⟩) : Loaded env log r := by
  replace h := eq_ok_of_bind h rfl
  replace h := eq_ok_of_bind h rfl
  obtain ⟨error, r1, _, _, hread, h, _⟩ := bind_eq_ok h
  cases error with
  | some error => cases h
  | none =>
    replace hread := eq_ok_of_bind hread rfl
    cases hheader : raftHeaderFromJson env (raftHeaderToJson log.header) with
    | error error =>
      simp only [LogFile.json, raftAlloc, hheader] at hread
      cases hread
    | ok hd =>
      simp only [LogFile.json, raftAlloc, hheader] at hread
      replace hread := eq_ok_of_bind hread rfl
      cases hread
      replace h := eq_ok_of_bind h rfl
      rw [joining_applyHeader] at h
      cases hjoining : hd.joining with
      | true =>
        rw [if_pos hjoining] at h
        replace h := eq_ok_of_bind h rfl
        cases h
        exact .joining hheader hjoining _
      | false =>
        rw [if_neg (by simp [hjoining])] at h
        obtain ⟨error, r2, _, _, hread, h, _⟩ := bind_eq_ok h
        cases error with
        | some error => cases h
        | none =>
          obtain ⟨r1, tr1, servers, timer, hrecords, hservers, rfl⟩ := raftReadLog_eq_ok hread
          replace h := eq_ok_of_bind h rfl
          split at h
          · cases h
          · cases h
            exact .joined hheader hjoining hrecords hservers timer

/-! ## 4. Invariants of runs -/

/-- `P` holds after loading a file, and every act keeps it and has good events. -/
structure Invariant (rule : Rule) (P : Core → Prop) (Good : Event → Prop) : Prop where
  load : ∀ {env : Env} {log : LogFile} {r : Raft}, log.Stored env → Loaded env log r →
    1 ≤ r.logStart → P (r.core {})
  act : ∀ {ctx : Ctx} {c c' : Core} {evs : List Event}, rule.input ctx.input ctx.env → P c →
    Act ctx c evs c' → (∀ ev ∈ evs, rule.event ev) → (∀ ev ∈ evs, Good ev) ∧ P c'

/-- Under the rule every entry with `servers` is written. -/
def Rule.KeepsServers (rule : Rule) : Prop :=
  ∀ ctx : Ctx, rule.input ctx.input ctx.env → ¬ ctx.LosesServers

namespace Invariant

variable {rule : Rule} {P : Core → Prop} {Good : Event → Prop}

section

variable (hinv : Invariant rule P Good)
include hinv

theorem acts {ctx : Ctx} (hinput : rule.input ctx.input ctx.env) {c c' : Core} {evs : List Event}
    (h : Acts ctx c evs c') (hc : P c) (hone : 1 ≤ c.logStart) (hevents : ∀ ev ∈ evs, rule.event ev) :
    (∀ ev ∈ evs, Good ev) ∧ P c' ∧ 1 ≤ c'.logStart := by
  refine Acts.run (P := fun c => P c ∧ 1 ≤ c.logStart) ?_ h ⟨hc, hone⟩ hevents
  rintro c evs c' ⟨hc, hone⟩ hact hok
  obtain ⟨hgood, hc'⟩ := hinv.act hinput hc hact hok
  exact ⟨hgood, hc', one_le_logStart_of_act hact hone⟩

theorem input {g : Ghost} (hr : P (r.core g)) (hone : 1 ≤ r.logStart) (inp : Input) (env : Env)
    (hinput : rule.input (some inp) env) (hevents : ∀ ev ∈ (inp.run env r).trace, rule.event ev) :
    (∀ ev ∈ (inp.run env r).trace, Good ev) ∧
      ((inp.run env r).result = .ok () → ∃ g', P ((inp.run env r).state.core g') ∧
        1 ≤ (inp.run env r).state.logStart ∧
        (rule.KeepsServers → g.dirty = false → g'.dirty = false)) := by
  obtain ⟨c, hacts, hend⟩ := input_acts hone
  obtain ⟨hgood, hc, hone'⟩ := hinv.acts hinput hacts hr hone hevents
  refine ⟨hgood, fun hok => ?_⟩
  obtain ⟨g', rfl, htidy⟩ := hend hok
  refine ⟨g', hc, hone', fun hkeeps hclean => ?_⟩
  cases hdirty : g'.dirty with
  | false => rfl
  | true =>
    rcases htidy hdirty with h | h
    · simp [hclean] at h
    · exact absurd h (hkeeps _ hinput)

theorem start {log : LogFile} {r0 : Raft} {tr0 : List Event} (hstored : log.Stored env)
    (hload : raftLoad env (raftAlloc log) = ⟨.ok none, r0, tr0⟩) (hone : 1 ≤ r0.logStart)
    (hinput : rule.input none env) (hevents : ∀ ev ∈ (raftStart env r0).trace, rule.event ev) :
    (∀ ev ∈ (raftStart env r0).trace, Good ev) ∧
      ((raftStart env r0).result = .ok () → ∃ g, P ((raftStart env r0).state.core g) ∧
        1 ≤ (raftStart env r0).state.logStart ∧ g.dirty = false) := by
  have hdoes : Does ⟨none, env, r0, false⟩ raftStart ⟨r0, {}⟩ (Clean ⟨none, env, r0, false⟩) :=
    does_raftStart rfl
  obtain ⟨c, hacts, hend⟩ := hdoes.acts
  obtain ⟨hgood, hc, hone'⟩ := hinv.acts hinput hacts
    (hinv.load hstored (loaded_of_raftLoad hload) hone) hone hevents
  refine ⟨hgood, fun hok => ?_⟩
  obtain ⟨g, rfl, hclean⟩ := hend () hok
  exact ⟨g, hc, hone', hclean⟩

theorem reachable (hr : Reachable rule r) :
    ∃ g, P (r.core g) ∧ 1 ≤ r.logStart ∧ (rule.KeepsServers → g.dirty = false) := by
  induction hr with
  | opened hstored hload hrun hone hinput hevents =>
    have hstart := hinv.start hstored hload hone hinput (by rw [hrun]; exact hevents)
    rw [hrun] at hstart
    obtain ⟨g, hc, hone', hclean⟩ := hstart.2 rfl
    exact ⟨g, hc, hone', fun _ => hclean⟩
  | @step env inp r r' tr hr hopen hrun hinput hevents ih =>
    obtain ⟨g, hc, hone, hclean⟩ := ih
    have hstep := hinv.input hc hone inp env hinput (by rw [hrun]; exact hevents)
    rw [hrun] at hstep
    obtain ⟨g', hc', hone', hclean'⟩ := hstep.2 rfl
    exact ⟨g', hc', hone', fun hkeeps => hclean' hkeeps (hclean hkeeps)⟩

end

end Invariant

/-! ## 5. Executing a run -/

/-- What `raft_open` has read from a file that holds only the header `h`. -/
def Raft.ofHeader (h : Header) : Raft :=
  let r := (raftAlloc { header := h }).applyHeader h
  { r with
    servers := setServers r.logEnd [] (h.snap.servers.getD [])
    electionTimer := if h.snap.electionTimer ≠ 0 then h.snap.electionTimer else 1000 }

theorem raftLoad_ofHeader {h : Header} (hw : h.Writable env)
    (hself : (raftFindServer (Raft.ofHeader h) h.sid).isSome) :
    raftLoad env (raftAlloc { header := h }) = ⟨.ok none, Raft.ofHeader h, []⟩ := by
  have hheader := raftHeaderFromJson_raftHeaderToJson hw
  obtain ⟨servers, hservers, hvalid⟩ := hw.servers
  have hall : servers ≠ [] ∧ servers.all (fun n => env.addressValid n.2) :=
    ⟨hvalid.1, all_eq_true.mpr hvalid.2⟩
  have hfind : ¬ (raftFindServer (Raft.ofHeader h) (Raft.ofHeader h).sid).isNone = true := by
    have hsid : (Raft.ofHeader h).sid = h.sid := by simp [Raft.ofHeader, Raft.applyHeader, hw.joined]
    rw [hsid]
    simpa [Option.isSome_iff_ne_none] using hself
  have hread : raftReadLog [] env ((raftAlloc { header := h }).applyHeader h) =
      ⟨.ok none, Raft.ofHeader h, []⟩ := by
    simp [raftReadLog, readRecords, raftGetServersFromLog, raftGetElectionTimerFromLog,
      Raft.applyHeader, Raft.ofHeader, hw.joined, hservers, latestServers, ovsAssert, hall,
      raftSetServers, raftAlloc]
  have hjoining : ((raftAlloc { header := h }).applyHeader h).joining = false := by
    rw [joining_applyHeader, hw.joined]
  have hfile : (raftAlloc { header := h }).log.json = [raftHeaderToJson h] := rfl
  have hheader' : raftReadHeader [raftHeaderToJson h] env (raftAlloc { header := h }) =
      ⟨.ok none, (raftAlloc { header := h }).applyHeader h, []⟩ := by
    simp only [raftReadHeader, bind_run, getEnv_run, hheader, modify_run, pure_run]
    rfl
  simp only [raftLoad, bind_run, getEnv_run, get_run, hfile, hheader', hjoining, tail_cons,
    hread, hfind, Bool.false_eq_true, if_false, pure_run, append_nil]

theorem reachable_ofHeader {rule : Rule} {h : Header} (hw : h.Writable env)
    (hself : (raftFindServer (Raft.ofHeader h) h.sid).isSome)
    (hstart : 1 ≤ (Raft.ofHeader h).logStart) (hinput : rule.input none env)
    (hrun : raftStart env (Raft.ofHeader h) = ⟨.ok (), r, tr⟩)
    (hevents : ∀ ev ∈ tr, rule.event ev) : Reachable rule r :=
  .opened ⟨fun _ h => absurd h not_mem_nil, fun _ h => absurd h not_mem_nil,
    Nat.le_refl 0⟩ (raftLoad_ofHeader hw hself) hrun hstart hinput hevents

/-- The state after some inputs, if no fault stops the server and the events pass a check. -/
def runInputs (check : Event → Bool) : Raft → List (Env × Input) → Option Raft
  | r, [] => some r
  | r, (env, inp) :: rest =>
    if r.closed = true ∧ inp.needsOpen = true ∨ (inp.run env r).trace.all check = false then none
    else
      match (inp.run env r).result with
      | .ok () => runInputs check (inp.run env r).state rest
      | .error _ => none

theorem reachable_runInputs {rule : Rule} {check : Event → Bool} {inputs : List (Env × Input)}
    (hcheck : ∀ ev, check ev = true → rule.event ev)
    (hinputs : ∀ p ∈ inputs, rule.input (some p.2) p.1) (hr : Reachable rule r)
    (h : runInputs check r inputs = some r') : Reachable rule r' := by
  induction inputs generalizing r with
  | nil =>
    cases h
    exact hr
  | cons p rest ih =>
    obtain ⟨env, inp⟩ := p
    obtain ⟨hinput, hrest⟩ := forall_mem_cons.mp hinputs
    rw [runInputs] at h
    split at h
    · cases h
    · next hgo =>
      obtain ⟨hopen, hevents⟩ := not_or.mp hgo
      rcases hrun : inp.run env r with ⟨f | _, r1, tr⟩
      · simp [hrun] at h
      · rw [hrun] at h hevents
        refine ih hrest (.step hr ?_ hrun hinput ?_) h
        · intro hclosed
          simpa [hclosed] using hopen
        · exact fun ev hev => hcheck ev (all_eq_true.mp (Bool.not_eq_false _ ▸ hevents) ev hev)

/-- The header of a server of a cluster of two, with a snapshot at index 1. -/
def pairHeader : Header :=
  { sid := 1, cid := 1, name := "db", localAddress := "unix:s1", snapIndex := 1
    snap := { term := 1, data := some (.object []), eid := 1,
              servers := some [(1, "unix:s1"), (2, "unix:s2")] } }

theorem pairHeader_writable : pairHeader.Writable {} where
  cid := by decide
  joined := rfl
  remoteAddresses := rfl
  snapIndex := by decide
  snapIndex_lt := by decide
  term := by decide
  data := rfl
  servers := ⟨[(1, "unix:s1"), (2, "unix:s2")], rfl, by decide, by decide⟩
  electionTimer := by decide

/-- The server of `pairHeader` after `raft_open`. -/
def pairRaft : Raft := (raftStart {} (Raft.ofHeader pairHeader)).state

theorem reachable_pairRaft {rule : Rule} (hinput : rule.input none {}) : Reachable rule pairRaft :=
  reachable_ofHeader pairHeader_writable rfl (by decide) hinput rfl fun _ h => absurd h not_mem_nil

end Ovsgw.Cluster
