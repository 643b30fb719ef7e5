/-
  **A client that comes back gets what it has missed.**

  A client knows the rows after some transaction and asks for what has happened since.  If
  the server finds a change set that starts there, or the transaction in its history, the
  reply takes the client to the current rows.  Any number of monitors may share the change
  sets and the cache in the meantime.
-/
import Ovsgw.Ovsdb.MonitorReplica

namespace Ovsgw.Ovsdb

open EState List
open JsonrpcMonitor (changeSet)

/-! ## 1. References to change sets -/

/-- Every change set that is held is there, with at least as many references as it is held times. -/
structure RefsOk (changeSets : List ChangeSet) (held : List Nat) : Prop where
  ids : (changeSets.map ChangeSet.id).Nodup
  found : ∀ id ∈ held, ∃ mcs ∈ changeSets, mcs.id = id
  counts : ∀ mcs ∈ changeSets, held.count mcs.id ≤ mcs.nRefs

theorem refsOk_nil : RefsOk [] [] where
  ids := nodup_nil
  found _ h := by cases h
  counts _ h := by cases h

section
variable {changeSets : List ChangeSet} {held held' : List Nat} {mcs : ChangeSet} {id : Nat}

/-- The change sets after `Dbmon.setRefs`. -/
abbrev withRefs (id nRefs : Nat) (changeSets : List ChangeSet) : List ChangeSet :=
  updateFirst (fun mcs => mcs.id == id) (fun mcs => { mcs with nRefs }) changeSets

variable {nRefs : Nat} {dbmon : Dbmon}

theorem mem_withRefs (hids : (changeSets.map ChangeSet.id).Nodup) {a : ChangeSet}
    (ha : a ∈ withRefs id nRefs changeSets) :
    ∃ b ∈ changeSets, a.id = b.id ∧ (b.id = id → a.nRefs = nRefs) ∧
      (b.id ≠ id → a.nRefs = b.nRefs) := by
  induction changeSets with
  | nil => cases ha
  | cons c changeSets ih =>
    rw [map_cons, nodup_cons] at hids
    rw [withRefs, updateFirst] at ha
    split at ha
    next hc =>
      rcases mem_cons.mp ha with rfl | ha
      · exact ⟨c, mem_cons_self, rfl, fun _ => rfl, fun hne => absurd (eq_of_beq hc) hne⟩
      · refine ⟨a, mem_cons_of_mem c ha, rfl, ?_, fun _ => rfl⟩
        intro hid
        have hmem : a.id ∈ changeSets.map ChangeSet.id := mem_map_of_mem ha
        rw [hid, ← eq_of_beq hc] at hmem
        exact absurd hmem hids.1
    next hc =>
      rcases mem_cons.mp ha with rfl | ha
      · exact ⟨a, mem_cons_self, rfl, fun hid => absurd (beq_iff_eq.mpr hid) hc, fun _ => rfl⟩
      · obtain ⟨b, hb, hab⟩ := ih hids.2 ha
        exact ⟨b, mem_cons_of_mem c hb, hab⟩

theorem withRefs_ids : (withRefs id nRefs changeSets).map ChangeSet.id =
    changeSets.map ChangeSet.id := by
  apply updateFirst_map
  intro _
  rfl

section
variable (h : RefsOk changeSets held)
include h

theorem RefsOk.perm (hperm : held.Perm held') : RefsOk changeSets held' where
  ids := h.ids
  found id hid := h.found id (hperm.mem_iff.mpr hid)
  counts mcs hmcs := hperm.count_eq mcs.id ▸ h.counts mcs hmcs

theorem RefsOk.find (hid : id ∈ held) :
    ∃ mcs ∈ changeSets, changeSets.find? (fun mcs => mcs.id == id) = some mcs ∧ mcs.id = id := by
  obtain ⟨mcs, hmcs, rfl⟩ := h.found id hid
  exact ⟨mcs, hmcs, Lists.find?_beq_of_mem h.ids hmcs, rfl⟩

theorem RefsOk.setRefs (hfound : ∀ i ∈ held', ∃ mcs ∈ changeSets, mcs.id = i)
    (hid : held'.count id ≤ nRefs) (hother : ∀ i, i ≠ id → held'.count i ≤ held.count i) :
    RefsOk (withRefs id nRefs changeSets) held' := by
  constructor
  · rw [withRefs_ids]
    exact h.ids
  · intro i hi
    obtain ⟨mcs, hmcs, rfl⟩ := hfound i hi
    rw [← mem_map, withRefs_ids]
    exact mem_map_of_mem hmcs
  · intro a ha
    obtain ⟨b, hb, hab, hsame, hne⟩ := mem_withRefs h.ids ha
    rw [hab]
    by_cases hbid : b.id = id
    · rw [hsame hbid, hbid]
      exact hid
    · rw [hne hbid]
      exact (hother b.id hbid).trans (h.counts b hb)

theorem RefsOk.map {f : ChangeSet → ChangeSet}
    (hid : ∀ mcs, (f mcs).id = mcs.id) (hnRefs : ∀ mcs, (f mcs).nRefs = mcs.nRefs) :
    RefsOk (changeSets.map f) held := by
  constructor
  · rw [map_map]
    have hsame : ChangeSet.id ∘ f = ChangeSet.id := funext hid
    rw [hsame]
    exact h.ids
  · intro id hheld
    obtain ⟨mcs, hmcs, rfl⟩ := h.found id hheld
    exact ⟨f mcs, mem_map_of_mem hmcs, hid mcs⟩
  · intro mcs' hmcs'
    obtain ⟨mcs, hmcs, rfl⟩ := mem_map.mp hmcs'
    rw [hid, hnRefs]
    exact h.counts mcs hmcs

theorem RefsOk.add (hnRefs : mcs.nRefs = 1) (hfresh : ∀ other ∈ changeSets, other.id ≠ mcs.id) :
    RefsOk (changeSets ++ [mcs]) (mcs.id :: held) := by
  have hnot : mcs.id ∉ held := by
    intro hmem
    obtain ⟨other, hother, hid⟩ := h.found mcs.id hmem
    exact hfresh other hother hid
  constructor
  · rw [map_append, nodup_append']
    refine ⟨h.ids, by simp, ?_⟩
    intro id hid hsingle
    obtain ⟨other, hother, rfl⟩ := mem_map.mp hid
    exact hfresh other hother (by simpa using hsingle)
  · intro id hid
    rcases mem_cons.mp hid with rfl | hid
    · exact ⟨mcs, by simp, rfl⟩
    · obtain ⟨other, hother, hotherid⟩ := h.found id hid
      exact ⟨other, mem_append_left _ hother, hotherid⟩
  · intro other hother
    rcases mem_append.mp hother with hother | hother
    · rw [count_cons_of_ne (hfresh other hother).symm]
      exact h.counts other hother
    · rw [mem_singleton.mp hother, count_cons_self, count_eq_zero_of_not_mem hnot, hnRefs]

end

theorem RefsOk.untrack (h : RefsOk dbmon.changeSets (mcs.id :: held))
    (hmcs : mcs ∈ dbmon.changeSets) : RefsOk (dbmon.untrackChangeSet mcs).changeSets held := by
  have hcount := h.counts mcs hmcs
  rw [count_cons_self] at hcount
  rw [Dbmon.untrackChangeSet]
  split
  next hnRefs =>
    have hzero : held.count mcs.id = 0 := by omega
    have hnot : mcs.id ∉ held := count_eq_zero.mp hzero
    constructor
    · exact (filter_sublist.map _).nodup h.ids
    · intro id hid
      obtain ⟨mcs', hmcs', rfl⟩ := h.found id (mem_cons_of_mem _ hid)
      refine ⟨mcs', mem_filter.mpr ⟨hmcs', ?_⟩, rfl⟩
      simp only [bne_iff_ne]
      rintro heq
      exact hnot (heq ▸ hid)
    · intro mcs' hmcs'
      have hle := h.counts mcs' (mem_of_mem_filter hmcs')
      exact (count_le_count_cons).trans hle
  next hnRefs =>
    apply h.setRefs
    · intro id hid
      exact h.found id (mem_cons_of_mem _ hid)
    · omega
    · intro i _
      exact count_le_count_cons

theorem RefsOk.addRef (h : RefsOk dbmon.changeSets held) (hmcs : mcs ∈ dbmon.changeSets) :
    RefsOk (dbmon.setRefs mcs.id (mcs.nRefs + 1)).changeSets (mcs.id :: held) := by
  apply h.setRefs
  · exact forall_mem_cons.mpr ⟨⟨mcs, hmcs, rfl⟩, h.found⟩
  · rw [count_cons_self]
    exact Nat.succ_le_succ (h.counts mcs hmcs)
  · intro i hne
    rw [count_cons_of_ne hne.symm]

end

/-! ## 2. Monitors that share their change sets -/

section
variable (d : Doubles) (left : Uuid → (RowKey → Option Row) → Prop)

/-- The state that monitors of the tables `base` share, and their conditions. -/
structure Shared (base : List MonitorTable) (s : Backend) : Prop where
  extend : TablesExtend base s.dbmon.tables
  ok : ∃ start, s.dbmon.Ok d s.db.schema left start s.db.rows.lookup
  init : s.dbmon.initChangeSet = none
  monitors : ∀ m ∈ s.monitors, Subscribed s.db.schema s.dbmon.tables m
  refs : RefsOk s.dbmon.changeSets (s.monitors.map changeSet)

/-- A step that keeps what the monitors share, the rows and their history. -/
structure Keeps (base : List MonitorTable) (s s' : Backend) : Prop where
  shared : Shared d left base s'
  db : s'.db = s.db
  history : s'.history = s.history

variable {d left} {schema : Schema}
  {start : Nat → RowKey → Option Row} {now : RowKey → Option Row} {dbmon : Dbmon}
  {mcs : ChangeSet} {base : List MonitorTable} {s : Backend} {m : JsonrpcMonitor} {lastTxnid : Uuid}

theorem trackNewChangeSet_frame : (dbmon.trackNewChangeSet lastTxnid).2.tables = dbmon.tables ∧
      (dbmon.trackNewChangeSet lastTxnid).2.initChangeSet = dbmon.initChangeSet := by
  rw [Dbmon.trackNewChangeSet]
  split <;> exact ⟨rfl, rfl⟩

theorem Dbmon.Ok.retrack (h : dbmon.Ok d schema left start now) (mcs : ChangeSet)
    (hlast : left lastTxnid now) :
    ∃ start', ((dbmon.untrackChangeSet mcs).trackNewChangeSet lastTxnid).2.Ok d schema left start'
      now := by
  obtain ⟨start', hok, -⟩ := (h.untrack mcs).trackNew hlast
  exact ⟨start', hok⟩

theorem retrack_tables (dbmon : Dbmon) (mcs : ChangeSet) (lastTxnid : Uuid) :
    ((dbmon.untrackChangeSet mcs).trackNewChangeSet lastTxnid).2.tables = dbmon.tables := by
  rw [trackNewChangeSet_frame.1, Dbmon.untrackChangeSet]
  split <;> rfl

theorem retrack_init
    (hinit : dbmon.initChangeSet = none ∨ dbmon.initChangeSet = some mcs.id ∧ mcs.nRefs ≤ 1) :
    ((dbmon.untrackChangeSet mcs).trackNewChangeSet lastTxnid).2.initChangeSet = none := by
  rw [trackNewChangeSet_frame.2, Dbmon.untrackChangeSet]
  rcases hinit with hinit | ⟨hinit, hnRefs⟩
  · split
    · simp [hinit]
    · exact hinit
  · rw [if_pos hnRefs]
    simp [hinit]

variable {held : List Nat}

theorem Dbmon.Ok.trackNew_refs (hok : dbmon.Ok d schema left start now)
    (h : RefsOk dbmon.changeSets held) (lastTxnid : Uuid) :
    RefsOk (dbmon.trackNewChangeSet lastTxnid).2.changeSets
      ((dbmon.trackNewChangeSet lastTxnid).1 :: held) := by
  rw [Dbmon.trackNewChangeSet]
  split
  next mcs hmcs =>
    obtain ⟨id, -, hfind⟩ := Option.bind_eq_some_iff.mp hmcs
    exact h.addRef (mem_of_find?_eq_some hfind)
  · rw [addChangeSet_eq hok.tables]
    apply h.add rfl
    intro other hother
    exact (hok.idLt other hother).ne

theorem Dbmon.Ok.retrack_refs (hok : dbmon.Ok d schema left start now)
    (hmcs : mcs ∈ dbmon.changeSets) (h : RefsOk dbmon.changeSets (mcs.id :: held))
    (lastTxnid : Uuid) :
    RefsOk ((dbmon.untrackChangeSet mcs).trackNewChangeSet lastTxnid).2.changeSets
      (((dbmon.untrackChangeSet mcs).trackNewChangeSet lastTxnid).1 :: held) :=
  (hok.untrack mcs).trackNew_refs (h.untrack hmcs) lastTxnid

variable (d left)

/-- What the state after an update for one monitor has, when `held` are the change sets of
    the others. -/
structure Updated (s : Backend) (tables : List MonitorTable) (held : List Nat)
    (m : JsonrpcMonitor) (dbmon : Dbmon) : Prop where
  ok : ∃ start, dbmon.Ok d s.db.schema left start s.db.rows.lookup
  init : dbmon.initChangeSet = none
  monitor : Subscribed s.db.schema tables m
  refs : RefsOk dbmon.changeSets (m.changeSet :: held)
  tablesEq : dbmon.tables = tables

/-- The update `r` of a monitor takes its client from the rows at the start of its change set
    to the current ones. -/
def Takes (s : Backend) (held : List Nat) (m : JsonrpcMonitor) (mcs : ChangeSet)
    (rows : RowKey → Option Row) (r : List TableUpdates × JsonrpcMonitor × Dbmon) : Prop :=
  Updated d left s s.dbmon.tables held r.2.1 r.2.2 ∧
    (m.condition.isSome = true → CondOk d s.db.schema s.dbmon.tables mcs m.condition →
      applyUpdates d s.db.schema (s.view m rows) r.1 = some (s.view m s.db.rows.lookup))

variable {d left} {initial : Bool}

section
variable (hok : s.dbmon.Ok d s.db.schema left start s.db.rows.lookup)
  (hm : Subscribed s.db.schema s.dbmon.tables m)
  (hrefs : RefsOk s.dbmon.changeSets (m.changeSet :: held))
  (hfind : s.dbmon.changeSet? m.changeSet = some mcs)
  (hlast : left (getLastTxnid s.history) s.db.rows.lookup)
include hok hm hrefs hfind hlast

theorem getUpdate_updated
    (hinit : s.dbmon.initChangeSet = none ∨ s.dbmon.initChangeSet = some mcs.id ∧ mcs.nRefs ≤ 1)
    (hinitial : initial = true → start mcs.id = fun _ => none) :
    Takes d left s held m mcs (start mcs.id) (s.getUpdate m initial false) := by
  obtain ⟨hmem, hid⟩ := Lists.find?_beq hfind
  obtain ⟨hcond, hok', ⟨jsonCache, hdbmon, -⟩, htakes⟩ :=
    composeOrSearch_spec m.version hok hmem hm.mode hm.settled hinitial s.db
  rw [hdbmon] at hok'
  have hretrack := hok'.retrack mcs hlast
  have htables := retrack_tables { s.dbmon with jsonCache } mcs (getLastTxnid s.history)
  rw [← hid] at hrefs
  simp only [Backend.getUpdate, hfind, Dbmon.getUpdate]
  rw [hdbmon, hcond]
  constructor
  · exact ⟨hretrack, retrack_init hinit, { hm with }, hok'.retrack_refs hmem hrefs _, htables⟩
  · intro hsome hcondOk
    exact htakes (hm.version hsome) hcondOk

theorem composeUpdate_updated (hinit : s.dbmon.initChangeSet = none) :
    Takes d left s held m mcs (start mcs.id) (s.composeUpdate m false) := by
  simp only [Backend.composeUpdate]
  split
  next =>
    have hinitial : false = true → start mcs.id = fun _ => none := fun h => by cases h
    exact getUpdate_updated hok hm hrefs hfind hlast (.inl hinit) hinitial
  next hflush =>
    refine ⟨⟨⟨start, hok⟩, hinit, hm, hrefs, rfl⟩, ?_⟩
    intro hsome hcond
    obtain ⟨hmem, hid⟩ := Lists.find?_beq hfind
    have hfresh : s.dbmon.newChangeSet = some mcs.id := by
      rw [hid]
      simpa [Dbmon.needsFlush] using hflush
    have hinitial : false = true → ∀ k, start mcs.id k = none := fun h => by cases h
    have htakes := composeUpdate_takes hok.tables (hok.tracks mcs hmem) hcond
      (hok.starts mcs hmem) hok.rows (hm.version hsome) hinitial
    rw [composeUpdate_of_fresh (hok.fresh mcs hmem hfresh)] at htakes
    exact htakes

end

variable {i : Nat} {monitors : List JsonrpcMonitor}

theorem perm_eraseIdx (hm : monitors[i]? = some m) : (monitors.map changeSet).Perm
      (m.changeSet :: (monitors.eraseIdx i).map changeSet) := by
  obtain ⟨hi, rfl⟩ := List.getElem?_eq_some_iff.mp hm
  exact ((getElem_cons_eraseIdx_perm hi).map changeSet).symm

variable {dbmon' : Dbmon} {m' : JsonrpcMonitor} {tables : List MonitorTable}
  {version : MonitorVersion} {db : Database}

theorem composeOrSearch_condUpdated {cond : Option SessionCondition} :
    (dbmon.composeOrSearch db initial true cond version mcs).2.2 = dbmon := by
  rw [Dbmon.composeOrSearch]
  split
  · rfl
  · split <;> rfl

theorem composeOrSearch_none :
    (dbmon.composeOrSearch db initial true none version mcs).2.1 = none := by
  rw [Dbmon.composeOrSearch]
  split
  · rfl
  · split <;> rfl

section
variable (h : Shared d left base s)
include h

/-- The monitors after an update for `m'`. -/
theorem Shared.updated (hextend : TablesExtend s.dbmon.tables tables)
    (hupdated : Updated d left s tables held m' dbmon')
    (hmonitors : ∀ m ∈ monitors, m ∈ s.monitors ∨ m = m')
    (hperm : (m'.changeSet :: held).Perm (monitors.map changeSet)) :
    Shared d left base { s with dbmon := dbmon', monitors } := by
  obtain ⟨start', hok⟩ := hupdated.ok
  have htables := hok.tables
  rw [hupdated.tablesEq] at htables
  refine ⟨?_, ⟨start', hok⟩, hupdated.init, ?_, hupdated.refs.perm hperm⟩
  · show TablesExtend base dbmon'.tables
    rw [hupdated.tablesEq]
    exact h.extend.trans hextend
  · intro m hm
    show Subscribed s.db.schema dbmon'.tables m
    rw [hupdated.tablesEq]
    rcases hmonitors m hm with hm | rfl
    · exact (h.monitors m hm).extend hextend htables
    · exact hupdated.monitor

/-- Another state of the monitor at the position `i`. -/
theorem Shared.set (hm : s.monitors[i]? = some m)
    (hextend : TablesExtend s.dbmon.tables tables) (hupdated : Updated d left s tables
      ((s.monitors.eraseIdx i).map changeSet) m' dbmon') :
    Shared d left base { s with dbmon := dbmon', monitors := s.monitors.set i m' } := by
  apply h.updated hextend hupdated
  · intro m'' hm''
    exact mem_or_eq_of_mem_set hm''
  · have hset : (s.monitors.set i m')[i]? = some m' := by
      rw [getElem?_set_self (List.getElem?_eq_some_iff.mp hm).1]
    have hperm := perm_eraseIdx hset
    rw [eraseIdx_set_eq] at hperm
    exact hperm.symm

theorem Shared.push (hextend : TablesExtend s.dbmon.tables tables)
    (hupdated : Updated d left s tables (s.monitors.map changeSet) m' dbmon') :
    Shared d left base { s with dbmon := dbmon', monitors := s.monitors ++ [m'] } := by
  apply h.updated hextend hupdated
  · intro m hm
    rcases mem_append.mp hm with hm | hm
    · exact .inl hm
    · exact .inr (mem_singleton.mp hm)
  · rw [map_append]
    exact (perm_append_singleton _ _).symm

theorem Shared.changeSet (hm : m ∈ s.monitors) :
    ∃ mcs ∈ s.dbmon.changeSets, s.dbmon.changeSet? m.changeSet = some mcs ∧ mcs.id = m.changeSet :=
  h.refs.find (mem_map_of_mem hm)

variable (hlast : left (getLastTxnid s.history) s.db.rows.lookup)
include hlast

theorem Shared.flush (i : Nat) : Keeps d left base s (s.flush i).2 := by
  rw [Backend.flush]
  cases hm : s.monitors[i]? with
  | none => exact ⟨h, rfl, rfl⟩
  | some m =>
    have hmem := mem_of_getElem? hm
    have hrefs := h.refs.perm (perm_eraseIdx hm)
    obtain ⟨start, hok⟩ := h.ok
    obtain ⟨mcs, -, hfind, -⟩ := h.changeSet hmem
    obtain ⟨hupdated, -⟩ :=
      composeUpdate_updated hok (h.monitors m hmem) hrefs hfind hlast h.init
    exact ⟨h.set hm (TablesExtend.refl _) hupdated, rfl, rfl⟩

theorem Shared.flushSession (session : Nat) : Keeps d left base s (s.flushSession session).2 := by
  rw [Backend.flushSession]
  apply List.foldlRecOn (motive := fun state : List (List TableUpdates) × Backend =>
    Keeps d left base s state.2)
  · exact ⟨h, rfl, rfl⟩
  · rintro ⟨sent, s'⟩ ⟨hs', hdb, hhistory⟩ i -
    simp only
    split
    · have hflush := hs'.flush (by rw [hdb, hhistory]; exact hlast) i
      exact ⟨hflush.shared, hflush.db.trans hdb, hflush.history.trans hhistory⟩
    · exact ⟨hs', hdb, hhistory⟩

theorem Shared.condChange {newId : Json}
    {requests : List (String × Json)} {updates : List TableUpdates} {s' : Backend}
    (hm : s.monitors[i]? = some m)
    (hreply : s.condChange d i m newId requests = (.ok updates, s')) : Keeps d left base s s' := by
  have hmem := mem_of_getElem? hm
  have hsubscribed := h.monitors m hmem
  have hrefs := h.refs.perm (perm_eraseIdx hm)
  obtain ⟨mcs, hmcs, hfind, hid⟩ := h.changeSet hmem
  obtain ⟨start, hok⟩ := h.ok
  obtain ⟨condition, tables, hstate, hfollows, hreply⟩ := condChange_ok hsubscribed.conds hreply
  have hextend : TablesExtend s.dbmon.tables tables := hfollows.tables
  have hok' := hok.extend hextend hstate.tablesOk
  have hfind' : ({ s.dbmon with tables } : Dbmon).changeSet? m.changeSet = some mcs := hfind
  simp only [Backend.getUpdate, hfind', Dbmon.getUpdate] at hreply
  rw [composeOrSearch_condUpdated] at hreply
  obtain ⟨-, rfl⟩ := hreply
  refine ⟨h.set hm hextend ⟨hok'.retrack mcs hlast, retrack_init (.inl h.init), ?_, ?_,
    retrack_tables _ _ _⟩, rfl, rfl⟩
  · cases condition with
    | none =>
      rw [composeOrSearch_none]
      have hnone : m.condition = none := by simpa using hfollows.isSome
      have hsame := hsubscribed.extend hextend hstate.tablesOk
      rw [← hnone]
      exact { hsame with }
    | some cond =>
      have hversion := hsubscribed.version (hfollows.isSome.symm.trans rfl)
      rw [composeOrSearch_condChange hstate.tablesOk hversion]
      exact hsubscribed.updated hstate hfollows _ _
  · rw [← hid] at hrefs
    exact hok'.retrack_refs hmcs hrefs _

end

/-! ## 3. Requests and transactions -/

theorem Shared.commit (h : Shared d left base s) {left' : Uuid → (RowKey → Option Row) → Prop}
    (hleft : ∀ txnid rows, left txnid rows → left' txnid rows) (txnid : Uuid)
    {changes : List Change} (hvalid : ValidChanges d s.db.schema s.db.rows.lookup changes) :
    Shared d left' base (s.commit txnid changes) := by
  obtain ⟨start, hok⟩ := h.ok
  have hok' := hok.commit hvalid
  rw [← applyChanges_lookup] at hok'
  have hprev := fun mcs hmcs => hleft _ _ (hok'.prevTxn mcs hmcs)
  rcases Dbmon.commit_eq hok.tables with heq | ⟨-, heq⟩
  · rw [heq] at hok' hprev
    rw [Backend.commit, heq]
    have hrefs : RefsOk (s.dbmon.changeSets.map fun mcs => changes.foldl s.dbmon.historyChangeCb mcs)
        (s.monitors.map JsonrpcMonitor.changeSet) :=
      h.refs.map (fun _ => foldl_historyChangeCb_id) fun _ => foldl_historyChangeCb_nRefs
    exact ⟨h.extend, ⟨start, { hok' with prevTxn := hprev }⟩, h.init, h.monitors, hrefs⟩
  · rw [heq] at hok' hprev
    rw [Backend.commit, heq]
    exact ⟨h.extend, ⟨start, { hok' with prevTxn := hprev }⟩, h.init, h.monitors, h.refs⟩

theorem freshDbmon_eq (hextend : TablesExtend base dbmon.tables)
    (hmonitored : ∀ mt ∈ base, ∀ c ∈ mt.columns, c.monitored = true) :
    Backend.freshDbmon dbmon = { tables := base } := by
  have htable : ∀ mt mt' : MonitorTable, (∀ c ∈ mt.columns, c.monitored = true) → mt.Extends mt' →
      ({ mt' with columns := mt'.columns.filter MonitorColumn.monitored } : MonitorTable) = mt := by
    intro mt mt' hall hextends
    obtain ⟨hname, hselect, extra, hcolumns, hextra⟩ := hextends
    have hnone : extra.filter MonitorColumn.monitored = [] := by
      rw [filter_eq_nil_iff]
      intro c hc
      simp [hextra c hc]
    rw [hcolumns, filter_append, filter_eq_self.mpr hall, hnone, append_nil, hname, hselect]
  have htables : dbmon.tables.map (fun mt =>
      { mt with columns := mt.columns.filter MonitorColumn.monitored }) = base := by
    generalize dbmon.tables = tables at hextend
    induction hextend with
    | nil => rfl
    | cons hextends _ ih =>
      rw [map_cons, htable _ _ (hmonitored _ mem_cons_self) hextends,
        ih fun mt hmt => hmonitored mt (mem_cons_of_mem _ hmt)]
  rw [Backend.freshDbmon, htables]

theorem untrack_frame : (dbmon.untrackChangeSet mcs).tables = dbmon.tables ∧
      (dbmon.initChangeSet = none → (dbmon.untrackChangeSet mcs).initChangeSet = none) := by
  rw [Dbmon.untrackChangeSet]
  split
  · refine ⟨rfl, fun hinit => ?_⟩
    simp [hinit]
  · exact ⟨rfl, id⟩

/-- Without monitors everything starts anew. -/
theorem Shared.fresh (h : Shared d left base s) (hbase : TablesOk s.db.schema base)
    (hmonitored : ∀ mt ∈ base, ∀ c ∈ mt.columns, c.monitored = true)
    (hextend : TablesExtend base dbmon.tables) :
    Shared d left base { s with dbmon := Backend.freshDbmon dbmon, monitors := [] } := by
  obtain ⟨start, hok⟩ := h.ok
  rw [freshDbmon_eq hextend hmonitored]
  constructor
  · exact TablesExtend.refl base
  · exact ⟨start, idle_ok hbase hok.rows⟩
  · rfl
  · intro m hm
    cases hm
  · exact refsOk_nil

theorem Shared.destroy (h : Shared d left base s) (hbase : TablesOk s.db.schema base)
    (hmonitored : ∀ mt ∈ base, ∀ c ∈ mt.columns, c.monitored = true) (i : Nat) :
    Keeps d left base s (s.destroy i) := by
  rw [Backend.destroy]
  cases hm : s.monitors[i]? with
  | none => exact ⟨h, rfl, rfl⟩
  | some m =>
    obtain ⟨start, hok⟩ := h.ok
    obtain ⟨mcs, hmcs, hfind, hid⟩ := h.changeSet (mem_of_getElem? hm)
    have hrefs := h.refs.perm (perm_eraseIdx hm)
    rw [← hid] at hrefs
    obtain ⟨htables, hinit⟩ := untrack_frame
    simp only [hfind, Option.elim_some]
    refine ⟨?_, rfl, rfl⟩
    by_cases hempty : (s.monitors.eraseIdx i).isEmpty = true
    · rw [if_pos hempty, isEmpty_iff.mp hempty]
      exact h.fresh hbase hmonitored (by rw [htables]; exact h.extend)
    · rw [if_neg hempty]
      constructor
      · exact htables ▸ h.extend
      · exact ⟨start, hok.untrack mcs⟩
      · exact hinit h.init
      · intro m hm
        show Subscribed s.db.schema (s.dbmon.untrackChangeSet mcs).tables m
        rw [htables]
        exact h.monitors m (mem_of_mem_eraseIdx hm)
      · exact hrefs.untrack hmcs

/-- The rows that the transactions of the history left. -/
def HistoryOk (d : Doubles) (schema : Schema) (left : Uuid → (RowKey → Option Row) → Prop)
    (history : List HistoryNode) (now : RowKey → Option Row) : Prop :=
  ∀ pre node post, history = pre ++ node :: post →
    ∃ rows, left node.txnid rows ∧ RowsOk d schema rows ∧
      ValidChanges d schema rows (post.flatMap HistoryNode.changes) ∧
      rowsAfter (post.flatMap HistoryNode.changes) rows = now

variable {history : List HistoryNode}

theorem HistoryOk.last (h : HistoryOk d schema left history now) (hzero : ∀ rows, left 0 rows) :
    left (getLastTxnid history) now := by
  rw [getLastTxnid]
  cases hhistory : history.getLast? with
  | none => exact hzero now
  | some node =>
    obtain ⟨pre, hpre⟩ := getLast?_eq_some_iff.mp hhistory
    obtain ⟨rows, hleft, -, -, hafter⟩ := h pre node [] hpre
    have hrows : rows = now := hafter
    exact hrows ▸ hleft

theorem sameColumns_eq (htables : TablesOk schema dbmon.tables)
    (h : dbmon.sameColumns mcs = true) {mcst : TableChanges} (hmcst : mcst ∈ mcs.tables)
    {mt : MonitorTable} (hmt : mt ∈ dbmon.tables) (hname : mcst.table = mt.name) :
    mcst.nColumns = mt.columns.length := by
  have hall := all_eq_true.mp h mcst hmcst
  have hfind : dbmon.table? mcst.table = some mt := by
    rw [hname]
    exact htables.find hmt
  rw [hfind] at hall
  exact (eq_of_beq hall).symm

/-- What `ovsdb_monitor_get_changes_after` finds or builds: a change set from the rows that
    the transaction left, with all columns. -/
structure ChangesAfter (d : Doubles) (schema : Schema)
    (left : Uuid → (RowKey → Option Row) → Prop) (now : RowKey → Option Row) (txnid : Uuid)
    (dbmon dbmon' : Dbmon) (mcs : ChangeSet) (start : Nat → RowKey → Option Row) : Prop where
  ok : dbmon'.Ok d schema left start now
  find : dbmon'.changeSet? mcs.id = some mcs
  leftBy : left txnid (start mcs.id)
  columns : ∀ mcst ∈ mcs.tables, ∀ mt ∈ dbmon'.tables, mcst.table = mt.name →
    mcst.nColumns = mt.columns.length
  tables : dbmon'.tables = dbmon.tables
  init : dbmon'.initChangeSet = dbmon.initChangeSet
  refs : ∀ held, RefsOk dbmon.changeSets held → RefsOk dbmon'.changeSets (mcs.id :: held)

/-- The changes are not found, or are those since the transaction. -/
theorem getChangesAfter_spec (txnid : Uuid) (hok : dbmon.Ok d schema left start now)
    (hhistory : HistoryOk d schema left history now) :
    dbmon.getChangesAfter history txnid = (none, dbmon) ∨
      ∃ mcs dbmon' start', dbmon.getChangesAfter history txnid = (some mcs.id, dbmon') ∧
        ChangesAfter d schema left now txnid dbmon dbmon' mcs start' := by
  rw [Dbmon.getChangesAfter]
  cases hfound : dbmon.findChangeSet txnid with
  | some mcs =>
    right
    have hmem := mem_of_find?_eq_some hfound
    have hprops := find?_some hfound
    rw [Bool.and_eq_true] at hprops
    obtain ⟨hprev, hsame⟩ := hprops
    refine ⟨{ mcs with nRefs := mcs.nRefs + 1 }, _, start, rfl, hok.setRefs _ _, ?_, ?_, ?_, rfl, rfl,
      fun held hheld => hheld.addRef hmem⟩
    · have hfind : dbmon.changeSet? mcs.id = some mcs := Lists.find?_beq_of_mem hok.ids hmem
      show (dbmon.setRefs mcs.id (mcs.nRefs + 1)).changeSet? mcs.id = _
      rw [Dbmon.changeSet?, Dbmon.setRefs, find?_updateFirst_self]
      · rw [Dbmon.changeSet?] at hfind
        rw [hfind]
        rfl
      · intro other hother
        exact hother
    · exact eq_of_beq hprev ▸ hok.prevTxn mcs hmem
    · intro mcst hmcst mt hmt hname
      exact sameColumns_eq hok.tables hsame hmcst hmt hname
  | none =>
    dsimp only
    cases hdrop : history.dropWhile fun node => node.txnid != txnid with
    | nil => exact .inl rfl
    | cons node nodes =>
      right
      have hnode : node.txnid = txnid := by
        have hhead := head?_dropWhile_not (fun node : HistoryNode => node.txnid != txnid) history
        rw [hdrop] at hhead
        simpa using hhead
      have hsplit : history = history.takeWhile (fun node => node.txnid != txnid) ++ node :: nodes := by
        rw [← hdrop, takeWhile_append_dropWhile]
      obtain ⟨rows, hleft, hrows, hvalid, hafter⟩ := hhistory _ node nodes hsplit
      rw [hnode] at hleft
      have htracks := foldl_historyChangeCb_tracks hok.tables
        (emptyChangeSet_tracks hok.tables dbmon.nextId txnid rows) hrows hvalid
      rw [hafter] at htracks
      have hadd := hok.add _ foldl_historyChangeCb_id hrows
        (by rw [foldl_historyChangeCb_prevTxn]; exact hleft) htracks
      have hfresh : ∀ other ∈ dbmon.changeSets, other.id ≠
          ((nodes.flatMap HistoryNode.changes).foldl dbmon.historyChangeCb
            (emptyChangeSet dbmon.tables dbmon.nextId txnid)).id := by
        intro other hother
        rw [foldl_historyChangeCb_id]
        exact (hok.idLt other hother).ne
      rw [addChangeSet_eq hok.tables]
      refine ⟨_, _, _, rfl, hadd, Lists.find?_beq_of_mem hadd.ids (by simp), ?_, ?_, rfl, rfl, ?_⟩
      · rw [foldl_historyChangeCb_id]
        show left txnid (Function.update start dbmon.nextId rows dbmon.nextId)
        rw [Function.update_self]
        exact hleft
      · intro mcst' hmcst' mt hmt hname
        obtain ⟨mcst, hmcst, htable, hn⟩ := foldl_historyChangeCb_columns hmcst'
        rw [hn, mem_emptyChangeSet hok.tables hmcst hmt (htable ▸ hname)]
      · intro held hheld
        exact hheld.add foldl_historyChangeCb_nRefs hfresh

theorem subscribed_none (htables : TablesOk schema dbmon.tables) (session : Nat) (monitorId : Json)
    (version : MonitorVersion) (id : Nat) :
    Subscribed schema dbmon.tables ⟨session, monitorId, version, none, id⟩ := by
  constructor
  · intro hsome
    cases hsome
  · constructor
    · exact htables
    · intro mt _
      exact Condition.wellFormed_empty
    · intro mt _
      exact Condition.wellFormed_empty
    · intro mt _ c hc
      cases hc
  · intro mt _
    rfl
  · intro _ mt _
    rfl

variable {condition : Option SessionCondition}

theorem bind_subscribed (htables : TablesOk schema dbmon.tables) {session : Nat} {monitorId : Json}
    (hversion : condition.isSome = true → version ≠ .v1)
    (hcond : ∀ c, condition = some c → c.Requested schema) :
    ∃ tables, condition.elim dbmon dbmon.conditionBind = { dbmon with tables } ∧
      TablesExtend dbmon.tables tables ∧
      ∀ id, Subscribed schema tables ⟨session, monitorId, version, condition, id⟩ := by
  cases condition with
  | none =>
    exact ⟨dbmon.tables, rfl, TablesExtend.refl _,
      subscribed_none htables session monitorId version⟩
  | some cond =>
    obtain ⟨tables, hbind, hextend, hconds, hsettled, hmode⟩ :=
      conditionBind_ok dbmon htables (hcond cond rfl)
    exact ⟨tables, hbind, hextend, fun _ => ⟨hversion, hconds, hsettled, hmode⟩⟩

theorem Shared.refuse (h : Shared d left base s) (hbase : TablesOk s.db.schema base)
    (hmonitored : ∀ mt ∈ base, ∀ c ∈ mt.columns, c.monitored = true)
    (hcond : ∀ c, condition = some c → c.Requested s.db.schema) :
    Keeps d left base s (s.refuse condition) := by
  obtain ⟨start, hok⟩ := h.ok
  obtain ⟨tables, hbind, hextend, hsubscribed⟩ :=
    @bind_subscribed _ _ .v3 condition hok.tables 0 .null nofun hcond
  have hok' := hok.extend hextend (hsubscribed 0).conds.tablesOk
  have hbase' := h.extend.trans hextend
  rw [Backend.refuse, hbind]
  refine ⟨?_, rfl, rfl⟩
  by_cases hempty : s.monitors.isEmpty = true
  · have hfresh : Shared d left base
        { s with dbmon := Backend.freshDbmon { s.dbmon with tables }, monitors := [] } :=
      h.fresh hbase hmonitored hbase'
    rw [← isEmpty_iff.mp hempty] at hfresh
    rw [if_pos hempty]
    exact hfresh
  · rw [if_neg hempty]
    exact ⟨hbase', ⟨start, hok'⟩, h.init, fun m hm => (h.monitors m hm).extend hextend hok'.tables,
      h.refs⟩

theorem getInitial_updated (hok : s.dbmon.Ok d s.db.schema left start s.db.rows.lookup)
    (hm : ∀ id, Subscribed s.db.schema s.dbmon.tables { m with changeSet := id })
    (hrefs : RefsOk s.dbmon.changeSets held)
    (hlast : left (getLastTxnid s.history) s.db.rows.lookup) (hinit : s.dbmon.initChangeSet = none)
    (hzero : left 0 fun _ => none) : let (id, dbmon) := s.dbmon.getInitial s.db
    let r := ({ s with dbmon } : Backend).composeUpdate { m with changeSet := id } true
    Updated d left s s.dbmon.tables held r.2.1 r.2.2 := by
  obtain ⟨hid, hdbmon, hok'⟩ := hok.getInitial hinit hzero
  obtain ⟨mcs, hmcs, hnRefs, hdbmon⟩ : ∃ mcs : ChangeSet, mcs.id = s.dbmon.nextId ∧ mcs.nRefs = 1 ∧
      (s.dbmon.getInitial s.db).2 =
        { s.dbmon with
          changeSets := s.dbmon.changeSets ++ [mcs]
          nextId := s.dbmon.nextId + 1
          initChangeSet := some mcs.id } := ⟨_, rfl, rfl, hdbmon⟩
  have heq : s.dbmon.getInitial s.db = (mcs.id, (s.dbmon.getInitial s.db).2) :=
    Prod.ext (hid.trans hmcs.symm) rfl
  have hfresh : ∀ other ∈ s.dbmon.changeSets, other.id ≠ mcs.id := by
    intro other hother
    rw [hmcs]
    exact (hok.idLt other hother).ne
  have hnew : s.dbmon.newChangeSet ≠ some mcs.id := by
    intro hnew
    exact absurd (hok.newLt _ hnew) (hmcs ▸ Nat.lt_irrefl _)
  rw [heq, hdbmon]
  rw [hdbmon] at hok'
  dsimp only
  rw [Backend.composeUpdate, if_pos (by simpa [Dbmon.needsFlush] using hnew)]
  have hinitial : true = true → Function.update start s.dbmon.nextId (fun _ => none) mcs.id =
      fun _ => none := by
    intro _
    rw [hmcs, Function.update_self]
  have hupdated := (getUpdate_updated
    (s := { s with
      dbmon := { s.dbmon with
        changeSets := s.dbmon.changeSets ++ [mcs]
        nextId := s.dbmon.nextId + 1
        initChangeSet := some mcs.id } })
    (m := { m with changeSet := mcs.id }) hok' (hm mcs.id) (hrefs.add hnRefs hfresh)
    (Lists.find?_beq_of_mem hok'.ids (by simp)) hlast (.inr ⟨rfl, hnRefs.le⟩) hinitial).1
  exact { hupdated with }

/-- A new monitor keeps what the monitors share.  If its last transaction was found, the
    client gets from the rows after that transaction to the current ones. -/
theorem Shared.create (h : Shared d left base s)
    (hhistory : HistoryOk d s.db.schema left s.history s.db.rows.lookup)
    (hzero : ∀ rows, left 0 rows) (session : Nat) (monitorId : Json)
    (hversion : condition.isSome = true → version ≠ .v1)
    (hcond : ∀ c, condition = some c → c.Requested s.db.schema) (lastId : Uuid) :
    let r := s.create session monitorId version condition lastId
    Keeps d left base s r.2 ∧ r.1.lastTxnid = getLastTxnid s.history ∧
      (r.1.found = true → condition.isSome = true →
        (∀ mt ∈ base, (tableCondition condition mt.name).new.Regular) →
        ∃ rows, lastId ≠ 0 ∧ left lastId rows ∧
          applyUpdates d s.db.schema (condView s.db.schema base condition rows) r.1.updates =
            some (condView s.db.schema base condition s.db.rows.lookup)) := by
  obtain ⟨start, hok⟩ := h.ok
  have hlast := hhistory.last hzero
  obtain ⟨tables, hbind, hextend, hsubscribed⟩ :=
    bind_subscribed hok.tables hversion hcond
  have hok1 := hok.extend hextend (hsubscribed 0).conds.tablesOk
  have hafter : ∀ r, (if version = .v3 ∧ lastId ≠ 0 then
        ({ s.dbmon with tables } : Dbmon).getChangesAfter s.history lastId
      else (none, { s.dbmon with tables })) = r → r = (none, { s.dbmon with tables }) ∨
      lastId ≠ 0 ∧ ∃ mcs dbmon' start', r = (some mcs.id, dbmon') ∧ ChangesAfter d s.db.schema left
        s.db.rows.lookup lastId { s.dbmon with tables } dbmon' mcs start' := by
    rintro _ rfl
    split
    next hif =>
      rcases getChangesAfter_spec lastId hok1 hhistory with hnone | hsome
      · exact .inl hnone
      · exact .inr ⟨hif.2, hsome⟩
    · exact .inl rfl
  simp only [Backend.create, hbind]
  rcases hafter _ rfl with hnone | ⟨hne, mcs, dbmon', start', hsome, hchanges⟩
  · simp only [hnone, Option.isNone_none, Bool.not_true]
    have hupdated := getInitial_updated (s := { s with dbmon := { s.dbmon with tables } })
      (m := ⟨session, monitorId, version, condition, 0⟩) hok1 hsubscribed h.refs hlast h.init
      (hzero _)
    refine ⟨⟨h.push hextend { hupdated with }, rfl, rfl⟩, trivial, ?_⟩
    intro hfound
    cases hfound
  · simp only [hsome, Option.isNone_some, Bool.not_false]
    have hm : Subscribed s.db.schema dbmon'.tables
        ⟨session, monitorId, version, condition, mcs.id⟩ := by
      rw [hchanges.tables]
      exact hsubscribed mcs.id
    obtain ⟨hupdated, htakes⟩ := composeUpdate_updated (s := { s with dbmon := dbmon' }) hchanges.ok
      hm (hchanges.refs _ h.refs) hchanges.find hlast (hchanges.init.trans h.init)
    have hextend' : TablesExtend s.dbmon.tables dbmon'.tables := by
      rw [hchanges.tables]
      exact hextend
    refine ⟨⟨h.push hextend' { hupdated with }, rfl, rfl⟩, trivial, ?_⟩
    intro _ hisSome hregular
    refine ⟨start' mcs.id, hne, hchanges.leftBy, ?_⟩
    have hbase := h.extend.trans hextend'
    have hregular' : ∀ mt ∈ dbmon'.tables, (tableCondition condition mt.name).new.Regular :=
      hbase.forall_mem (fun _ _ hname h => hname ▸ h) hregular
    have hview := htakes hisSome (hm.condOk_of_columns hregular' hchanges.columns)
    rw [Backend.view, Backend.view, condView, condView, hbase.view_eq, hbase.view_eq] at hview
    exact hview

end

/-! ## 4. Runs -/

namespace Backend

def Event.txnid? : Event → Option Uuid
  | .commit txnid _ => some txnid
  | _ => none

/-- The identifiers of the transactions of a run, with the rows that each of them leaves. -/
def states (d : Doubles) : Backend → List Event → List (Uuid × AList (fun _ : RowKey => Row))
  | _, [] => []
  | s, event :: events =>
    let s' := (s.step d event).2
    (event.txnid?.map fun txnid => (txnid, s'.db.rows)).toList ++ s'.states d events

/-- An event of a server: a valid transaction, a run of the history, or a run of a session with any
    request but one to change conditions that is rejected with some of its conditions stored. -/
def Legal (d : Doubles) (s : Backend) : Event → Prop
  | .commit _ changes => ValidChanges d s.db.schema s.db.rows.lookup changes
  | .sessionRun session (some (.condChange params)) =>
    (∃ updates s', (s.flushSession session).2.monitorCondChange d session params =
      (.ok updates, s')) ∨
    ((s.flushSession session).2.monitorCondChange d session params).2 = (s.flushSession session).2
  | _ => True

def LegalAll (d : Doubles) : Backend → List Event → Prop
  | _, [] => True
  | s, event :: events => s.Legal d event ∧ (s.step d event).2.LegalAll d events

end Backend

def LeftBy (log : List (Uuid × AList (fun _ : RowKey => Row))) (txnid : Uuid)
    (rows : RowKey → Option Row) : Prop :=
  txnid ≠ 0 → ∃ r, (txnid, r) ∈ log ∧ r.lookup = rows

/-- The state of a server with the log of its transactions. -/
structure Logged (d : Doubles) (schema : Schema) (base : List MonitorTable)
    (log : List (Uuid × AList (fun _ : RowKey => Row))) (s : Backend) : Prop where
  shared : Shared d (LeftBy log) base s
  history : HistoryOk d s.db.schema (LeftBy log) s.history s.db.rows.lookup
  last : log.getLast? = s.history.getLast?.map fun node => (node.txnid, s.db.rows)
  schemaEq : s.db.schema = schema

section
variable {d : Doubles} {schema : Schema} {base : List MonitorTable}
  {log : List (Uuid × AList (fun _ : RowKey => Row))} {s s' : Backend}

theorem leftBy_zero (rows : RowKey → Option Row) : LeftBy log 0 rows :=
  fun hne => absurd rfl hne

variable {rows : RowKey → Option Row} {txnid : Uuid}

theorem LeftBy.append (h : LeftBy log txnid rows)
    (more : List (Uuid × AList (fun _ : RowKey => Row))) : LeftBy (log ++ more) txnid rows := by
  intro hne
  obtain ⟨r, hmem, hr⟩ := h hne
  exact ⟨r, mem_append_left more hmem, hr⟩

variable {changes : List Change}

theorem ValidChanges.append {more : List Change} (h : ValidChanges d schema rows changes)
    (hmore : ValidChanges d schema (rowsAfter changes rows) more) :
    ValidChanges d schema rows (changes ++ more) := by
  induction changes generalizing rows with
  | nil => exact hmore
  | cons change changes ih => exact ⟨h.1, ih h.2 hmore⟩

variable {history : List HistoryNode} {now : RowKey → Option Row}
  {left : Uuid → (RowKey → Option Row) → Prop}

theorem HistoryOk.commit {left' : Uuid → (RowKey → Option Row) → Prop}
    (h : HistoryOk d schema left history now) (hnow : RowsOk d schema now)
    (hleft : ∀ txnid rows, left txnid rows → left' txnid rows)
    (hvalid : ValidChanges d schema now changes) (hnew : left' txnid (rowsAfter changes now)) :
    HistoryOk d schema left' (history ++ [⟨txnid, changes⟩]) (rowsAfter changes now) := by
  intro pre node post hsplit
  rcases eq_nil_or_concat post with rfl | ⟨post, last, rfl⟩
  · obtain ⟨-, hnode⟩ := append_inj' hsplit rfl
    cases hnode
    exact ⟨rowsAfter changes now, hnew, hvalid.rowsOk hnow, trivial, rfl⟩
  · rw [concat_eq_append, ← cons_append, ← append_assoc] at hsplit
    obtain ⟨hhistory, hlast⟩ := append_inj' hsplit rfl
    cases hlast
    obtain ⟨rows, hrows, hok, hchanges, hafter⟩ := h pre node post hhistory
    refine ⟨rows, hleft _ _ hrows, hok, ?_, ?_⟩
    · rw [concat_eq_append, flatMap_append]
      apply hchanges.append
      rw [hafter, flatMap_singleton]
      exact hvalid
    · rw [concat_eq_append, flatMap_append, rowsAfter, foldl_append]
      rw [rowsAfter] at hafter
      rw [hafter, flatMap_singleton]
      rfl

theorem HistoryOk.drop (h : HistoryOk d schema left history now) (n : Nat) :
    HistoryOk d schema left (history.drop n) now := by
  intro pre node post hsplit
  apply h (history.take n ++ pre) node post
  rw [append_assoc, ← hsplit, take_append_drop]

section
variable (h : Logged d schema base log s)
include h

theorem Logged.commit (txnid : Uuid)
    (hvalid : ValidChanges d s.db.schema s.db.rows.lookup changes) :
    Logged d schema base (log ++ [(txnid, (s.commit txnid changes).db.rows)])
      (s.commit txnid changes) := by
  obtain ⟨start, hok⟩ := h.shared.ok
  have hleft : ∀ id rows, LeftBy log id rows →
      LeftBy (log ++ [(txnid, (s.commit txnid changes).db.rows)]) id rows :=
    fun _ _ hrows => hrows.append _
  have hnow : (s.commit txnid changes).db.rows.lookup = rowsAfter changes s.db.rows.lookup :=
    applyChanges_lookup changes s.db.rows
  constructor
  · exact h.shared.commit hleft txnid hvalid
  · rw [hnow]
    apply h.history.commit hok.rows hleft hvalid
    intro _
    exact ⟨_, mem_append_right log (mem_singleton_self _), hnow⟩
  · rw [Backend.commit, getLast?_append_of_ne_nil _ (cons_ne_nil _ _),
      getLast?_append_of_ne_nil _ (cons_ne_nil _ _)]
    rfl
  · exact h.schemaEq

theorem Logged.historyRun : Logged d schema base log s.historyRun := by
  constructor
  · exact { h.shared with }
  · exact h.history.drop _
  · rw [h.last, Backend.historyRun, getLast?_drop]
    split
    next hle =>
      have hnil : s.history = [] := by
        apply eq_nil_of_length_eq_zero
        omega
      rw [hnil]
      rfl
    · rfl
  · exact h.schemaEq

theorem Logged.of_keeps (hkeeps : Keeps d (LeftBy log) base s s') : Logged d schema base log s' := by
  obtain ⟨hshared, hdb, hhistory⟩ := hkeeps
  constructor
  · exact hshared
  · rw [hdb, hhistory]
    exact h.history
  · rw [hdb, hhistory]
    exact h.last
  · rw [hdb]
    exact h.schemaEq

end

variable {version : MonitorVersion}

theorem newCondition_isSome : (newCondition version).isSome = true → version ≠ .v1 := by
  cases version <;> simp [newCondition]

section
variable (hschema : ∀ ts ∈ schema.tables, ColumnsOk ts.columns) (hbase : TablesOk schema base)
  (hmonitored : ∀ mt ∈ base, ∀ c ∈ mt.columns, c.monitored = true)
  (h : Logged d schema base log s)
include hschema hbase hmonitored h

/-- A request keeps what is known of the history. -/
theorem Logged.receive (session : Nat)
    (request : Backend.Request) (hlegal : ∀ params, request = .condChange params →
      (∃ updates s', s.monitorCondChange d session params = (.ok updates, s')) ∨
      (s.monitorCondChange d session params).2 = s) :
    Logged d schema base log (s.receive d session request).2 := by
  have hlast := h.history.last leftBy_zero
  cases request with
  | create monitorId version requests lastId =>
    simp only [Backend.receive, Backend.monitorCreate]
    split
    · exact h
    · split
      · exact h
      next tables condition hparse =>
        rw [h.schemaEq] at hparse
        obtain ⟨-, -, hsome, hcond⟩ := monitorRequests_requested hschema hparse
        rw [← h.schemaEq] at hcond
        split
        · split
          · exact h.of_keeps (h.shared.refuse (h.schemaEq ▸ hbase) hmonitored hcond)
          · exact h.of_keeps (h.shared.create h.history leftBy_zero session monitorId
              (fun hisSome => newCondition_isSome (hsome ▸ hisSome)) hcond (lastId.getD 0)).1
        · exact h.of_keeps ⟨{ h.shared with }, rfl, rfl⟩
  | condChange params =>
    rcases hlegal params rfl with ⟨updates, s', hreply⟩ | hsame
    · simp only [Backend.receive, hreply]
      obtain ⟨i, m, newId, requests, hm, hcondChange⟩ := monitorCondChange_ok hreply
      exact h.of_keeps (h.shared.condChange hlast hm hcondChange)
    · rw [Backend.receive]
      split
      next hreply =>
        rw [hreply] at hsame
        exact hsame ▸ h
      next hreply =>
        rw [hreply] at hsame
        exact hsame ▸ h
  | cancel monitorId =>
    rw [Backend.receive]
    cases s.findMonitor session monitorId with
    | none => exact h
    | some i => exact h.of_keeps (h.shared.destroy (h.schemaEq ▸ hbase) hmonitored i)

theorem Logged.step {event : Backend.Event} (hlegal : s.Legal d event) :
    Logged d schema base (log ++ (event.txnid?.map fun txnid =>
      (txnid, (s.step d event).2.db.rows)).toList) (s.step d event).2 := by
  cases event with
  | commit txnid changes => exact h.commit txnid hlegal
  | historyRun =>
    show Logged d schema base (log ++ []) s.historyRun
    rw [append_nil]
    exact h.historyRun
  | sessionRun session request =>
    show Logged d schema base (log ++ []) (s.step d (.sessionRun session request)).2
    rw [append_nil]
    have hflushed := h.of_keeps (h.shared.flushSession (h.history.last leftBy_zero) session)
    cases request with
    | none => exact hflushed
    | some request =>
      apply hflushed.receive hschema hbase hmonitored session request
      rintro params rfl
      exact hlegal

theorem Logged.run {events : List Backend.Event} (hlegal : s.LegalAll d events) :
    Logged d schema base (log ++ s.states d events) (s.run d events).2 := by
  induction events generalizing s log with
  | nil =>
    rw [Backend.states, append_nil]
    exact h
  | cons event events ih =>
    have hrun := ih (h.step hschema hbase hmonitored hlegal.1) hlegal.2
    rw [append_assoc] at hrun
    exact hrun

end

theorem logged_idle {db : Database} {others : List (Nat × Json)}
    (hrows : RowsOk d db.schema db.rows.lookup) (hbase : TablesOk db.schema base) :
    Logged d db.schema base [] (Backend.idle db [] base others) where
  shared :=
    { extend := TablesExtend.refl base
      ok := ⟨fun _ _ => none, idle_ok hbase hrows⟩
      init := rfl
      monitors := fun _ hm => by cases hm
      refs := refsOk_nil }
  history pre node post hsplit := by simp [Backend.idle] at hsplit
  last := rfl
  schemaEq := rfl

theorem monitorCreate_some {session : Nat} {monitorId : Json} {requests : List (String × Json)}
    {lastId : Uuid} {tables : List MonitorTable} {cond : Option SessionCondition}
    {reply : Backend.CreateReply}
    (hrequest : monitorRequests d s.db.schema version requests = .ok (tables, cond))
    (h : s.monitorCreate d session monitorId version requests (some lastId) = (some reply, s')) :
    (s.create session monitorId version cond lastId).1 = reply := by
  simp only [Backend.monitorCreate, hrequest, Option.isNone_some, Bool.false_eq_true, and_false,
    if_false] at h
  split at h
  · cases h
  · split at h
    · exact Option.some.inj (Prod.mk.inj h).1
    · cases h

/-- **Resuming a monitor.**  A server starts without history and runs through transactions,
    runs of its history and requests of its sessions.  A client has the view of the rows that
    the transaction `lastId` left, and asks for the same tables under the same conditions with
    `lastId` as its last transaction.  If the reply says that it was found, the updates take
    the client to the view of the current rows, and the identifier in the reply is that of the
    transaction that left them. -/
theorem resume_eq_view (d : Doubles) (db : Database) (others : List (Nat × Json))
    (requests : List (String × Json)) (tables : List MonitorTable)
    (cond : Option SessionCondition) (events : List Backend.Event) (session : Nat)
    (monitorId : Json) (lastId : Uuid) (rows : AList (fun _ : RowKey => Row))
    (reply : Backend.CreateReply) (s' : Backend)
    (hschema : ∀ ts ∈ db.schema.tables, ColumnsOk ts.columns)
    (hrows : RowsOk d db.schema db.rows.lookup) (hnames : (requests.map Prod.fst).Nodup)
    (hrequest : monitorRequests d db.schema .v3 requests = .ok (tables, cond))
    (hselect : ∀ mt ∈ tables, mt.select = .all ∧ ∀ c ∈ mt.columns, c.select = .all)
    (hregular : ∀ mt ∈ tables, (tableCondition cond mt.name).new.Regular)
    (hlegal : (Backend.idle db [] tables others).LegalAll d events)
    (hids : (((Backend.idle db [] tables others).states d events).map Prod.fst).Nodup)
    (hlast : (lastId, rows) ∈ (Backend.idle db [] tables others).states d events)
    (hreply : ((Backend.idle db [] tables others).run d events).2.monitorCreate d session monitorId
      .v3 requests (some lastId) = (some reply, s'))
    (hfound : reply.found = true) : let s := ((Backend.idle db [] tables others).run d events).2
    applyUpdates d db.schema
        (view db.schema tables (fun table => (tableCondition cond table).new) rows.lookup)
        reply.updates =
      some (view db.schema tables (fun table => (tableCondition cond table).new)
        s.db.rows.lookup) ∧
    ((Backend.idle db [] tables others).states d events).getLast? =
      some (reply.lastTxnid, s.db.rows) := by
  obtain ⟨hbase, hsome, hcond⟩ := monitorRequests_ok hschema hnames hrequest hselect
  obtain ⟨hrequested, -⟩ := monitorRequests_requested hschema hrequest
  have hmonitored : ∀ mt ∈ tables, ∀ c ∈ mt.columns, c.monitored = true := by
    intro mt hmt c hc
    obtain ⟨ts, -, hmt'⟩ := hrequested mt hmt
    exact hmt'.monitored c hc
  have hrun := (logged_idle hrows hbase).run hschema hbase hmonitored hlegal
  rw [nil_append] at hrun
  generalize (Backend.idle db [] tables others).states d events = log at hrun hids hlast ⊢
  generalize ((Backend.idle db [] tables others).run d events).2 = s at hrun hreply ⊢
  rw [← hrun.schemaEq] at hcond hrequest ⊢
  obtain ⟨-, hlastTxnid, htakes⟩ := hrun.shared.create hrun.history leftBy_zero session
    monitorId (fun _ => (by decide : MonitorVersion.v3 ≠ .v1)) hcond lastId
  rw [monitorCreate_some hrequest hreply] at hlastTxnid htakes
  obtain ⟨rows', hne, hleft, hupdates⟩ := htakes hfound hsome hregular
  constructor
  · -- The identifiers are distinct, so the rows are those the client has.
    obtain ⟨r, hr, rfl⟩ := hleft hne
    have hsame := inj_on_of_nodup_map hids hr hlast rfl
    rw [(Prod.mk.inj hsame).2] at hupdates
    exact hupdates
  · have hlog := hrun.last
    cases hnode : s.history.getLast? with
    | none =>
      rw [hnode, Option.map_none, getLast?_eq_none_iff] at hlog
      rw [hlog] at hlast
      cases hlast
    | some node =>
      rw [hlog, hnode, hlastTxnid, getLastTxnid, hnode]
      rfl

end

/-! ## 5. Ports -/

namespace Backend

/-- The rows that the transaction that adds the ports leaves. -/
def portRows : AList (fun _ : RowKey => Row) := applyChanges ∅ addPorts

/-- The ports are changed while the client is away. -/
def awayEvents : List Event :=
  [.commit 7 addPorts, .historyRun, .commit 8 changePorts, .sessionRun 0 none]

def afterChanges : Backend :=
  ((idle { schema := portSchema } [] [portTable] []).run noDoubles awayEvents).2

/-- A client that has the names of the ports before they are changed gets the changes when it
    resumes. -/
theorem resume_ports :
    ∃ reply s', afterChanges.monitorCreate noDoubles 1 (.string "ports") .v3 (portsWhere true) (some 7) =
        (some reply, s') ∧
      reply.found = true ∧ reply.updates ≠ [] ∧
      applyUpdates noDoubles portSchema (Ovsdb.view portSchema [portTable]
          (fun table => (tableCondition (some (whereConstant true)) table).new) portRows.lookup)
          reply.updates =
        some (Ovsdb.view portSchema [portTable]
          (fun table => (tableCondition (some (whereConstant true)) table).new)
          afterChanges.db.rows.lookup) := by
  have hlegal : (idle { schema := portSchema } [] [portTable] []).LegalAll noDoubles awayEvents :=
    ⟨addPorts_valid fun _ => rfl, trivial, changePorts_valid rfl rfl, trivial, trivial⟩
  refine ⟨_, _, rfl, rfl, by decide, ?_⟩
  exact (resume_eq_view noDoubles { schema := portSchema } [] (portsWhere true) [portTable]
    (some (whereConstant true)) awayEvents 1 (.string "ports") 7 portRows _ _ portColumns_ok
    (by rintro _ _ ⟨⟩) (by decide) rfl (forall_mem_singleton.mpr ⟨rfl, by simp [portTable]⟩)
    (forall_mem_singleton.mpr (regular_constant true)) hlegal (by decide) mem_cons_self rfl rfl).1

/-- A transaction before a port is added. -/
def laterPort : List Event := .commit 7 [] :: addPort

/-- A condition with two times `false` and one time `true` is not recognized as true: the
    client is not sent a port that was added while it was away. -/
theorem resume_misses_port : ∃ tables cond reply s',
      monitorRequests noDoubles portSchema .v3 anyPort = .ok (tables, cond) ∧
      ((idle { schema := portSchema } [] tables []).run noDoubles laterPort).2.monitorCreate noDoubles 1
        (.string "ports") .v3 anyPort (some 7) = (some reply, s') ∧ reply.found = true ∧
      (applyUpdates noDoubles portSchema (Ovsdb.view portSchema tables
          (fun table => (tableCondition cond table).new)
          (∅ : AList fun _ : RowKey => Row).lookup) reply.updates).map
        (fun replica => (replica ⟨"Port", 5⟩).isSome) = some false ∧
      (Ovsdb.view portSchema tables (fun table => (tableCondition cond table).new)
        ((idle { schema := portSchema } [] tables []).run noDoubles laterPort).2.db.rows.lookup
        ⟨"Port", 5⟩).isSome = true := by
  refine ⟨_, _, _, _, rfl, rfl, rfl, ?_, ?_⟩
  · decide
  · decide

end Backend

end Ovsgw.Ovsdb
