/-
  **A client that applies what it is sent has the rows that satisfy its conditions.**

  One session has one monitor.  Transactions are committed, the session runs and is sent
  the updates that are due, and now and then it changes its conditions.  After each run of
  the session the client has the view of the database under the current conditions.
-/
import Ovsgw.Ovsdb.MonitorCreate
import Ovsgw.Ovsdb.MonitorRequests
import Ovsgw.Ovsdb.UpdateSpec

namespace Ovsgw.Ovsdb

open EState List

/-! ## 1. A session that is served -/

/-- The state of a server with one monitor, whose client has the view of the rows `start`. -/
structure Served (d : Doubles) (s : Backend) (m : JsonrpcMonitor) (mcs : ChangeSet)
    (start : RowKey → Option Row) : Prop where
  monitors : s.monitors = [m]
  subscribed : Subscribed s.db.schema s.dbmon.tables m
  isSome : m.condition.isSome = true
  regular : ∀ mt ∈ s.dbmon.tables, (tableCondition m.condition mt.name).new.Regular
  changeSets : s.dbmon.changeSets = [mcs]
  changeSet : m.changeSet = mcs.id
  nRefs : mcs.nRefs = 1
  cache : s.dbmon.jsonCache = []
  init : s.dbmon.initChangeSet = none
  ok : s.dbmon.Ok d s.db.schema (fun _ _ => True) (fun _ => start) s.db.rows.lookup
  condOk : CondOk d s.db.schema s.dbmon.tables mcs m.condition

variable {id : Nat} {prevTxn : Uuid}

section
variable {d : Doubles} {schema : Schema} {dbmon : Dbmon} {tables : List MonitorTable}
  {cond : Option SessionCondition} {now : RowKey → Option Row}

/-- A monitor with one change set, which has no rows yet. -/
def Dbmon.fresh (tables : List MonitorTable) (id : Nat) (prevTxn : Uuid) : Dbmon where
  tables
  changeSets := [emptyChangeSet tables id prevTxn]
  newChangeSet := some id
  nextId := id + 1

theorem idle_ok {left : Uuid → (RowKey → Option Row) → Prop} {starts : Nat → RowKey → Option Row}
    (htables : TablesOk schema tables) (hnow : RowsOk d schema now) :
    ({ tables, nextId := id } : Dbmon).Ok d schema left starts now where
  tables := htables
  rows := hnow
  ids := nodup_nil
  idLt _ h := by cases h
  starts _ h := by cases h
  prevTxn _ h := by cases h
  tracks _ h := by cases h
  newLt _ h := by cases h
  fresh _ h := by cases h
  cacheLt _ h := by cases h
  cache _ h := by cases h

theorem fresh_ok (htables : TablesOk schema tables) (hnow : RowsOk d schema now) :
    (Dbmon.fresh tables id prevTxn).Ok d schema (fun _ _ => True) (fun _ => now) now := by
  have hidle : ({ tables, nextId := id } : Dbmon).Ok d schema (fun _ _ => True) (fun _ => now) now :=
    idle_ok htables hnow
  have hnew := hidle.addNew prevTxn trivial
  rwa [Function.update_eq_self id fun _ => now] at hnew

variable {m : JsonrpcMonitor}

section

variable (hm : Subscribed schema tables m)
  (hregular : ∀ mt ∈ tables, (tableCondition m.condition mt.name).new.Regular)
include hm hregular

theorem Subscribed.condOk_of_columns {mcs : ChangeSet}
    (hcolumns : ∀ mcst ∈ mcs.tables, ∀ mt ∈ tables, mcst.table = mt.name →
      mcst.nColumns = mt.columns.length) : CondOk d schema tables mcs m.condition := by
  constructor
  · exact hm.settled
  · intro mcst hmcst mt hmt hname
    rw [hcolumns mcst hmcst mt hmt hname]
    obtain ⟨ts, hts, hok, -⟩ := hm.conds.tablesOk.table mt hmt
    have hnew := hm.conds.new mt hmt
    rw [columns_eq hts] at hnew ⊢
    exact (hm.conds.covers mt hmt).sees hok hnew (hregular mt hmt)

theorem Subscribed.condOk (id : Nat) (prevTxn : Uuid) :
    CondOk d schema tables (emptyChangeSet tables id prevTxn) m.condition := by
  apply hm.condOk_of_columns hregular
  intro mcst hmcst mt hmt hname
  rw [mem_emptyChangeSet hm.conds.tablesOk hmcst hmt hname]

end

theorem served_fresh {db : Database} (history : List HistoryNode) (others : List (Nat × Json))
    (hm : Subscribed db.schema tables m) (hsome : m.condition.isSome = true)
    (hregular : ∀ mt ∈ tables, (tableCondition m.condition mt.name).new.Regular)
    (hrows : RowsOk d db.schema db.rows.lookup) (prevTxn : Uuid) : Served d
      { db, history, others, monitors := [m], dbmon := Dbmon.fresh tables m.changeSet prevTxn } m
      (emptyChangeSet tables m.changeSet prevTxn) db.rows.lookup where
  monitors := rfl
  subscribed := hm
  isSome := hsome
  regular := hregular
  changeSets := rfl
  changeSet := rfl
  nRefs := rfl
  cache := rfl
  init := rfl
  ok := fresh_ok hm.conds.tablesOk hrows
  condOk := hm.condOk hregular m.changeSet prevTxn

theorem retrack_eq (dbmon : Dbmon) {mcs : ChangeSet} (htables : TablesOk schema dbmon.tables)
    (hchangeSets : dbmon.changeSets = [mcs]) (hnRefs : mcs.nRefs = 1)
    (hcache : ∀ node ∈ dbmon.jsonCache, node.changeSet = mcs.id)
    (hinit : dbmon.initChangeSet = none ∨ dbmon.initChangeSet = some mcs.id) (lastTxnid : Uuid) :
    (dbmon.untrackChangeSet mcs).trackNewChangeSet lastTxnid =
      (dbmon.nextId, Dbmon.fresh dbmon.tables dbmon.nextId lastTxnid) := by
  have hcleared : dbmon.jsonCache.filter (fun node => node.changeSet != mcs.id) = [] := by
    rw [filter_eq_nil_iff]
    intro node hnode
    simp [hcache node hnode]
  have hfilter : [mcs].filter (fun other => other.id != mcs.id) = [] := by simp
  have hinit' : (if dbmon.initChangeSet = some mcs.id then none else dbmon.initChangeSet) =
      none := by
    rcases hinit with hinit | hinit <;> simp [hinit]
  rw [Dbmon.untrackChangeSet, if_pos hnRefs.le, hcleared, hchangeSets, hfilter, hinit']
  generalize (if dbmon.initChangeSet ≠ some mcs.id ∧ dbmon.newChangeSet = some mcs.id then none
    else dbmon.newChangeSet) = newChangeSet
  rw [Dbmon.trackNewChangeSet, addChangeSet_eq (by exact htables)]
  cases newChangeSet <;> rfl

end

/-! ## 2. Transactions -/

section
variable {d : Doubles} {s : Backend} {m : JsonrpcMonitor} {mcs : ChangeSet}
  {start : RowKey → Option Row} {dbmon : Dbmon} {mcst' : TableChanges}

theorem historyChangeCb_columns {change : Change}
    (h : mcst' ∈ (dbmon.historyChangeCb mcs change).tables) :
    ∃ mcst ∈ mcs.tables, mcst'.table = mcst.table ∧ mcst'.nColumns = mcst.nColumns := by
  rw [Dbmon.historyChangeCb] at h
  split at h
  · exact ⟨mcst', h, rfl, rfl⟩
  · split at h
    · exact ⟨mcst', h, rfl, rfl⟩
    · obtain ⟨mcst, hmcst, rfl⟩ := mem_map.mp h
      refine ⟨mcst, hmcst, ?_⟩
      split
      · exact changesUpdate_frame
      · exact ⟨rfl, rfl⟩

variable {changes : List Change}

theorem foldl_historyChangeCb_columns (h : mcst' ∈ (changes.foldl dbmon.historyChangeCb mcs).tables) :
    ∃ mcst ∈ mcs.tables, mcst'.table = mcst.table ∧ mcst'.nColumns = mcst.nColumns := by
  induction changes generalizing mcs with
  | nil => exact ⟨mcst', h, rfl, rfl⟩
  | cons change changes ih =>
    obtain ⟨mcst, hmcst, htable, hn⟩ := ih h
    obtain ⟨mcst0, hmcst0, htable0, hn0⟩ := historyChangeCb_columns hmcst
    exact ⟨mcst0, hmcst0, htable.trans htable0, hn.trans hn0⟩

variable {schema : Schema} {cond : Option SessionCondition}

theorem CondOk.historyChangeCb (h : CondOk d schema dbmon.tables mcs cond) :
    CondOk d schema dbmon.tables (changes.foldl dbmon.historyChangeCb mcs) cond := by
  constructor
  · exact h.settled
  · intro mcst' hmcst' mt hmt hname
    obtain ⟨mcst, hmcst, htable, hn⟩ := foldl_historyChangeCb_columns hmcst'
    rw [hn]
    exact h.sees mcst hmcst mt hmt (htable ▸ hname)

theorem foldl_historyChangeCb_nRefs :
    (changes.foldl dbmon.historyChangeCb mcs).nRefs = mcs.nRefs := by
  obtain ⟨_, heq⟩ := foldl_historyChangeCb_eq dbmon changes mcs
  rw [heq]

/-! ## 3. Updates -/

variable {version : MonitorVersion}

theorem composeUpdate_of_fresh {initial : Bool} (h : ∀ mcst ∈ mcs.tables, mcst.rows = ∅) :
    dbmon.composeUpdate version initial mcs cond = [] := by
  rw [Dbmon.composeUpdate, filterMap_eq_nil_iff]
  intro mcst hmcst
  have hrows : mcst.rows.entries = [] := by
    rw [h mcst hmcst]
    rfl
  cases dbmon.table? mcst.table with
  | none => rfl
  | some mt =>
    rw [Option.bind_some, Dbmon.composeTable, hrows]
    rfl

/-- The rows that the client should have. -/
abbrev Backend.view (s : Backend) (m : JsonrpcMonitor) (rows : RowKey → Option Row) : Replica :=
  condView s.db.schema s.dbmon.tables m.condition rows

theorem changeSet?_singleton (h : dbmon.changeSets = [mcs]) :
    dbmon.changeSet? mcs.id = some mcs := by
  rw [Dbmon.changeSet?, h]
  simp

variable {left : Uuid → (RowKey → Option Row) → Prop} {starts : Nat → RowKey → Option Row}

theorem getUpdate_sole (initial : Bool)
    (hok : s.dbmon.Ok d s.db.schema left starts s.db.rows.lookup)
    (hm : Subscribed s.db.schema s.dbmon.tables m) (hsome : m.condition.isSome = true)
    (hchangeSets : s.dbmon.changeSets = [mcs]) (hid : m.changeSet = mcs.id) (hnRefs : mcs.nRefs = 1)
    (hcache : s.dbmon.jsonCache = [])
    (hinit : s.dbmon.initChangeSet = none ∨ s.dbmon.initChangeSet = some mcs.id)
    (hcondOk : CondOk d s.db.schema s.dbmon.tables mcs m.condition)
    (hinitial : initial = true → starts mcs.id = fun _ => none) :
    ∃ updates, s.getUpdate m initial false = (updates, { m with changeSet := s.dbmon.nextId },
          Dbmon.fresh s.dbmon.tables s.dbmon.nextId (getLastTxnid s.history)) ∧
      applyUpdates d s.db.schema (s.view m (starts mcs.id)) updates =
        some (s.view m s.db.rows.lookup) := by
  have hmem : mcs ∈ s.dbmon.changeSets := by
    rw [hchangeSets]
    exact mem_singleton_self mcs
  obtain ⟨hcond, -, ⟨jsonCache, hdbmon, hnodes⟩, htakes⟩ :=
    composeOrSearch_spec m.version hok hmem hm.mode hm.settled hinitial s.db
  have hretrack := retrack_eq { s.dbmon with jsonCache } hok.tables hchangeSets hnRefs
    (fun node hnode => by
      rcases hnodes node hnode with hnode | hnode
      · rw [hcache] at hnode
        cases hnode
      · exact hnode) hinit (getLastTxnid s.history)
  have hfind : s.dbmon.changeSet? m.changeSet = some mcs := by
    rw [hid]
    exact changeSet?_singleton hchangeSets
  refine ⟨_, ?_, htakes (hm.version hsome) hcondOk⟩
  simp only [Backend.getUpdate, hfind, Dbmon.getUpdate]
  rw [hcond, hdbmon, hretrack]

variable {tables : List MonitorTable}

theorem view_congr {conds conds' : String → Condition}
    (h : ∀ mt ∈ tables, conds mt.name = conds' mt.name) {rows : RowKey → Option Row} :
    view schema tables conds rows = view schema tables conds' rows := by
  funext k
  rw [view, view]
  cases hfind : tables.find? fun mt => mt.name == k.table with
  | none => rfl
  | some mt =>
    obtain ⟨hmt, hname⟩ := Lists.find?_beq hfind
    rw [← hname, h mt hmt]

def Backend.Regular (s : Backend) : Prop :=
  ∀ m ∈ s.monitors, ∀ mt ∈ s.dbmon.tables, (tableCondition m.condition mt.name).new.Regular

variable {i : Nat} {newId : Json} {requests : List (String × Json)} {updates : List TableUpdates}
  {db : Database}

/-- A request for new conditions that succeeds. -/
theorem condChange_ok (hconds : CondsOk s.db.schema s.dbmon.tables m.condition) {s' : Backend}
    (hreply : s.condChange d i m newId requests = (.ok updates, s')) :
    ∃ condition tables, CondState.Ok s.db.schema ⟨condition, { s.dbmon with tables }⟩ ∧
      CondState.Follows ⟨m.condition, s.dbmon⟩ ⟨condition, { s.dbmon with tables }⟩ ∧
      let r := ({ s with dbmon := { s.dbmon with tables } } : Backend).getUpdate
        { m with condition, monitorId := newId } false true
      updates = r.1 ∧ s' = { s with dbmon := r.2.2, monitors := s.monitors.set i r.2.1 } := by
  have hensures := condChangeRequests_ensures (d := d) (s := ⟨m.condition, s.dbmon⟩) hconds requests
  unfold Backend.condChange EStateM.run at hreply
  unfold Ensures at hensures
  cases hrun : condChangeRequests d s.db.schema requests ⟨m.condition, s.dbmon⟩ with
  | error error state =>
    rw [hrun] at hreply
    cases error <;> cases hreply
  | ok _ state =>
    rw [hrun] at hreply hensures
    obtain ⟨condition, dbmon'⟩ := state
    obtain ⟨tables, rfl⟩ : ∃ tables, dbmon' = { s.dbmon with tables } := ⟨_, hensures.2.dbmon⟩
    obtain ⟨hupdates, rfl⟩ := Prod.mk.inj hreply
    exact ⟨condition, tables, hensures.1, hensures.2, (Except.ok.inj hupdates).symm, rfl⟩

/-! ## 4. Steps of the session -/

section

variable (h : Served d s m mcs start)
include h

theorem Served.commit (txnid : Uuid)
    (hvalid : ValidChanges d s.db.schema s.db.rows.lookup changes) :
    ∃ mcs', Served d (s.commit txnid changes) m mcs' start ∧
      (s.commit txnid changes).dbmon.tables = s.dbmon.tables := by
  have hok := h.ok.commit hvalid
  rw [← applyChanges_lookup] at hok
  rcases Dbmon.commit_eq h.ok.tables with heq | ⟨-, heq⟩
  · rw [heq] at hok
    rw [Backend.commit, heq]
    refine ⟨changes.foldl s.dbmon.historyChangeCb mcs, ?_, rfl⟩
    constructor
    · exact h.monitors
    · exact h.subscribed
    · exact h.isSome
    · exact h.regular
    · simp only [h.changeSets, map_cons, map_nil]
    · rw [foldl_historyChangeCb_id]
      exact h.changeSet
    · rw [foldl_historyChangeCb_nRefs]
      exact h.nRefs
    · rfl
    · exact h.init
    · exact hok
    · exact h.condOk.historyChangeCb
  · rw [heq] at hok
    rw [Backend.commit, heq]
    exact ⟨mcs, { h with ok := hok }, rfl⟩

theorem Served.mem : mcs ∈ s.dbmon.changeSets := by
  rw [h.changeSets]
  exact mem_singleton_self mcs

theorem Served.view_of_fresh (hfresh : s.dbmon.newChangeSet = some mcs.id) :
    s.view m start = s.view m s.db.rows.lookup := by
  have hinitial : false = true → ∀ k, start k = none := fun h => by cases h
  have htakes := composeUpdate_takes h.ok.tables (h.ok.tracks mcs h.mem) h.condOk
    (h.ok.starts mcs h.mem) h.ok.rows (h.subscribed.version h.isSome) hinitial
  rw [composeUpdate_of_fresh (h.ok.fresh mcs h.mem hfresh)] at htakes
  exact Option.some.inj htakes

theorem Served.flush : ∃ updates s' m' mcs' start', s.flush 0 = (updates, s') ∧
    Served d s' m' mcs' start' ∧
      m' = { m with changeSet := m'.changeSet } ∧ s'.db = s.db ∧
      s'.dbmon.tables = s.dbmon.tables ∧ s'.view m' start' = s'.view m' s'.db.rows.lookup ∧
      applyUpdates d s.db.schema (s.view m start) updates = some (s.view m s.db.rows.lookup) := by
  have hm : s.monitors[0]? = some m := by rw [h.monitors]; rfl
  simp only [Backend.flush, hm, Backend.composeUpdate]
  by_cases hflush : s.dbmon.needsFlush m.changeSet = true
  · obtain ⟨updates, heq, htakes⟩ := getUpdate_sole false h.ok h.subscribed h.isSome
      h.changeSets h.changeSet h.nRefs h.cache (.inl h.init) h.condOk (fun h => by cases h)
    simp only [if_pos hflush, heq]
    have hserved := served_fresh (d := d) s.history s.others
      (m := { m with changeSet := s.dbmon.nextId }) { h.subscribed with } h.isSome h.regular h.ok.rows
      (getLastTxnid s.history)
    rw [h.monitors]
    exact ⟨updates, _, _, _, _, rfl, hserved, rfl, rfl, rfl, rfl, htakes⟩
  · have hfresh : s.dbmon.newChangeSet = some mcs.id := by
      rw [← h.changeSet]
      simpa [Dbmon.needsFlush] using hflush
    simp only [if_neg hflush]
    have hset : s.monitors.set 0 m = s.monitors := by rw [h.monitors]; rfl
    rw [hset]
    have hview := h.view_of_fresh hfresh
    refine ⟨[], s, m, mcs, start, rfl, h, rfl, rfl, rfl, hview, ?_⟩
    rw [hview]
    rfl

theorem Served.getUpdate_condChange (htables : TablesOk s.db.schema tables)
    (cond : SessionCondition) (newId : Json) :
    ({ s with dbmon := { s.dbmon with tables } } : Backend).getUpdate
        { m with condition := some cond, monitorId := newId } false true =
      (tables.filterMap (condChangeUpdates s.db cond),
        { m with
          condition := some (tables.foldl (fun cond mt => cond.updated mt.name) cond)
          monitorId := newId
          changeSet := s.dbmon.nextId },
        Dbmon.fresh tables s.dbmon.nextId (getLastTxnid s.history)) := by
  have hfind : ({ s.dbmon with tables } : Dbmon).changeSet? m.changeSet = some mcs := by
    rw [h.changeSet]
    exact changeSet?_singleton h.changeSets
  have htables' : TablesOk s.db.schema ({ s.dbmon with tables } : Dbmon).tables := htables
  have hretrack := retrack_eq { s.dbmon with tables } htables h.changeSets h.nRefs
    (fun node hnode => by rw [h.cache] at hnode; cases hnode) (.inl h.init) (getLastTxnid s.history)
  simp only [Backend.getUpdate, hfind, Dbmon.getUpdate]
  rw [composeOrSearch_condChange htables' (h.subscribed.version h.isSome)]
  simp only [hretrack]

end

/-! ## 5. The start -/

/-- A server with a database and monitored tables that nobody monitors yet. -/
def Backend.idle (db : Database) (history : List HistoryNode) (tables : List MonitorTable)
    (others : List (Nat × Json)) : Backend where
  db
  history
  dbmon := { tables }
  others

theorem Subscribed.condOk_initial (hm : Subscribed db.schema dbmon.tables m)
    (hregular : ∀ mt ∈ dbmon.tables, (tableCondition m.condition mt.name).new.Regular) :
    CondOk d db.schema dbmon.tables (dbmon.initialChangeSet db id prevTxn) m.condition := by
  apply hm.condOk_of_columns hregular
  intro mcst' hmcst' mt hmt hname
  obtain ⟨mcst, hmcst, rfl⟩ := mem_map.mp hmcst'
  rw [initialChanges_frame.1] at hname
  rw [initialChanges_frame.2, mem_emptyChangeSet hm.conds.tablesOk hmcst hmt hname]

/-- The first reply gives the client the view of the rows. -/
theorem create_served (history : List HistoryNode) {others : List (Nat × Json)}
    {session : Nat} {monitorId : Json} {cond : SessionCondition}
    (hrows : RowsOk d db.schema db.rows.lookup) (htables : TablesOk db.schema tables)
    (hcond : cond.Requested db.schema) (hversion : version ≠ .v1)
    (hregular : ∀ mt ∈ tables, (tableCondition (some cond) mt.name).new.Regular) :
    ∃ reply s m mcs, (Backend.idle db history tables others).create session monitorId version
        (some cond) 0 = (reply, s) ∧ Served d s m mcs s.db.rows.lookup ∧ m.session = session ∧
      s.db = db ∧ TablesExtend tables s.dbmon.tables ∧
      applyUpdates d db.schema (fun _ => none) reply.updates = some (s.view m db.rows.lookup) := by
  obtain ⟨tables', hbind, hextend, hconds, hsettled, hmode⟩ :=
    conditionBind_ok { tables } htables hcond
  have hsubscribed : ∀ id, Subscribed db.schema tables'
      ⟨session, monitorId, version, some cond, id⟩ :=
    fun _ => ⟨fun _ => hversion, hconds, hsettled, hmode⟩
  have hregular' : ∀ mt ∈ tables', (tableCondition (some cond) mt.name).new.Regular :=
    TablesExtend.forall_mem hextend (fun _ _ hname h => hname ▸ h) hregular
  have hidle : ({ tables := tables' } : Dbmon).Ok d db.schema (fun _ _ => True) (fun _ _ => none)
      db.rows.lookup := idle_ok hconds.tablesOk hrows
  obtain ⟨hid, hdbmon, hinitial⟩ := hidle.getInitial rfl trivial
  have hget : ({ tables := tables' } : Dbmon).getInitial db =
      (0, (({ tables := tables' } : Dbmon).getInitial db).2) := Prod.ext hid rfl
  rw [hdbmon] at hinitial hget
  obtain ⟨updates, hupdate, htakes⟩ := getUpdate_sole true
    (s := { db, history, others, dbmon := _ }) (m := ⟨session, monitorId, version, some cond, 0⟩)
    hinitial (hsubscribed 0) rfl rfl rfl rfl rfl (.inr rfl)
    (Subscribed.condOk_initial (hsubscribed 0) hregular')
    (fun _ => Function.update_self _ _ _)
  have hempty : condView db.schema tables' (some cond) (fun _ => none) = fun _ => none := by
    funext k
    rw [condView, view]
    cases tables'.find? fun mt => mt.name == k.table <;> rfl
  have hcreate : (Backend.idle db history tables others).create session monitorId version
      (some cond) 0 = (⟨false, getLastTxnid history, updates⟩,
        { db, history, others, monitors := [⟨session, monitorId, version, some cond, 1⟩],
          dbmon := Dbmon.fresh tables' 1 (getLastTxnid history) }) := by
    simp only [Backend.create, Backend.idle, Option.elim_some, hbind, ne_eq, not_true_eq_false,
      and_false, if_false, hget, Backend.composeUpdate, Option.isNone_none]
    rw [if_pos, hupdate]
    · rfl
    · rfl
  refine ⟨_, _, _, _, hcreate, served_fresh history others (hsubscribed 1) rfl hregular' hrows _,
    rfl, rfl, hextend, ?_⟩
  rw [← hempty]
  exact htakes

end

/-! ## 6. Runs -/

namespace Backend

def Event.flushes : Event → Bool
  | .sessionRun _ _ => true
  | _ => false

/-- An event of a server with one session: a valid transaction, a run of the history, or a
    run of the session with at most an accepted change of its conditions to regular ones. -/
def Accepts (d : Doubles) (session : Nat) (s : Backend) : Event → Prop
  | .commit _ changes => ValidChanges d s.db.schema s.db.rows.lookup changes
  | .historyRun => True
  | .sessionRun session' none => session' = session
  | .sessionRun session' (some (.condChange params)) =>
    session' = session ∧ ∃ updates s',
      (s.flushSession session).2.monitorCondChange d session params = (.ok updates, s') ∧ s'.Regular
  | .sessionRun _ (some _) => False

def AcceptsAll (d : Doubles) (session : Nat) : Backend → List Event → Prop
  | _, [] => True
  | s, event :: events =>
    s.Accepts d session event ∧ (s.step d event).2.AcceptsAll d session events

end Backend

section
variable {d : Doubles} {s : Backend} {m : JsonrpcMonitor} {mcs : ChangeSet}
  {start : RowKey → Option Row} {session : Nat} {s' : Backend} {updates : List TableUpdates}

theorem flushSession_eq (hmonitors : s.monitors = [m]) (hflush : s.flush 0 = (updates, s')) :
    s.flushSession m.session = ([updates], s') := by
  rw [Backend.flushSession, hmonitors]
  simp [range_succ, hmonitors, hflush]

theorem monitorCondChange_ok {params : List Json}
    (h : s.monitorCondChange d session params = (.ok updates, s')) :
    ∃ i m newId requests, s.monitors[i]? = some m ∧
      s.condChange d i m newId requests = (.ok updates, s') := by
  unfold Backend.monitorCondChange at h
  split at h
  next id newId requests =>
    split at h
    · cases h
    next i hi =>
      split at h
      · cases h
      next m hm =>
        split at h
        · cases h
        · dsimp only at h
          split at h
          next members => exact ⟨i, m, _, members, hm, h⟩
          · cases h
  · cases h

section

variable (h : Served d s m mcs start)
include h

/-- The reply takes the client to the view under the new conditions. -/
theorem Served.monitorCondChange {params : List Json}
    (hreply : s.monitorCondChange d session params = (.ok updates, s')) (hregular : s'.Regular) :
    ∃ m' mcs', Served d s' m' mcs' s'.db.rows.lookup ∧ m'.session = m.session ∧ s'.db = s.db ∧
      TablesExtend s.dbmon.tables s'.dbmon.tables ∧
      applyUpdates d s.db.schema (s.view m s.db.rows.lookup) updates =
        some (s'.view m' s'.db.rows.lookup) := by
  obtain ⟨i, m', newId, requests, hm, hcondChange⟩ := monitorCondChange_ok hreply
  rw [h.monitors] at hm
  obtain rfl : m = m' := (mem_singleton.mp (mem_of_getElem? hm)).symm
  obtain rfl : i = 0 := by
    cases i with
    | zero => rfl
    | succ i => cases hm
  obtain ⟨condition, tables, hok, hfollows, hreply⟩ := condChange_ok h.subscribed.conds hcondChange
  obtain ⟨cond, rfl⟩ : ∃ cond, condition = some cond :=
    Option.isSome_iff_exists.mp (hfollows.isSome.trans h.isSome)
  simp only [h.getUpdate_condChange hok.tablesOk cond newId] at hreply
  obtain ⟨rfl, rfl⟩ := hreply
  have hextend : TablesExtend s.dbmon.tables tables := hfollows.tables
  have hsettled := foldl_updated_settled hok.tablesOk hok.old hok.new
  have hmonitors : ∀ m', s.monitors.set 0 m' = [m'] := by
    intro m'
    rw [h.monitors]
    rfl
  rw [hmonitors] at hregular ⊢
  have hnew := fun mt hmt => hregular _ (mem_singleton_self _) mt hmt
  have hsubscribed := h.subscribed.updated hok hfollows newId s.dbmon.nextId
  have hserved := served_fresh (d := d) s.history s.others hsubscribed rfl hnew
    h.ok.rows (getLastTxnid s.history)
  refine ⟨_, _, hserved, rfl, rfl, hextend, ?_⟩
  -- The old conditions are those that the client has rows for.
  have hbefore : s.view m s.db.rows.lookup = view s.db.schema tables
      (fun table => (tableCondition (some cond) table).old) s.db.rows.lookup := by
    rw [hextend.view_eq]
    apply view_congr
    intro mt hmt
    rw [← h.subscribed.settled mt hmt]
    exact (hfollows.old mt.name).symm
  have hafter : condView s.db.schema tables
      (some (tables.foldl (fun cond mt => cond.updated mt.name) cond)) s.db.rows.lookup =
      view s.db.schema tables (fun table => (tableCondition (some cond) table).new)
        s.db.rows.lookup := by
    apply view_congr
    intro mt hmt
    exact (hsettled mt hmt).2
  show _ = some (condView s.db.schema tables
    (some (tables.foldl (fun cond mt => cond.updated mt.name) cond)) s.db.rows.lookup)
  rw [hbefore, hafter]
  apply condChangeUpdates_takes hok.tablesOk _ h.ok.rows
  intro mt' hmt'
  obtain ⟨mt, hmt, hextends⟩ := hextend.exists_mem hmt'
  constructor
  · exact hok.old mt' hmt'
  · exact hok.new mt' hmt'
  · have hold := hfollows.old mt'.name
    rw [hextends.name] at hold ⊢
    rw [hold, h.subscribed.settled mt hmt]
    exact h.regular mt hmt
  · rw [← (hsettled mt' hmt').2]
    exact hnew mt' hmt'

variable (hsession : m.session = session)
include hsession

/-- An event takes the client along with the server. -/
theorem Served.step {event : Backend.Event} (haccepts : s.Accepts d session event) :
    ∃ sent s' m' mcs' start', s.step d event = (sent, s') ∧ Served d s' m' mcs' start' ∧
      m'.session = session ∧ s'.db.schema = s.db.schema ∧
      TablesExtend s.dbmon.tables s'.dbmon.tables ∧
      (sent.map Prod.snd).foldlM (applyUpdates d s.db.schema) (s.view m start) =
        some (s'.view m' start') ∧
      (event.flushes = true → s'.view m' start' = s'.view m' s'.db.rows.lookup) := by
  cases event with
  | commit txnid changes =>
    obtain ⟨mcs', hserved, htables⟩ := h.commit txnid haccepts
    refine ⟨[], _, m, mcs', start, rfl, hserved, hsession, rfl, ?_, ?_, ?_⟩
    · rw [htables]
      exact TablesExtend.refl _
    · show some (s.view m start) = some ((s.commit txnid changes).view m start)
      rw [Backend.view, Backend.view, htables]
      rfl
    · intro hflush
      cases hflush
  | historyRun =>
    refine ⟨[], _, m, mcs, start, rfl, { h with }, hsession, rfl, TablesExtend.refl _, rfl, ?_⟩
    intro hflush
    cases hflush
  | sessionRun session' request =>
    obtain ⟨updates, s1, m1, mcs1, start1, hflush, hserved1, hm1, hdb1, htables1, hview1, htakes1⟩ :=
      h.flush
    have hflushed : s.flushSession session = ([updates], s1) :=
      hsession ▸ flushSession_eq h.monitors hflush
    have hsession1 : m1.session = session := by
      rw [hm1]
      exact hsession
    have hextend1 : TablesExtend s.dbmon.tables s1.dbmon.tables := by
      rw [htables1]
      exact TablesExtend.refl _
    have hview : s.view m s.db.rows.lookup = s1.view m1 s1.db.rows.lookup := by
      rw [Backend.view, Backend.view, hm1, hdb1, htables1]
    rw [hview] at htakes1
    cases request with
    | none =>
      obtain rfl : session' = session := haccepts
      refine ⟨[(session', updates)], s1, m1, mcs1, start1, ?_, hserved1, hsession1, by rw [hdb1],
        hextend1, ?_, fun _ => hview1⟩
      · simp only [Backend.step, hflushed]
        rfl
      · rw [hview1, map_cons, map_nil, foldlM_cons, htakes1]
        rfl
    | some request =>
      cases request with
      | create => exact haccepts.elim
      | cancel => exact haccepts.elim
      | condChange params =>
        obtain ⟨rfl, updates2, s2, hreply, hregular⟩ := haccepts
        rw [hflushed] at hreply
        obtain ⟨m2, mcs2, hserved2, hsession2, hdb2, hextend2, htakes2⟩ :=
          hserved1.monitorCondChange hreply hregular
        refine ⟨[(session', updates), (session', updates2)], s2, m2, mcs2, s2.db.rows.lookup, ?_,
          hserved2, hsession2.trans hsession1, by rw [hdb2, hdb1], hextend1.trans hextend2, ?_,
          fun _ => rfl⟩
        · simp only [Backend.step, hflushed, Option.elim_some, Backend.receive, hreply]
          rfl
        · rw [hdb1] at htakes2
          simp only [map_cons, map_nil, foldlM_cons, foldlM_nil]
          rw [htakes1]
          show (applyUpdates d s.db.schema _ updates2).bind some = _
          rw [hdb1, htakes2]
          rfl

/-- A whole run: the client has the view of the rows at the start of its change set, and
    after a run of the session that of the current rows. -/
theorem Served.run {events : List Backend.Event} (haccepts : s.AcceptsAll d session events)
    (hstart : events = [] → s.view m start = s.view m s.db.rows.lookup)
    (hflush : ∀ event ∈ events.getLast?, event.flushes = true) :
    ∃ m', (s.run d events).2.monitors = [m'] ∧
      ((s.run d events).1.map Prod.snd).foldlM (applyUpdates d s.db.schema) (s.view m start) =
        some (view s.db.schema s.dbmon.tables (fun table => (tableCondition m'.condition table).new)
          (s.run d events).2.db.rows.lookup) := by
  induction events generalizing s m mcs start with
  | nil => exact ⟨m, h.monitors, congrArg some (hstart rfl)⟩
  | cons event events ih =>
    obtain ⟨hfirst, hrest⟩ := haccepts
    obtain ⟨sent, s1, m1, mcs1, start1, hstep, hserved, hsession1, hschema, hextend, htakes, hview⟩ :=
      h.step hsession hfirst
    rw [hstep] at hrest
    have hstart1 : events = [] → s1.view m1 start1 = s1.view m1 s1.db.rows.lookup := by
      rintro rfl
      exact hview (hflush event rfl)
    have hflush1 : ∀ event' ∈ events.getLast?, event'.flushes = true := by
      intro event' hevent'
      apply hflush
      rw [getLast?_cons]
      rw [Option.mem_def] at hevent'
      rw [hevent']
      rfl
    obtain ⟨m', hmonitors, hrun⟩ := ih hserved hsession1 hrest hstart1 hflush1
    refine ⟨m', ?_, ?_⟩
    · simp only [Backend.run, hstep]
      exact hmonitors
    · simp only [Backend.run, hstep, map_append, foldlM_append]
      rw [htakes]
      rw [hschema, hextend.view_eq] at hrun
      exact hrun

end

/-- **The replica of a client.**  A session monitors tables with every kind of update
    selected.  A client that starts empty and applies in order what the session is sent has,
    after each run of the session, the rows that satisfy the current conditions, with the
    current values of the monitored columns. -/
theorem replica_eq_view (d : Doubles) (db : Database) (history : List HistoryNode)
    (others : List (Nat × Json)) (session : Nat) (monitorId : Json) (version : MonitorVersion)
    (requests : List (String × Json)) (tables : List MonitorTable)
    (cond : Option SessionCondition) (events : List Backend.Event)
    (hschema : ∀ ts ∈ db.schema.tables, ColumnsOk ts.columns)
    (hrows : RowsOk d db.schema db.rows.lookup) (hversion : version ≠ .v1)
    (hnames : (requests.map Prod.fst).Nodup)
    (hrequest : monitorRequests d db.schema version requests = .ok (tables, cond))
    (hselect : ∀ mt ∈ tables, mt.select = .all ∧ ∀ c ∈ mt.columns, c.select = .all)
    (hregular : ∀ mt ∈ tables, (tableCondition cond mt.name).new.Regular)
    (haccepts : ((Backend.idle db history tables others).create session monitorId version cond
      0).2.AcceptsAll d session events)
    (hflush : ∀ event ∈ events.getLast?, event.flushes = true) :
    let created := (Backend.idle db history tables others).create session monitorId version cond 0
    let (sent, s) := created.2.run d events
    ∃ m, s.monitors = [m] ∧
      (created.1.updates :: sent.map Prod.snd).foldlM (applyUpdates d db.schema) (fun _ => none) =
        some (view db.schema tables (fun table => (tableCondition m.condition table).new)
          s.db.rows.lookup) := by
  obtain ⟨htables, hsome, hcond⟩ := monitorRequests_ok hschema hnames hrequest hselect
  obtain ⟨c, rfl⟩ : ∃ c, cond = some c := by
    rw [newCondition, if_neg hversion] at hsome
    exact Option.isSome_iff_exists.mp hsome
  obtain ⟨reply, s, m, mcs, hcreate, hserved, hsession, hdb, hextend, htakes⟩ :=
    create_served history hrows htables (hcond c rfl) hversion hregular
  rw [hcreate] at haccepts
  obtain ⟨m', hmonitors, hrun⟩ := hserved.run hsession haccepts (fun _ => rfl) hflush
  simp only [hcreate]
  refine ⟨m', hmonitors, ?_⟩
  rw [foldlM_cons, htakes]
  rw [hdb, TablesExtend.view_eq hextend] at hrun
  exact hrun

end

/-! ## 7. Ports -/

namespace Backend

def portRow (uuid version : Uuid) (name : String) : Row :=
  { fields := [[⟨.uuid uuid, none⟩], [⟨.uuid version, none⟩], [⟨.string name, none⟩]] }

theorem portColumns_ok : ∀ ts ∈ portSchema.tables, ColumnsOk ts.columns := by
  intro ts hts
  obtain rfl := mem_singleton.mp hts
  constructor
  · rfl
  · decide
  · intro column hcolumn
    simp only [mem_cons, not_mem_nil, or_false] at hcolumn
    rcases hcolumn with rfl | rfl | rfl <;> constructor <;> decide

theorem singleton_wellFormed {d : Doubles} {atom : Atom} {key : BaseType} (h : AtomOk d atom key) :
    Datum.WellFormed d { key } [⟨atom, none⟩] where
  low := le_refl 1
  high := le_refl 1
  sorted := pairwise_singleton _ _
  keys e he := by
    rw [mem_singleton.mp he]
    exact h
  values hmap := by cases hmap
  noValues _ e he := by rw [mem_singleton.mp he]

theorem portRow_ok (uuid version : Uuid) {name : String} (hname : name = "p" ∨ name = "q") :
    RowOk noDoubles (portSchema.columns "Port") (portRow uuid version name) := by
  have hcolumns : portSchema.columns "Port" = [uuidColumn, versionColumn, nameColumn] := rfl
  rw [hcolumns]
  constructor
  · intro i column hcolumn
    rcases i with _ | _ | _ | i
    iterate 2
      cases hcolumn
      apply singleton_wellFormed
      exact ⟨rfl, by decide, (by intro _ h; cases h), (by intro _ h; cases h), rfl⟩
    · cases hcolumn
      apply singleton_wellFormed
      rcases hname with rfl | rfl
      all_goals
        exact ⟨rfl, by decide, (by intro _ h; cases h), fun _ h => Atom.string.inj h ▸ by decide,
          by simp [atomCheckConstraints, checkTypeConstraints, checkStringConstraints,
            utf8Validate, Except.map, uintMax]⟩
    · cases hcolumn
  · intro i
    rcases i with _ | _ | _ | i <;> simp [Row.datum, portRow]

/-- The names of ports, under a condition that is a constant. -/
def portsWhere (b : Bool) : List (String × Json) :=
  [("Port", .object [("columns", .array [.string "name"]), ("where", .array [.bool b])])]

def addPorts : List Change :=
  [⟨⟨"Port", 5⟩, none, some (portRow 5 1 "p"), []⟩, ⟨⟨"Port", 6⟩, none, some (portRow 6 1 "q"), []⟩]

/-- One port is renamed, the other one deleted. -/
def changePorts : List Change :=
  [⟨⟨"Port", 5⟩, some (portRow 5 1 "p"), some (portRow 5 2 "q"), [1, 2]⟩,
   ⟨⟨"Port", 6⟩, some (portRow 6 1 "q"), none, []⟩]

/-- The client asks for all ports between the transactions. -/
def portEvents : List Event :=
  [.commit 1 addPorts, .sessionRun 0 none,
   .sessionRun 0 (some (.condChange (portRequest [.object [("where", .array [.bool true])]]))),
   .commit 2 changePorts, .sessionRun 0 none]

def constant (b : Bool) : Condition := { clauses := [booleanClause b] }

theorem regular_constant (b : Bool) : (constant b).Regular := by
  intro _ _
  exact countP_le_length

def whereConstant (b : Bool) : SessionCondition :=
  { conditional := !b, tables := [{ table := "Port", old := constant b, new := constant b }] }

/-- A client that asks for no ports. -/
def askingNone : CreateReply × Backend :=
  (idle { schema := portSchema } [] [portTable] []).create 0 (.string "ports") .v2
    (some (whereConstant false)) 0

theorem addPorts_valid {rows : RowKey → Option Row} (h : ∀ k, rows k = none) :
    ValidChanges noDoubles portSchema rows addPorts := by
  refine ⟨⟨(h _).symm, .inr rfl, ?_, by rintro _ _ ⟨⟩⟩,
    ⟨(h _).symm, .inr rfl, ?_, by rintro _ _ ⟨⟩⟩, trivial⟩
  · rintro _ ⟨⟩
    exact portRow_ok 5 1 (.inl rfl)
  · rintro _ ⟨⟩
    exact portRow_ok 6 1 (.inr rfl)

theorem changePorts_valid {rows : RowKey → Option Row}
    (h : rows ⟨"Port", 5⟩ = some (portRow 5 1 "p"))
    (h' : rows ⟨"Port", 6⟩ = some (portRow 6 1 "q")) :
    ValidChanges noDoubles portSchema rows changePorts := by
  refine ⟨⟨h.symm, .inl rfl, ?_, ?_⟩,
    ⟨h'.symm, .inl rfl, by rintro _ ⟨⟩, by rintro _ _ _ ⟨⟩⟩, trivial⟩
  · rintro _ ⟨⟩
    exact portRow_ok 5 2 (.inr rfl)
  · rintro _ _ ⟨⟩ ⟨⟩ i hi
    rcases i with _ | _ | _ | i
    · rfl
    · simp at hi
    · simp at hi
    · rfl

theorem portEvents_accepted : askingNone.2.AcceptsAll noDoubles 0 portEvents := by
  refine ⟨addPorts_valid fun _ => rfl, rfl, ⟨rfl, _, _, rfl, ?_⟩, changePorts_valid rfl rfl, rfl,
    trivial⟩
  exact forall_mem_singleton.mpr (forall_mem_singleton.mpr (regular_constant true))

/-- A client that asks for no ports first and for all of them later. -/
theorem replica_of_ports : let (sent, s) := askingNone.2.run noDoubles portEvents
    ∃ m, s.monitors = [m] ∧
      (askingNone.1.updates :: sent.map Prod.snd).foldlM (applyUpdates noDoubles portSchema)
          (fun _ => none) =
        some (Ovsdb.view portSchema [portTable] (fun table => (tableCondition m.condition table).new)
          s.db.rows.lookup) := by
  have hreplica := replica_eq_view noDoubles { schema := portSchema } [] [] 0 (.string "ports") .v2
    (portsWhere false) [portTable] (some (whereConstant false)) portEvents portColumns_ok
    (by rintro _ _ ⟨⟩) (by decide) (by decide) rfl
    (forall_mem_singleton.mpr ⟨rfl, by simp [portTable]⟩)
    (forall_mem_singleton.mpr (regular_constant false)) portEvents_accepted
    (by rintro _ ⟨⟩; rfl)
  -- The run is a variable from here on, so that nothing evaluates it.
  dsimp only at hreplica
  rw [← askingNone] at hreplica
  generalize askingNone.2.run noDoubles portEvents = run at hreplica ⊢
  exact hreplica

/-- Ports under a condition that every row satisfies. -/
def anyPort : List (String × Json) :=
  [("Port", .object [("columns", .array [.string "name"]),
    ("where", .array [.bool false, .bool false, .bool true])])]

def onePort : AList (fun _ : RowKey => Row) := AList.insert ⟨"Port", 5⟩ (portRow 5 1 "p") ∅

/-- A condition with two times `false` and one time `true` is not recognized as true: the
    client is not sent a port that satisfies it. -/
theorem replica_misses_port :
    ∃ tables cond, monitorRequests noDoubles portSchema .v2 anyPort = .ok (tables, cond) ∧
      (∃ reply s, (idle { schema := portSchema, rows := onePort } [] tables []).create 0
          (.string "ports") .v2 cond 0 = (reply, s) ∧
        (applyUpdates noDoubles portSchema (fun _ => none) reply.updates).map
          (fun replica => (replica ⟨"Port", 5⟩).isSome) = some false) ∧
      (Ovsdb.view portSchema tables (fun table => (tableCondition cond table).new)
        onePort.lookup ⟨"Port", 5⟩).isSome = true := by
  refine ⟨_, _, rfl, ⟨_, _, rfl, ?_⟩, ?_⟩
  · decide
  · decide

end Backend

end Ovsgw.Ovsdb
