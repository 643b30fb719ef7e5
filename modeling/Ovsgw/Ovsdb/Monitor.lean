/-
  **Monitors** (`ovsdb/monitor.c`): the tables and columns that clients monitor, the change sets
  that collect what transactions change, and the updates that are composed from them.

  A pointer to a change set is its number here, and the random UUID of a change set is
  the same number.  A hash map of tables is a list in some order.
-/
import Ovsgw.Ovsdb.Condition
import Ovsgw.Ovsdb.DatumDiff
import Ovsgw.Ovsdb.Transaction

namespace Ovsgw.Ovsdb

/-! ## 1. Monitored tables -/

inductive UpdateType where
  | none | initial | insert | delete | modify
deriving DecidableEq

structure Select where
  initial : Bool := false
  insert : Bool := false
  delete : Bool := false
  modify : Bool := false
deriving DecidableEq

def Select.has (select : Select) : UpdateType → Bool
  | .none => false
  | .initial => select.initial
  | .insert => select.insert
  | .delete => select.delete
  | .modify => select.modify

def Select.or (a b : Select) : Select :=
  ⟨a.initial || b.initial, a.insert || b.insert, a.delete || b.delete, a.modify || b.modify⟩

/-- `struct ovsdb_monitor_column`, with the index of the column in its table. -/
structure MonitorColumn where
  index : Nat
  column : Column
  select : Select
  monitored : Bool

structure MonitorTable where
  name : String
  select : Select := {}
  columns : List MonitorColumn := []

namespace MonitorTable

def nMonitoredColumns (mt : MonitorTable) : Nat := mt.columns.countP MonitorColumn.monitored

def indexMap (mt : MonitorTable) (index : Nat) : Option Nat :=
  mt.columns.findIdx? fun c => c.index == index

/-- `ovsdb_monitor_add_column`; the error is the name of a column that is there already. -/
def addColumn (mt : MonitorTable) (index : Nat) (column : Column) (select : Select)
    (monitored : Bool) : Except String MonitorTable :=
  if (mt.indexMap index).isSome then .error column.name
  else
    .ok { mt with select := mt.select.or select
                  columns := mt.columns ++ [{ index, column, select, monitored }] }

def addConditionColumn (mt : MonitorTable) (column : Nat × Column) : MonitorTable :=
  match mt.addColumn column.1 column.2 {} false with
  | .ok mt => mt
  | .error _ => mt

def addConditionColumns (mt : MonitorTable) (cond : Condition) : MonitorTable :=
  cond.getColumns.foldl addConditionColumn mt

def cloneRow (mt : MonitorTable) (row : Row) (nColumns : Nat) : List Datum :=
  (mt.columns.take nColumns).map fun c => row.datum c.index

def updateRow (mt : MonitorTable) (row : Row) (data : List Datum) (nColumns : Nat) : List Datum :=
  (mt.columns.take nColumns).zipIdx.map fun (c, i) =>
    let src := row.datum c.index
    let dst := data.getD i []
    if src.equals dst c.column.type then dst else src

end MonitorTable

/-- The data of a row: by the position of a column among the monitored ones, and by
    its index in the table, for conditions. -/
structure RowData where
  datum : Nat → Datum
  field : Nat → Datum

/-- A row of the database as `OVSDB_ROW`. -/
def MonitorTable.rowData (mt : MonitorTable) (row : Row) : RowData where
  datum i := (mt.columns[i]?).elim [] fun c => row.datum c.index
  field := row.datum

/-- A row of a change set as `OVSDB_MONITOR_ROW`.  A column that the row was recorded without has
    no data; the source reads past the end of the array. -/
def MonitorTable.monitorRowData (mt : MonitorTable) (data : List Datum) : RowData where
  datum i := data.getD i []
  field index := (mt.indexMap index).elim [] fun i => data.getD i []

/-! ## 2. Conditions of a session -/

structure TableCondition where
  table : String
  old : Condition := {}
  new : Condition := {}

structure SessionCondition where
  conditional : Bool := false
  tables : List TableCondition := []

def updateFirst {α : Type} (p : α → Bool) (f : α → α) : List α → List α
  | [] => []
  | a :: l => if p a then f a :: l else a :: updateFirst p f l

namespace SessionCondition

def find (cond : SessionCondition) (table : String) : Option TableCondition :=
  cond.tables.find? fun mtc => mtc.table == table

def setMode (cond : SessionCondition) : SessionCondition :=
  { cond with conditional := cond.tables.any fun mtc => !mtc.new.isTrue }

def modify (cond : SessionCondition) (table : String) (f : TableCondition → TableCondition) :
    SessionCondition :=
  { cond with tables := updateFirst (fun mtc => mtc.table == table) f cond.tables }

def create (cond : SessionCondition) (d : Doubles) (ts : TableSchema) (json : Option (List Json)) :
    Except OvsdbError SessionCondition := do
  let condition ← (json.elim (.ok {}) fun elems => conditionFromJson d ts elems)
  let mtc := { table := ts.name, old := condition, new := condition }
  return { cond with tables := mtc :: cond.tables }.setMode

def updated (cond : SessionCondition) (table : String) : SessionCondition :=
  match cond.find table with
  | none => cond
  | some mtc =>
    if mtc.old.cmp3way mtc.new ≠ .eq then
      (cond.modify table fun mtc => { mtc with old := mtc.new }).setMode
    else cond

end SessionCondition

def getTableConditions (mt : MonitorTable) (cond : Option SessionCondition) :
    Option TableCondition :=
  cond.bind fun cond => cond.find mt.name

/-! ## 3. Updates of rows -/

/-- `<row-update>` and `<row-update2>`: the columns by their names. -/
inductive RowUpdate where
  | initial (columns : List (String × Json))
  | insert (columns : List (String × Json))
  | modify (columns : List (String × Json))
  | delete
  | change (old new : Option (List (String × Json)))

def rowUpdateType (initial old new : Bool) : UpdateType :=
  if initial then .initial else if !old then .insert else if !new then .delete else .modify

/-- What becomes of an update when the old row satisfies the old condition or not, and the
    new row the new one. -/
def conditionalType (type : UpdateType) (oldCond newCond : Bool) : UpdateType :=
  match if !oldCond && !newCond then .none else type with
  | .initial => if newCond then .initial else .none
  | .insert => if newCond then .insert else .none
  | .modify => if !oldCond then .insert else if !newCond then .delete else .modify
  | .delete => if oldCond then .delete else .none
  | .none => .none

def rowUpdateTypeCondition (mt : MonitorTable) (cond : Option SessionCondition) (initial : Bool)
    (old new : Option RowData) : UpdateType :=
  let type := rowUpdateType initial old.isSome new.isSome
  match getTableConditions mt cond with
  | none => type
  | some mtc =>
    conditionalType type (old.elim false fun row => mtc.old.emptyOrMatchAny row.field)
      (new.elim false fun row => mtc.new.emptyOrMatchAny row.field)

/-- The columns that `ovsdb_monitor_row_skip_update` finds changed. -/
def MonitorTable.changedColumns (mt : MonitorTable) (old new : RowData) (nColumns : Nat) :
    List Nat :=
  (List.range nColumns).filter fun i =>
    (mt.columns[i]?).elim false fun c => !(old.datum i).equals (new.datum i) c.column.type

/-- `ovsdb_monitor_row_skip_update`: nothing if the update is skipped, and else the
    columns that are changed. -/
def rowSkipUpdate (mt : MonitorTable) (old new : RowData) (type : UpdateType) (nColumns : Nat) :
    Option (List Nat) :=
  if !mt.select.has type then none
  else if type = .modify then
    let changed := mt.changedColumns old new nColumns
    if changed = [] then none else some changed
  else some []

/-- The loop over the monitored columns: `f` says what is sent for a column. -/
def composeColumns (mt : MonitorTable) (type : UpdateType)
    (f : Nat → MonitorColumn → Option Datum) : List (String × Json) :=
  (mt.columns.take mt.nMonitoredColumns).zipIdx.filterMap fun (c, i) =>
    if !c.monitored || !c.select.has type then none
    else (f i c).map fun datum => (c.column.name, datum.toJson c.column.type)

def noRow : RowData := ⟨fun _ => [], fun _ => []⟩

/-- The columns of a new row that differ from the defaults. -/
def insertedColumns (mt : MonitorTable) (type : UpdateType) (new : RowData) :
    List (String × Json) :=
  composeColumns mt type fun i c =>
    if (new.datum i).isDefault c.column.type then none else some (new.datum i)

/-- The differences of the columns that are changed. -/
def modifiedColumns (mt : MonitorTable) (old new : RowData) (changed : List Nat) :
    List (String × Json) :=
  composeColumns mt .modify fun i c =>
    if i ∈ changed then some ((old.datum i).diff (new.datum i) c.column.type) else none

/-- The part of `ovsdb_monitor_compose_row_update2` that follows when the kind of the update
    is known. -/
def composeTypedUpdate (mt : MonitorTable) (type : UpdateType) (old new : RowData)
    (nColumns : Nat) : Option RowUpdate :=
  (rowSkipUpdate mt old new type nColumns).map fun changed =>
    match type with
    | .delete => .delete
    | .modify => .modify (modifiedColumns mt old new changed)
    | .initial => .initial (insertedColumns mt .initial new)
    | type => .insert (insertedColumns mt type new)

def composeRowUpdate2 (mt : MonitorTable) (cond : Option SessionCondition) (initial : Bool)
    (old new : Option RowData) (nColumns : Nat) : Option RowUpdate :=
  composeTypedUpdate mt (rowUpdateTypeCondition mt cond initial old new) (old.getD noRow)
    (new.getD noRow) nColumns

def composeRowUpdate (mt : MonitorTable) (initial : Bool) (old new : Option RowData) :
    Option RowUpdate :=
  let type := rowUpdateType initial old.isSome new.isSome
  let old := old.getD noRow
  let new := new.getD noRow
  (rowSkipUpdate mt old new type mt.columns.length).map fun changed =>
    .change
      (if type = .delete ∨ type = .modify then
        some (composeColumns mt type fun i _ =>
          if type = .delete ∨ i ∈ changed then some (old.datum i) else none)
      else none)
      (if type = .delete then none
      else some (composeColumns mt type fun i _ => some (new.datum i)))

/-! ## 4. Change sets -/

/-- A row that a transaction changes, as `ovsdb_txn_for_each_change` reports it.
    `changed` has the indexes of the bits that are set. -/
structure Change where
  key : RowKey
  old : Option Row
  new : Option Row
  changed : List Nat

/-- `struct ovsdb_monitor_row`, without the UUID under which it is stored. -/
structure MonitorRow where
  old : Option (List Datum)
  new : Option (List Datum)

structure TableChanges where
  table : String
  nColumns : Nat
  rows : AList (fun _ : Uuid => MonitorRow) := ∅

structure ChangeSet where
  id : Nat
  tables : List TableChanges
  nRefs : Nat := 1
  prevTxn : Uuid

inductive MonitorVersion where
  | v1 | v2 | v3
deriving DecidableEq

structure TableUpdates where
  table : String
  rows : List (Uuid × RowUpdate)

structure CacheNode where
  version : MonitorVersion
  changeSet : Nat
  json : List TableUpdates

/-- `struct ovsdb_monitor`.  `nextId` numbers the change sets. -/
structure Dbmon where
  tables : List MonitorTable := []
  changeSets : List ChangeSet := []
  newChangeSet : Option Nat := none
  initChangeSet : Option Nat := none
  jsonCache : List CacheNode := []
  nextId : Nat := 0

/-- `struct ovsdb_txn_history_node`: the identifier and the changes of a transaction. -/
structure HistoryNode where
  txnid : Uuid
  changes : List Change

def getLastTxnid (history : List HistoryNode) : Uuid :=
  (history.getLast?).elim 0 HistoryNode.txnid

/-- `ovsdb_monitor_changes_update` for the row with the UUID `uuid`. -/
def changesUpdate (mt : MonitorTable) (uuid : Uuid) (old new : Option Row)
    (changes : TableChanges) : TableChanges :=
  let n := changes.nColumns
  match changes.rows.lookup uuid with
  | none =>
    let row := ⟨old.map (mt.cloneRow · n), new.map (mt.cloneRow · n)⟩
    { changes with rows := changes.rows.insert uuid row }
  | some change =>
    match new with
    | some row =>
      let data := change.new.elim (mt.cloneRow row n) fun data => mt.updateRow row data n
      { changes with rows := changes.rows.insert uuid { change with new := some data } }
    | none =>
      -- A row that was added and then deleted is forgotten.
      if change.old.isNone then { changes with rows := changes.rows.erase uuid }
      else { changes with rows := changes.rows.insert uuid { change with new := none } }

inductive Efficacy where
  | noEffect | internalUpdate | externalUpdate
deriving DecidableEq

def Efficacy.max : Efficacy → Efficacy → Efficacy
  | .noEffect, b => b
  | .internalUpdate, .noEffect => .internalUpdate
  | .internalUpdate, b => b
  | .externalUpdate, _ => .externalUpdate

def MonitorTable.columnsChanged (mt : MonitorTable) (changed : List Nat) : Bool :=
  mt.columns.any fun c => changed.contains c.index

def changesClassify (mt : MonitorTable) (type : UpdateType) (changed : List Nat) : Efficacy :=
  if type = .modify ∧ !mt.columnsChanged changed then .noEffect
  else
    -- A condition may turn a modification into an insertion or a deletion.
    let selected :=
      if type = .modify then mt.select.modify || mt.select.insert || mt.select.delete
      else mt.select.has type
    if selected then .externalUpdate else .internalUpdate

def Change.efficacy (change : Change) (mt : MonitorTable) : Efficacy :=
  changesClassify mt (rowUpdateType false change.old.isSome change.new.isSome) change.changed

/-- What a change set notes of a change in the monitored table `mt`. -/
def ChangeSet.note (mt : MonitorTable) (change : Change) (mcs : ChangeSet) : ChangeSet :=
  { mcs with
    tables := mcs.tables.map fun mcst =>
      if mcst.table = mt.name then changesUpdate mt change.key.uuid change.old change.new mcst
      else mcst }

namespace Dbmon

def table? (dbmon : Dbmon) (name : String) : Option MonitorTable :=
  dbmon.tables.find? fun mt => mt.name == name

def changeSet? (dbmon : Dbmon) (id : Nat) : Option ChangeSet :=
  dbmon.changeSets.find? fun mcs => mcs.id == id

def cacheSearch (dbmon : Dbmon) (version : MonitorVersion) (id : Nat) : Option CacheNode :=
  dbmon.jsonCache.find? fun node => node.changeSet == id && node.version == version

def modifyTable (dbmon : Dbmon) (name : String) (f : MonitorTable → MonitorTable) : Dbmon :=
  { dbmon with tables := updateFirst (fun mt => mt.name == name) f dbmon.tables }

/-- `ovsdb_monitor_change_cb`, with the efficacy so far. -/
def changeCb (state : Dbmon × Efficacy) (change : Change) : Dbmon × Efficacy :=
  let (dbmon, efficacy) := state
  match dbmon.table? change.key.table with
  | none => state
  | some mt =>
    let effect := change.efficacy mt
    (if effect = .noEffect then dbmon
     else { dbmon with changeSets := dbmon.changeSets.map (ChangeSet.note mt change) },
     efficacy.max effect)

def commit (dbmon : Dbmon) (changes : List Change) : Dbmon :=
  let (dbmon, efficacy) := changes.foldl changeCb (dbmon, .noEffect)
  match efficacy with
  | .noEffect => dbmon
  | .internalUpdate => { dbmon with newChangeSet := none }
  | .externalUpdate => { dbmon with newChangeSet := none, jsonCache := [] }

def addChangeSet (dbmon : Dbmon) (initOnly : Bool) (prevTxn : Uuid) : ChangeSet × Dbmon :=
  let tables := dbmon.tables.filter fun mt => !initOnly || mt.select.initial
  let mcs :=
    { id := dbmon.nextId
      tables := tables.map fun mt => { table := mt.name, nColumns := mt.columns.length }
      prevTxn }
  (mcs, { dbmon with changeSets := dbmon.changeSets ++ [mcs], nextId := dbmon.nextId + 1 })

/-- Whether the monitored tables have as many columns as when a change set was made. -/
def sameColumns (dbmon : Dbmon) (mcs : ChangeSet) : Bool :=
  mcs.tables.all fun mcst =>
    (dbmon.table? mcst.table).all fun mt => mt.columns.length == mcst.nColumns

def findChangeSet (dbmon : Dbmon) (prevTxn : Uuid) : Option ChangeSet :=
  dbmon.changeSets.find? fun mcs => mcs.prevTxn == prevTxn && dbmon.sameColumns mcs

/-- One more or one fewer user of a change set. -/
def setRefs (dbmon : Dbmon) (id : Nat) (nRefs : Nat) : Dbmon :=
  { dbmon with
    changeSets := updateFirst (fun mcs => mcs.id == id) (fun mcs => { mcs with nRefs })
      dbmon.changeSets }

def untrackChangeSet (dbmon : Dbmon) (mcs : ChangeSet) : Dbmon :=
  if mcs.nRefs ≤ 1 then
    { dbmon with
      changeSets := dbmon.changeSets.filter fun other => other.id != mcs.id
      initChangeSet := if dbmon.initChangeSet = some mcs.id then none else dbmon.initChangeSet
      newChangeSet := if dbmon.initChangeSet ≠ some mcs.id ∧ dbmon.newChangeSet = some mcs.id
        then none else dbmon.newChangeSet
      jsonCache := dbmon.jsonCache.filter fun node => node.changeSet != mcs.id }
  else dbmon.setRefs mcs.id (mcs.nRefs - 1)

/-- `ovsdb_monitor_track_new_change_set`, with the number of the change set. -/
def trackNewChangeSet (dbmon : Dbmon) (lastTxnid : Uuid) : Nat × Dbmon :=
  match dbmon.newChangeSet.bind dbmon.changeSet? with
  | some mcs => (mcs.id, dbmon.setRefs mcs.id (mcs.nRefs + 1))
  | none =>
    let (mcs, dbmon) := dbmon.addChangeSet false lastTxnid
    (mcs.id, { dbmon with newChangeSet := some mcs.id })

def tableRows (rows : AList (fun _ : RowKey => Row)) (table : String) : List (Uuid × Row) :=
  rows.entries.filterMap fun entry =>
    if entry.1.table = table then some (entry.1.uuid, entry.2) else none

/-- The loop of `ovsdb_monitor_get_initial` over the rows of a table. -/
def initialChanges (dbmon : Dbmon) (db : Database) (mcst : TableChanges) : TableChanges :=
  match dbmon.table? mcst.table with
  | none => mcst
  | some mt =>
    if mt.select.initial then
      (tableRows db.rows mt.name).foldl (fun mcst (uuid, row) =>
        changesUpdate mt uuid none (some row) mcst) mcst
    else mcst

/-- `ovsdb_monitor_get_initial`, with the number of the change set. -/
def getInitial (dbmon : Dbmon) (db : Database) : Nat × Dbmon :=
  match dbmon.initChangeSet.bind dbmon.changeSet? with
  | some mcs => (mcs.id, dbmon.setRefs mcs.id (mcs.nRefs + 1))
  | none =>
    let (mcs, added) := dbmon.addChangeSet true 0
    let mcs := { mcs with tables := mcs.tables.map (dbmon.initialChanges db) }
    (mcs.id, { added with changeSets := dbmon.changeSets ++ [mcs], initChangeSet := some mcs.id })

def historyChangeCb (dbmon : Dbmon) (mcs : ChangeSet) (change : Change) : ChangeSet :=
  match dbmon.table? change.key.table with
  | none => mcs
  | some mt => if change.efficacy mt = .noEffect then mcs else mcs.note mt change

/-- `ovsdb_monitor_get_changes_after`, with the number of the change set if there is one. -/
def getChangesAfter (dbmon : Dbmon) (history : List HistoryNode) (txnid : Uuid) :
    Option Nat × Dbmon :=
  match dbmon.findChangeSet txnid with
  | some mcs => (some mcs.id, dbmon.setRefs mcs.id (mcs.nRefs + 1))
  | none =>
    match history.dropWhile fun node => node.txnid != txnid with
    | [] => (none, dbmon)
    | _ :: nodes =>
      let (mcs, added) := dbmon.addChangeSet false txnid
      let mcs := (nodes.flatMap HistoryNode.changes).foldl dbmon.historyChangeCb mcs
      (some mcs.id, { added with changeSets := dbmon.changeSets ++ [mcs] })

/-! ## 5. Composing updates -/

/-- The updates of a table, or nothing if no row has one. -/
def tableUpdates (table : String) (rows : List (Uuid × RowUpdate)) : Option TableUpdates :=
  if rows.isEmpty then none else some { table, rows }

def rowUpdate (version : MonitorVersion) (mt : MonitorTable) (cond : Option SessionCondition)
    (initial : Bool) (nColumns : Nat) (row : MonitorRow) : Option RowUpdate :=
  let old := row.old.map mt.monitorRowData
  let new := row.new.map mt.monitorRowData
  match version with
  | .v1 => composeRowUpdate mt initial old new
  | .v2 | .v3 => composeRowUpdate2 mt cond initial old new nColumns

def composeTable (version : MonitorVersion) (mt : MonitorTable) (cond : Option SessionCondition)
    (initial : Bool) (mcst : TableChanges) : List (Uuid × RowUpdate) :=
  mcst.rows.entries.filterMap fun entry =>
    (rowUpdate version mt cond initial mcst.nColumns entry.2).map fun update => (entry.1, update)

def composeUpdate (dbmon : Dbmon) (version : MonitorVersion) (initial : Bool) (mcs : ChangeSet)
    (cond : Option SessionCondition) : List TableUpdates :=
  mcs.tables.filterMap fun mcst =>
    (dbmon.table? mcst.table).bind fun mt =>
      tableUpdates mt.name (composeTable version mt cond initial mcst)

/-- The updates of the rows of a table whose condition changes. -/
def composeCondChangeTable (db : Database) (cond : SessionCondition) (mt : MonitorTable) :
    List (Uuid × RowUpdate) :=
  (tableRows db.rows mt.name).filterMap fun (uuid, row) =>
    let data := some (mt.rowData row)
    (composeRowUpdate2 mt (some cond) false data data mt.columns.length).map fun update =>
      (uuid, update)

/-- One iteration of `ovsdb_monitor_compose_cond_change_update`, for a session that has
    conditions. -/
def condChangeTable (db : Database) (state : List TableUpdates × SessionCondition)
    (mt : MonitorTable) : List TableUpdates × SessionCondition :=
  match state.2.find mt.name with
  | none => state
  | some mtc =>
    if mtc.old.cmp3way mtc.new = .eq then state
    else
      (state.1 ++ (tableUpdates mt.name (composeCondChangeTable db state.2 mt)).toList,
        state.2.updated mt.name)

def composeCondChangeUpdate (dbmon : Dbmon) (db : Database) (cond : Option SessionCondition) :
    List TableUpdates × Option SessionCondition :=
  match cond with
  | none => ([], none)
  | some cond =>
    let (updates, cond) := dbmon.tables.foldl (condChangeTable db) ([], cond)
    (updates, some cond)

/-- Whether a session's updates may come from the cache. -/
def isConditional (cond : Option SessionCondition) : Bool :=
  cond.elim false SessionCondition.conditional

/-- The updates that `ovsdb_monitor_get_update` sends, with the conditions and the cache
    after it. -/
def composeOrSearch (dbmon : Dbmon) (db : Database) (initial condUpdated : Bool)
    (cond : Option SessionCondition) (version : MonitorVersion) (mcs : ChangeSet) :
    List TableUpdates × Option SessionCondition × Dbmon :=
  let node :=
    if cond.isNone || (!isConditional cond && !condUpdated) then dbmon.cacheSearch version mcs.id
    else none
  match node with
  | some node => (node.json, cond, dbmon)
  | none =>
    if version = .v1 then (dbmon.composeUpdate .v1 initial mcs cond, cond, dbmon)
    else if condUpdated then
      let (updates, cond) := dbmon.composeCondChangeUpdate db cond
      (updates, cond, dbmon)
    else
      let json := dbmon.composeUpdate version initial mcs cond
      if isConditional cond then (json, cond, dbmon)
      else
        let cached := ⟨version, mcs.id, json⟩ :: dbmon.jsonCache
        (json, cond, { dbmon with jsonCache := cached })

/-- `ovsdb_monitor_get_update` for the change set `mcs`: the updates, the conditions of
    the session, the number of the change set that it tracks afterwards, and the monitor. -/
def getUpdate (dbmon : Dbmon) (db : Database) (lastTxnid : Uuid) (initial condUpdated : Bool)
    (cond : Option SessionCondition) (version : MonitorVersion) (mcs : ChangeSet) :
    List TableUpdates × Option SessionCondition × Nat × Dbmon :=
  let (updates, cond, dbmon) := dbmon.composeOrSearch db initial condUpdated cond version mcs
  let (id, dbmon) := (dbmon.untrackChangeSet mcs).trackNewChangeSet lastTxnid
  (updates, cond, id, dbmon)

def needsFlush (dbmon : Dbmon) (id : Nat) : Bool := dbmon.newChangeSet != some id

end Dbmon

end Ovsgw.Ovsdb
