/-
  **Monitors of sessions** (`ovsdb/jsonrpc-server.c`): the requests that create a monitor
  and change its conditions, and the updates that a session is sent.

  Monitors that ask for the same columns of the same tables share one `struct
  ovsdb_monitor`, whichever session they belong to.  The state below has the database,
  one such structure, and the monitors that share it.
-/
import Ovsgw.Ovsdb.Monitor

namespace Ovsgw.Ovsdb

/-! ## 1. Creating monitors -/

def parseBool (name : String) (default : Bool) : Parse Bool := do
  return Json.boolD (← ovsdbParserMember name { types := [.true, .false], optional := true }) default

def selectFromJson (ts : TableSchema) (json : Json) : Except OvsdbError Select :=
  ovsdbParse ("table " ++ ts.name ++ " select") json do
    let initial ← parseBool "initial" true
    let insert ← parseBool "insert" true
    let delete ← parseBool "delete" true
    let modify ← parseBool "modify" true
    return { initial, insert, delete, modify }

def Select.all : Select := ⟨true, true, true, true⟩

/-- The loop over the names in the member `columns` of a monitor request. -/
def addNamedColumns (ts : TableSchema) (columns : Json) (select : Select) :
    List Json → MonitorTable → Except OvsdbError MonitorTable
  | [], mt => .ok mt
  | .string s :: elems, mt =>
    match ts.getColumn s with
    | none => .error (ovsdbSyntaxError (some columns) (s ++ " is not a valid column name"))
    | some (index, column) =>
      match mt.addColumn index column select true with
      | .ok mt => addNamedColumns ts columns select elems mt
      | .error name =>
        .error (ovsdbSyntaxError (some columns) ("column " ++ name ++ " mentioned more than once"))
  | _ :: _, _ => .error (ovsdbSyntaxError (some columns) "array of column names expected")

def addAllColumns (select : Select) :
    List (Column × Nat) → MonitorTable → Except OvsdbError MonitorTable
  | [], mt => .ok mt
  | (column, index) :: columns, mt =>
    if index = 0 then addAllColumns select columns mt
    else
      match mt.addColumn index column select true with
      | .ok mt => addAllColumns select columns mt
      | .error name =>
        .error (ovsdbSyntaxError none ("column " ++ name ++ " mentioned more than once"))

/-- The members of a monitor request; `where` is only read for a session with conditions. -/
def monitorRequestMembers (conditional : Bool) :
    Parse (Option Json × Option Json × Option Json) := do
  let array : ParserTypes := { types := [.array], optional := true }
  let condition ← if conditional then ovsdbParserMember "where" array else pure none
  let columns ← ovsdbParserMember "columns" array
  let select ← ovsdbParserMember "select" { types := [.object], optional := true }
  return (condition, columns, select)

def parseMonitorRequest (d : Doubles) (ts : TableSchema)
    (state : MonitorTable × Option SessionCondition) (json : Json) :
    Except OvsdbError (MonitorTable × Option SessionCondition) := do
  let (mt, cond) := state
  let (condition, columns, selectJson) ←
    ovsdbParse ("table " ++ ts.name) json (monitorRequestMembers cond.isSome)
  let select ← (selectJson.elim (.ok .all) fun json => selectFromJson ts json)
  let mt := { mt with select := mt.select.or select }
  let mt ← match columns with
    | some columns => addNamedColumns ts columns select (Json.elemsD (some columns)) mt
    | none => addAllColumns select ts.columns.zipIdx mt
  let cond ← match cond with
    | none => .ok none
    | some cond => do
      let cond ← cond.create d ts (condition.map fun json => Json.elemsD (some json))
      .ok (some cond)
  return (mt, cond)

def parseTableRequests (d : Doubles) (ts : TableSchema) (json : Json)
    (cond : Option SessionCondition) :
    Except OvsdbError (MonitorTable × Option SessionCondition) :=
  let requests := match json with
    | .array elems => elems
    | json => [json]
  requests.foldlM (parseMonitorRequest d ts) ({ name := ts.name }, cond)

/-- The loop of `ovsdb_jsonrpc_monitor_create` over the tables. -/
def parseRequests (d : Doubles) (schema : Schema) :
    List (String × Json) → List MonitorTable × Option SessionCondition →
      Except OvsdbError (List MonitorTable × Option SessionCondition)
  | [], state => .ok state
  | (name, json) :: requests, (tables, cond) =>
    match schema.table? name with
    | none => .error (ovsdbSyntaxError none ("no table named " ++ name))
    | some ts => do
      let (mt, cond) ← parseTableRequests d ts json cond
      parseRequests d schema requests (tables ++ [mt], cond)

/-- `ovsdb_monitor_columns_sort`.  The source sorts by the addresses of the columns; here
    the order is that of their indexes. -/
def MonitorTable.sortColumns (mt : MonitorTable) : MonitorTable :=
  { mt with columns := mt.columns.insertionSort fun a b => a.index ≤ b.index }

/-- The condition of a new monitor: monitors of the first version have none. -/
def newCondition (version : MonitorVersion) : Option SessionCondition :=
  if version = .v1 then none else some {}

/-- The monitored tables and the conditions that a create request asks for. -/
def monitorRequests (d : Doubles) (schema : Schema) (version : MonitorVersion)
    (requests : List (String × Json)) :
    Except OvsdbError (List MonitorTable × Option SessionCondition) := do
  let (tables, cond) ← parseRequests d schema requests ([], newCondition version)
  return (tables.map MonitorTable.sortColumns, cond)

def Dbmon.conditionBind (dbmon : Dbmon) (cond : SessionCondition) : Dbmon :=
  cond.tables.foldl (fun dbmon mtc =>
    dbmon.modifyTable mtc.table fun mt => mt.addConditionColumns mtc.new) dbmon

/-! ## 2. Monitors that share a backend -/

structure JsonrpcMonitor where
  session : Nat
  monitorId : Json
  version : MonitorVersion
  condition : Option SessionCondition
  changeSet : Nat

/-- The database, a `struct ovsdb_monitor` and the monitors that use it.  `others` has
    the sessions and the identifiers of the monitors that use another one. -/
structure Backend where
  db : Database
  history : List HistoryNode := []
  dbmon : Dbmon
  monitors : List JsonrpcMonitor := []
  others : List (Nat × Json) := []

namespace Backend

def applyChanges (rows : AList (fun _ : RowKey => Row)) (changes : List Change) :
    AList (fun _ : RowKey => Row) :=
  changes.foldl (fun rows change =>
    match change.new with
    | some row => rows.insert change.key row
    | none => rows.erase change.key) rows

/-- `ovsdb_txn_replay_commit` after the checks, and `ovsdb_txn_complete`: the history and
    the monitors see the changes of a transaction. -/
def commit (s : Backend) (txnid : Uuid) (changes : List Change) : Backend :=
  { s with
    db := { s.db with rows := applyChanges s.db.rows changes }
    history := s.history ++ [{ txnid, changes }]
    dbmon := s.dbmon.commit changes }

def historyRun (s : Backend) : Backend :=
  { s with history := s.history.drop (s.history.length - 100) }

def getUpdate (s : Backend) (m : JsonrpcMonitor) (initial condUpdated : Bool) :
    List TableUpdates × JsonrpcMonitor × Dbmon :=
  match s.dbmon.changeSet? m.changeSet with
  | none => ([], m, s.dbmon)
  | some mcs =>
    let (updates, condition, changeSet, dbmon) :=
      s.dbmon.getUpdate s.db (getLastTxnid s.history) initial condUpdated m.condition m.version mcs
    (updates, { m with condition, changeSet }, dbmon)

def composeUpdate (s : Backend) (m : JsonrpcMonitor) (initial : Bool) :
    List TableUpdates × JsonrpcMonitor × Dbmon :=
  if s.dbmon.needsFlush m.changeSet then s.getUpdate m initial false
  else ([], m, s.dbmon)

/-- `ovsdb_jsonrpc_monitor_flush_all` for one monitor, which is at the position `i`. -/
def flush (s : Backend) (i : Nat) : List TableUpdates × Backend :=
  match s.monitors[i]? with
  | none => ([], s)
  | some m =>
    let (updates, m, dbmon) := s.composeUpdate m false
    (updates, { s with dbmon, monitors := s.monitors.set i m })

/-- What a create request is answered with. -/
structure CreateReply where
  found : Bool
  lastTxnid : Uuid
  updates : List TableUpdates

/-- The end of `ovsdb_jsonrpc_monitor_create`, when the requests are parsed and the
    `struct ovsdb_monitor` is known.  `lastId` is the last identifier of the client. -/
def create (s : Backend) (session : Nat) (monitorId : Json) (version : MonitorVersion)
    (condition : Option SessionCondition) (lastId : Uuid) : CreateReply × Backend :=
  let dbmon := condition.elim s.dbmon s.dbmon.conditionBind
  let (changeSet, dbmon) :=
    if version = .v3 ∧ lastId ≠ 0 then dbmon.getChangesAfter s.history lastId else (none, dbmon)
  let initial := changeSet.isNone
  let (changeSet, dbmon) := match changeSet with
    | some changeSet => (changeSet, dbmon)
    | none => dbmon.getInitial s.db
  let (updates, m, dbmon) :=
    { s with dbmon }.composeUpdate { session, monitorId, version, condition, changeSet } initial
  ({ found := !initial, lastTxnid := getLastTxnid s.history, updates },
    { s with dbmon, monitors := s.monitors ++ [m] })

/-- A `struct ovsdb_monitor` without users, as it is created again by the next request. -/
def freshDbmon (dbmon : Dbmon) : Dbmon :=
  { tables := dbmon.tables.map fun mt =>
      { mt with columns := mt.columns.filter MonitorColumn.monitored } }

/-- A create request is refused for its last identifier when its condition is bound already. -/
def refuse (s : Backend) (condition : Option SessionCondition) : Backend :=
  let dbmon := condition.elim s.dbmon s.dbmon.conditionBind
  { s with dbmon := if s.monitors.isEmpty then freshDbmon dbmon else dbmon }

/-- `ovsdb_jsonrpc_monitor_destroy` for the monitor at the position `i`. -/
def destroy (s : Backend) (i : Nat) : Backend :=
  match s.monitors[i]? with
  | none => s
  | some m =>
    let monitors := s.monitors.eraseIdx i
    let dbmon := (s.dbmon.changeSet? m.changeSet).elim s.dbmon s.dbmon.untrackChangeSet
    { s with monitors, dbmon := if monitors.isEmpty then freshDbmon dbmon else dbmon }

end Backend

/-! ## 3. Changing conditions -/

/-- What `ovsdb_jsonrpc_monitor_cond_change` changes while it parses the request. -/
structure CondState where
  condition : Option SessionCondition
  dbmon : Dbmon

/-- The handler ends early with a reply, or the server stops at a null pointer. -/
inductive CondFailure where
  | reply (error : OvsdbError)
  | crash

/-- A step of the handler keeps its state when it fails: nothing is taken back. -/
abbrev CondM := EStateM CondFailure CondState

def tableConditionUpdate (d : Doubles) (ts : TableSchema) (elems : Option (List Json)) :
    CondM Unit := do
  let s ← get
  match s.condition with
  | none => return ()
  | some cond =>
    match elems with
    -- The source reads the array of a null pointer.
    | none => throw .crash
    | some elems =>
      match conditionFromJson d ts elems with
      | .error error => throw (.reply error)
      | .ok condition =>
        match cond.find ts.name with
        -- Likewise for a table that was monitored with an empty array of requests.
        | none => throw .crash
        | some _ =>
          set { condition := some (cond.modify ts.name fun mtc => { mtc with new := condition })
                dbmon := s.dbmon.modifyTable ts.name fun mt => mt.addConditionColumns condition
                : CondState }

def condChangeMembers : Parse (Option Json × Option Json) := do
  let columns ← ovsdbParserMember "columns" { types := [.array], optional := true }
  let condition ← ovsdbParserMember "where" { types := [.array], optional := true }
  return (columns, condition)

def parseCondChangeRequest (d : Doubles) (ts : TableSchema) (json : Json) : CondM Unit := do
  match ovsdbParse ("table " ++ ts.name) json condChangeMembers with
  | .error error => throw (.reply error)
  | .ok (columns, condition) =>
    if columns.isSome then
      throw (.reply (ovsdbSyntaxError (some json) "changing columns is unsupported"))
    else tableConditionUpdate d ts (condition.map fun json => Json.elemsD (some json))

def condChangeTableRequests (d : Doubles) (schema : Schema) (name : String) (json : Json) :
    CondM Unit := do
  match schema.table? name with
  | none => throw (.reply (ovsdbSyntaxError none ("no table named " ++ name)))
  | some ts =>
    if ((← get).dbmon.table? name).isNone then
      throw (.reply (ovsdbSyntaxError none ("no table named " ++ name ++ " in monitor session")))
    else
      match json with
      | .array elems => elems.forM (parseCondChangeRequest d ts)
      | _ =>
        throw (.reply
          (ovsdbSyntaxError none ("table " ++ name ++ " no monitor-cond-change JSON array")))

/-- The loop of `ovsdb_jsonrpc_monitor_cond_change` over the tables. -/
def condChangeRequests (d : Doubles) (schema : Schema) (requests : List (String × Json)) :
    CondM Unit :=
  requests.forM fun (name, json) => condChangeTableRequests d schema name json

namespace Backend

/-- `ovsdb_jsonrpc_monitor_find`: the position of a monitor of a session. -/
def findMonitor (s : Backend) (session : Nat) (id : Json) : Option Nat :=
  s.monitors.findIdx? fun m => m.session == session && jsonEqual m.monitorId id

/-- Whether a session has a monitor with an identifier, here or elsewhere. -/
def hasMonitor (s : Backend) (session : Nat) (id : Json) : Bool :=
  (s.findMonitor session id).isSome ||
    s.others.any fun other => other.1 == session && jsonEqual other.2 id

/-- What a condition change request is answered with: an error, or the updates that the
    monitor is sent before an empty reply. -/
abbrev CondChangeReply := Except CondFailure (List TableUpdates)

/-- A server that stops comes up again with the rows, but without sessions and history. -/
def restarted (s : Backend) : Backend := { db := s.db, dbmon := freshDbmon s.dbmon }

/-- The part of `ovsdb_jsonrpc_monitor_cond_change` for the monitor `m` at the position
    `i`, which gets the identifier `newId`. -/
def condChange (s : Backend) (d : Doubles) (i : Nat) (m : JsonrpcMonitor) (newId : Json)
    (requests : List (String × Json)) : CondChangeReply × Backend :=
  match (condChangeRequests d s.db.schema requests).run ⟨m.condition, s.dbmon⟩ with
  | .error .crash _ => (.error .crash, s.restarted)
  | .error (.reply error) state =>
    let m := { m with condition := state.condition }
    (.error (.reply error), { s with dbmon := state.dbmon, monitors := s.monitors.set i m })
  | .ok _ state =>
    let m := { m with condition := state.condition, monitorId := newId }
    let (updates, m, dbmon) := { s with dbmon := state.dbmon }.getUpdate m false true
    (.ok updates, { s with dbmon, monitors := s.monitors.set i m })

def monitorCondChange (s : Backend) (d : Doubles) (session : Nat) (params : List Json) :
    CondChangeReply × Backend :=
  match params with
  | [id, newId, requests] =>
    match s.findMonitor session id with
    | none => (.error (.reply (ovsdbSyntaxError (some id) "unknown monitor session")), s)
    | some i =>
      match s.monitors[i]? with
      | none => (.error (.reply (ovsdbSyntaxError (some id) "unknown monitor session")), s)
      | some m =>
        if !jsonEqual m.monitorId newId && s.hasMonitor session newId then
          (.error (.reply (ovsdbSyntaxError (some newId) "duplicate monitor ID")), s)
        else
          let newId := if jsonEqual m.monitorId newId then m.monitorId else newId
          match requests with
          | .object requests => s.condChange d i m newId requests
          | _ =>
            (.error (.reply (ovsdbSyntaxError none "monitor-cond-change-requests must be object")), s)
  | params => (.error (.reply (ovsdbSyntaxError (some (.array params)) "invalid parameters")), s)

/-! ## 4. Runs -/

/-- `ovsdb_jsonrpc_monitor_flush_all`: the updates for each monitor of a session. -/
def flushSession (s : Backend) (session : Nat) : List (List TableUpdates) × Backend :=
  (List.range s.monitors.length).foldl (fun (sent, s) i =>
    if (s.monitors[i]?).any fun m => m.session == session then
      let (updates, s) := s.flush i
      (sent ++ [updates], s)
    else (sent, s)) ([], s)

/-- `ovsdb_monitor_table_equal` and `ovsdb_monitor_equal`. -/
def sameMonitored (a b : List MonitorTable) : Bool :=
  a.length == b.length && a.all fun mta => (b.find? (·.name == mta.name)).any fun mtb =>
    mta.select == mtb.select && mta.nMonitoredColumns == mtb.nMonitoredColumns &&
      ((mta.columns.zip mtb.columns).take mta.nMonitoredColumns).all fun (c, c') =>
        c.index == c'.index && c.select == c'.select

/-- A create request, if it asks for what is monitored here.  `lastId` is none if it is not a
    string with a UUID. -/
def monitorCreate (s : Backend) (d : Doubles) (session : Nat) (monitorId : Json)
    (version : MonitorVersion) (requests : List (String × Json)) (lastId : Option Uuid) :
    Option CreateReply × Backend :=
  if s.hasMonitor session monitorId then (none, s)
  else
    match monitorRequests d s.db.schema version requests with
    | .error _ => (none, s)
    | .ok (tables, condition) =>
      if sameMonitored s.dbmon.tables tables then
        if version = .v3 ∧ lastId.isNone then (none, s.refuse condition)
        else
          let (reply, s) := s.create session monitorId version condition (lastId.getD 0)
          (some reply, s)
      else (none, { s with others := s.others ++ [(session, monitorId)] })

inductive Request where
  | create (monitorId : Json) (version : MonitorVersion) (requests : List (String × Json))
      (lastId : Option Uuid)
  | condChange (params : List Json)
  | cancel (monitorId : Json)

/-- What happens to the server. -/
inductive Event where
  | commit (txnid : Uuid) (changes : List Change)
  | historyRun
  | sessionRun (session : Nat) (request : Option Request)

/-- A request, with the updates that it makes the server send. -/
def receive (s : Backend) (d : Doubles) (session : Nat) :
    Request → List (List TableUpdates) × Backend
  | .create monitorId version requests lastId =>
    let (reply, s) := s.monitorCreate d session monitorId version requests lastId
    ((reply.map CreateReply.updates).toList, s)
  | .condChange params =>
    match s.monitorCondChange d session params with
    | (.ok updates, s) => ([updates], s)
    | (.error _, s) => ([], s)
  | .cancel monitorId => ([], (s.findMonitor session monitorId).elim s s.destroy)

def step (s : Backend) (d : Doubles) : Event → List (Nat × List TableUpdates) × Backend
  | .commit txnid changes => ([], s.commit txnid changes)
  | .historyRun => ([], s.historyRun)
  | .sessionRun session request =>
    let (flushed, s) := s.flushSession session
    let (sent, s) := request.elim ([], s) (s.receive d session)
    ((flushed ++ sent).map fun updates => (session, updates), s)

def run (d : Doubles) : Backend → List Event → List (Nat × List TableUpdates) × Backend
  | s, [] => ([], s)
  | s, event :: events =>
    let (sent, s) := s.step d event
    let (later, s) := s.run d events
    (sent ++ later, s)

end Backend

end Ovsgw.Ovsdb
