/-
  **The client of a monitor** (`lib/ovsdb-idl.c`): a copy of the monitored part of the
  database that `<row-update2>` objects keep up to date.

  The tables and columns of the client are those of the schema.  A row that is only
  referred to ("orphan row") counts as a row that is not there, as it does in every
  branch of `ovsdb_idl_process_update2`.
-/
import Ovsgw.Lib.NetChange
import Ovsgw.Ovsdb.ConditionSpec
import Ovsgw.Ovsdb.Monitor

namespace Ovsgw.Ovsdb

/-! ## 1. Applying updates -/

/-- The data of a row of the client by the indexes of the columns. -/
abbrev ClientRow := Nat → Datum

abbrev Replica := RowKey → Option ClientRow

def defaultRow (columns : List Column) : ClientRow := fun index =>
  (columns[index]?).elim [] fun column => column.type.default

/-- The new datum of a column in `ovsdb_idl_row_change__`. -/
def columnValue (d : Doubles) (applyDiff : Bool) (type : OvsdbType) (old : Datum) (json : Json) :
    Except OvsdbError Datum :=
  if applyDiff then do
    let diff ← transientDatumFromJson d type json
    old.applyDiff diff type
  else datumFromJson d type json

/-- One iteration of `ovsdb_idl_row_change__`. -/
def changeColumn (d : Doubles) (ts : TableSchema) (applyDiff : Bool) (row : ClientRow)
    (member : String × Json) : ClientRow :=
  match ts.getColumn member.1 with
  | none => row
  | some (index, column) =>
    match columnValue d applyDiff column.type (row index) member.2 with
    | .error _ => row
    | .ok datum =>
      if (row index).equals datum column.type then row else Function.update row index datum

def rowChange (d : Doubles) (ts : TableSchema) (applyDiff : Bool) (row : ClientRow)
    (members : List (String × Json)) : ClientRow :=
  members.foldl (changeColumn d ts applyDiff) row

/-- `ovsdb_idl_process_update2`: the row afterwards, or nothing if the client finds itself
    inconsistent with the server. -/
def processUpdate2 (d : Doubles) (ts : TableSchema) (row : Option ClientRow) :
    RowUpdate → Option (Option ClientRow)
  | .delete => if row.isSome then some none else none
  | .insert columns | .initial columns =>
    if row.isNone then some (some (rowChange d ts false (defaultRow ts.columns) columns)) else none
  | .modify columns => row.map fun row => some (rowChange d ts true row columns)
  -- Not an operation of `<row-update2>`.
  | .change _ _ => some row

def rowUpdates (updates : List TableUpdates) : List (RowKey × RowUpdate) :=
  updates.flatMap fun table => table.rows.map fun (uuid, update) => (⟨table.table, uuid⟩, update)

def applyRowUpdate (d : Doubles) (schema : Schema) (replica : Replica)
    (update : RowKey × RowUpdate) : Option Replica :=
  match schema.table? update.1.table with
  | none => some replica
  | some ts =>
    (processUpdate2 d ts (replica update.1) update.2).map fun row =>
      Function.update replica update.1 row

/-- `ovsdb_idl_db_parse_update__` for `<table-updates2>`. -/
def applyUpdates (d : Doubles) (schema : Schema) (replica : Replica)
    (updates : List TableUpdates) : Option Replica :=
  (rowUpdates updates).foldlM (applyRowUpdate d schema) replica

/-! ## 2. What the client should have -/

instance (cond : Condition) (fields : Nat → Datum) : Decidable (cond.Holds fields) :=
  inferInstanceAs (Decidable (_ ∨ _))

def MonitorTable.monitors (mt : MonitorTable) (index : Nat) : Bool :=
  mt.columns.any fun c => c.monitored && c.index == index

/-- The monitored columns of a row, and the defaults of the others. -/
def clientRow (columns : List Column) (mt : MonitorTable) (row : Row) : ClientRow := fun index =>
  if mt.monitors index then row.datum index else defaultRow columns index

/-- The row of the client for a row of the database: there is one if the row satisfies
    the condition. -/
def viewRow (columns : List Column) (mt : MonitorTable) (cond : Condition) (row : Option Row) :
    Option ClientRow :=
  row.bind fun row => if cond.Holds row.datum then some (clientRow columns mt row) else none

/-- The rows of the monitored tables that satisfy the conditions. -/
def view (schema : Schema) (tables : List MonitorTable) (conds : String → Condition)
    (rows : RowKey → Option Row) : Replica := fun k =>
  (tables.find? fun mt => mt.name == k.table).bind fun mt =>
    viewRow (schema.columns k.table) mt (conds k.table) (rows k)

end Ovsgw.Ovsdb
