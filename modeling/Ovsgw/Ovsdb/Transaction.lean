/-
  **Transactions** (`ovsdb/transaction.c`, with the parts of `ovsdb/row.c` that it
  uses): changing rows, checking the result and aborting.

  A row is found by its table and its UUID, so the rows of all tables are one association list.
  `txn_row->new` is the row that the table has under the UUID of `txn_row`: the source puts a row
  into the table when it sets `new`, and takes it out when it clears it.  A transaction keeps its
  state when a check fails, since aborting starts from there.
-/
import Ovsgw.Ovsdb.Schema
import Mathlib.Data.List.AList

namespace Ovsgw.Ovsdb

/-! ## 1. Rows -/

structure RowKey where
  table : String
  uuid : Uuid
deriving DecidableEq

/-- `struct ovsdb_row`.  The UUID in the first field is that of the row's key.
    `n_refs` is an integer here: it is a count and does not wrap. -/
structure Row where
  fields : List Datum
  nRefs : Int := 0

def Row.datum (row : Row) (idx : Nat) : Datum := row.fields.getD idx []

/-- `struct ovsdb_weak_ref`: it is in the list `src_refs` of its source and in the
    list `dst_refs` of its destination. -/
structure WeakRef where
  src : RowKey
  dst : RowKey
deriving DecidableEq

/-- The node of a row in an index of its table: the number of the index, the hash
    under which the node is in the hash map, and the columns of the row. -/
structure IndexNode where
  key : RowKey
  index : Nat
  hash : BitVec 32
  row : Row

/-- `struct ovsdb`: the rows and the indexes of all tables, and the weak references
    between rows that are committed. -/
structure Database where
  schema : Schema
  rows : AList (fun _ : RowKey => Row) := ∅
  indexes : List IndexNode := []
  weakRefs : List WeakRef := []

def Schema.columns (schema : Schema) (table : String) : List Column :=
  (schema.table? table).elim [] TableSchema.columns

def Schema.indexes (schema : Schema) (table : String) : List (List Nat) :=
  (schema.table? table).elim [] TableSchema.indexes

def Schema.isRoot (schema : Schema) (table : String) : Bool :=
  (schema.table? table).elim false TableSchema.isRoot

def Schema.maxRows (schema : Schema) (table : String) : Nat :=
  (schema.table? table).elim 0 TableSchema.maxRows

def rowHashColumns (columns : List Column) (row : Row) (set : List Nat) (basis : BitVec 32) :
    BitVec 32 :=
  set.foldl (fun basis idx =>
    (columns[idx]?).elim basis fun column => (row.datum idx).hash column.type basis) basis

def rowEqualColumns (columns : List Column) (a b : Row) (set : List Nat) : Bool :=
  set.all fun idx =>
    (columns[idx]?).elim true fun column => (a.datum idx).equals (b.datum idx) column.type

def rowCompareColumns (columns : List Column) (a b : Row) (set : List Nat) : Ordering :=
  set.foldr (fun idx rest =>
    ((columns[idx]?).elim .eq fun column =>
      (a.datum idx).compare3way (b.datum idx) column.type).then rest) .eq

def englishListDelimiter (index total : Nat) : String :=
  if index = 0 then ""
  else if index < total - 1 then ", "
  else if total > 2 then ", and "
  else " and "

def englishList (words : List String) : String :=
  String.join (words.zipIdx.map fun (word, i) => englishListDelimiter i words.length ++ word)

def rowColumnsToString (d : Doubles) (columns : List Column) (row : Row) (set : List Nat) :
    String :=
  englishList (set.filterMap fun idx =>
    (columns[idx]?).map fun column => String.ofList ((row.datum idx).toText d column.type))

def columnSetToString (columns : List Column) (set : List Nat) : String :=
  if set = [] then "no columns"
  else
    "column" ++ (if set.length > 1 then "s" else "") ++ " " ++
      englishList (set.filterMap fun idx =>
        (columns[idx]?).map fun column => "\"" ++ column.name ++ "\"")

/-! ## 2. Transactions -/

/-- `struct ovsdb_txn_row`.  `changed` has the indexes of the bits that are set. -/
structure TxnRow where
  old : Option Row
  nRefs : Int
  changed : List Nat := []

/-- `struct ovsdb_txn` and the database it changes.  `srcRefs` has the weak references
    of the new rows, which no row has in its `dst_refs` before the commit. -/
structure Txn where
  db : Database
  rows : AList (fun _ : RowKey => TxnRow) := ∅
  txnIndexes : List IndexNode := []
  srcRefs : List WeakRef := []

/-- What a transaction does not determine by itself: how doubles are printed, in
    which order the rows of hash maps are visited, and the versions of rows. -/
structure TxnEnv where
  doubles : Doubles
  order : Nat → Nat → List RowKey → RowKey
  version : RowKey → Uuid

abbrev TxnM := EStateM OvsdbError Txn

namespace Txn

def getRow (s : Txn) (k : RowKey) : Option Row := s.db.rows.lookup k

def txnRow (s : Txn) (k : RowKey) : Option TxnRow := s.rows.lookup k

def setRow (k : RowKey) (row : Row) (s : Txn) : Txn :=
  { s with db := { s.db with rows := s.db.rows.insert k row } }

def removeRow (k : RowKey) (s : Txn) : Txn :=
  { s with db := { s.db with rows := s.db.rows.erase k } }

def setTxnRow (k : RowKey) (r : TxnRow) (s : Txn) : Txn := { s with rows := s.rows.insert k r }

def removeTxnRow (k : RowKey) (s : Txn) : Txn := { s with rows := s.rows.erase k }

def columns (s : Txn) (k : RowKey) : List Column := s.db.schema.columns k.table

def rowCreate (k : RowKey) (old : Option Row) (s : Txn) : Txn :=
  s.setTxnRow k { old, nRefs := old.elim 0 Row.nRefs }

/-- `ovsdb_txn_row_modify`, if there is such a row.  The copy that it makes of the row
    has the same columns and the same `n_refs`. -/
def rowModify (k : RowKey) (s : Txn) : Txn :=
  match s.getRow k, s.txnRow k with
  | some row, none => s.rowCreate k (some row)
  | _, _ => s

/-- `ovsdb_txn_row_abort`, with `ovsdb_txn_row_prefree`. -/
def rowAbort (k : RowKey) (s : Txn) : Txn :=
  match s.txnRow k with
  | none => s
  | some r =>
    let s := { s.removeTxnRow k with srcRefs := s.srcRefs.filter fun weak => weak.src ≠ k }
    match r.old with
    | none => s.removeRow k
    | some old => s.setRow k old

end Txn

/-- The row that the iteration over a hash map comes to next. -/
def pick (choice : RowKey) (k : RowKey) (keys : List RowKey) : RowKey :=
  if choice ∈ k :: keys then choice else k

/-- The loop of `for_each_txn_row`, with the rows it has processed. -/
def forEachLoop (order : Nat → List RowKey → RowKey) (cb : RowKey → TxnM Unit) :
    Nat → List RowKey → TxnM Unit
  | 0, _ => pure ()
  | n + 1, processed => do
    match (← get).rows.keys.filter (· ∉ processed) with
    | [] => pure ()
    | k :: keys =>
      let r := pick (order n (k :: keys)) k keys
      cb r
      forEachLoop order cb n (r :: processed)

/-- `for_each_txn_row`.  Every row of a transaction is or was a row of the database, and
    no row is processed twice. -/
def forEachTxnRow (order : Nat → List RowKey → RowKey) (cb : RowKey → TxnM Unit) :
    TxnM Unit := do
  let s ← get
  forEachLoop order cb (s.db.rows.keys.length + s.rows.keys.length) []

def findOrMakeTxnRow (k : RowKey) : TxnM (Option TxnRow) := do
  modify (Txn.rowModify k)
  return (← get).txnRow k

/-- `OVSDB_BUG`, without the place in the source and the stack. -/
def ovsdbBug (msg : String) : OvsdbError := { tag := "internal error", details := msg }

/-- `OVSDB_WRAP_BUG`, in the same way. -/
def wrapBug (msg : String) (m : TxnM α) : TxnM α :=
  EStateM.adaptExcept (fun error => ovsdbBug (msg ++ " (generated from: " ++ error.details ++ ")")) m

/-! ## 3. Reference counts -/

/-- The rows that atoms of a type refer to by strong references. -/
def BaseType.strongTargets (base : BaseType) (atoms : List Atom) : List RowKey :=
  if base.isStrongRef then
    atoms.filterMap fun
      | .uuid u => some ⟨base.refTableName.getD "", u⟩
      | _ => none
  else []

def referentialIntegrityViolation (details : String) : OvsdbError :=
  { tag := "referential integrity violation", details }

/-- One reference in the loop of `ovsdb_txn_adjust_atom_refs`. -/
def adjustRef (k : RowKey) (column : Column) (delta : Int) (target : RowKey) : TxnM Unit :=
  -- Self-references don't count.
  if target.uuid = k.uuid then pure ()
  else do
    match ← findOrMakeTxnRow target with
    | none =>
      throw (referentialIntegrityViolation
        ("Table " ++ k.table ++ " column " ++ column.name ++ " row " ++ uuidToString k.uuid ++
          " references nonexistent row " ++ uuidToString target.uuid ++ " in table " ++
          target.table ++ "."))
    | some r => modify (Txn.setTxnRow target { r with nRefs := r.nRefs + delta })

def adjustAtomRefs (k : RowKey) (column : Column) (base : BaseType) (atoms : List Atom)
    (delta : Int) : TxnM Unit :=
  (base.strongTargets atoms).forM (adjustRef k column delta)

def adjustRowRefs (k : RowKey) (row : Row) (column : Column) (idx : Nat) (delta : Int) :
    TxnM Unit := do
  adjustAtomRefs k column column.type.key (row.datum idx).keys delta
  adjustAtomRefs k column column.type.value (row.datum idx).values delta

/-- The same for a row that may be null. -/
def adjustRefs (k : RowKey) (row : Option Row) (column : Column) (idx : Nat) (delta : Int) :
    TxnM Unit :=
  match row with
  | some row => adjustRowRefs k row column idx delta
  | none => pure ()

/-- One column in `update_row_ref_count`. -/
def updateColumnRefCount (k : RowKey) (old new : Option Row) (column : Column) (idx : Nat) :
    TxnM Unit := do
  wrapBug "error decreasing refcount" (adjustRefs k old column idx (-1))
  adjustRefs k new column idx 1

def updateRowRefCount (k : RowKey) : TxnM Unit := do
  let s ← get
  match s.txnRow k with
  | none => pure ()
  | some r =>
    (s.columns k).zipIdx.forM fun (column, idx) =>
      if idx ∈ r.changed then updateColumnRefCount k r.old (s.getRow k) column idx else pure ()

def checkRefCount (k : RowKey) : TxnM Unit := do
  let s ← get
  match s.txnRow k with
  | none => pure ()
  | some r =>
    if (s.getRow k).isSome ∨ r.nRefs = 0 then pure ()
    else
      throw (referentialIntegrityViolation
        ("cannot delete " ++ k.table ++ " row " ++ uuidToString k.uuid ++ " because of " ++
          toString r.nRefs ++ " remaining reference(s)"))

/-! ## 4. Garbage -/

def Column.targets (column : Column) (datum : Datum) : List RowKey :=
  column.type.key.strongTargets datum.keys ++ column.type.value.strongTargets datum.values

def rowTargets (columns : List Column) (k : RowKey) (row : Row) : List RowKey :=
  (columns.zipIdx.flatMap fun (column, idx) => column.targets (row.datum idx)).filter
    fun target => target.uuid ≠ k.uuid

theorem keys_erase_lt {rows : AList (fun _ : RowKey => Row)} {k : RowKey} {row : Row}
    (h : rows.lookup k = some row) : (rows.erase k).keys.length < rows.keys.length := by
  have hmem : k ∈ rows.keys := AList.lookup_isSome.mp (by rw [h]; rfl)
  have hpos := List.length_pos_of_mem hmem
  rw [AList.keys_erase, List.length_erase_of_mem hmem]
  omega

@[simp] theorem Txn.rowModify_db (k : RowKey) (s : Txn) : (s.rowModify k).db = s.db := by
  unfold Txn.rowModify
  split <;> rfl

/-- `delete_row_refs`, which calls itself through `delete_garbage_row`: `pending` has the
    references of deleted rows that are still to be dropped, those of the row that was
    deleted last in front. -/
def deleteRowRefs (s : Txn) : List RowKey → EStateM.Result OvsdbError Txn Unit
  | [] => .ok () s
  | target :: pending =>
    let s' := s.rowModify target
    match s'.txnRow target with
    | none => .error (ovsdbBug "strong ref target missing") s'
    | some r =>
      if r.nRefs = 0 then .error (ovsdbBug "strong ref target has zero n_refs") s'
      else
        match h : s'.getRow target with
        | none => .error (ovsdbBug "deleted strong ref target") s'
        | some row =>
          let s'' := s'.setTxnRow target { r with nRefs := r.nRefs - 1 }
          if r.nRefs - 1 = 0 ∧ ¬ s.db.schema.isRoot target.table then
            deleteRowRefs (s''.removeRow target) (rowTargets (s.columns target) target row ++ pending)
          else deleteRowRefs s'' pending
termination_by pending => (s.db.rows.keys.length, pending.length)
decreasing_by
  · rw [Txn.getRow, Txn.rowModify_db] at h
    have hlt := keys_erase_lt h
    simp only [Prod.lex_def]
    left
    simpa [s'', s', Txn.removeRow, Txn.setTxnRow] using hlt
  · simp only [Prod.lex_def]
    right
    simp [s'', Txn.setTxnRow]

/-- `delete_garbage_row`, on a row that is in its table. -/
def deleteGarbageRow (k : RowKey) (row : Row) : TxnM Unit := do
  let s ← get
  if s.db.schema.isRoot k.table then pure ()
  else
    modify (Txn.removeRow k)
    fun s' => deleteRowRefs s' (rowTargets (s.columns k) k row)

def collectGarbage (k : RowKey) : TxnM Unit := do
  let s ← get
  match s.txnRow k, s.getRow k with
  | some r, some row => if r.nRefs = 0 then deleteGarbageRow k row else pure ()
  | _, _ => pure ()

/-! ## 5. Changes and limits -/

def determineChanges (k : RowKey) : TxnM Unit := do
  let s ← get
  match s.txnRow k with
  | none => pure ()
  | some r =>
    match r.old, s.getRow k with
    | some old, some new =>
      let changed := (s.columns k).zipIdx.filterMap fun (column, idx) =>
        if (old.datum idx).equals (new.datum idx) column.type then none else some idx
      -- Nothing actually changed in this row, so drop it.
      if changed = [] then modify (Txn.rowAbort k)
      else modify (Txn.setTxnRow k { r with changed := r.changed ++ changed })
    | _, _ => modify (Txn.setTxnRow k { r with changed := List.range (s.columns k).length })

def nRows (s : Txn) (table : String) : Nat := s.db.rows.keys.countP fun k => k.table == table

def checkMaxRows : TxnM Unit := do
  let s ← get
  (s.rows.keys.map RowKey.table).dedup.forM fun table =>
    if nRows s table > s.db.schema.maxRows table then
      throw (constraintViolation
        ("transaction causes \"" ++ table ++ "\" table to contain " ++ toString (nRows s table) ++
          " rows, greater than the schema-defined limit of " ++
          toString (s.db.schema.maxRows table) ++ " row(s)"))
    else pure ()

/-! ## 6. Weak references -/

def Element.keyUuid (e : Element) : Uuid :=
  match e.key with
  | .uuid u => u
  | _ => 0

def Element.valueUuid (e : Element) : Uuid :=
  match e.value with
  | some (.uuid u) => u
  | _ => 0

/-- What `assess_weak_refs` knows about a column: the elements that are left, whether an
    all-zeros UUID was removed, and the rows that are referred to. -/
structure WeakScan where
  datum : Datum
  zero : Bool := false
  targets : List RowKey := []

/-- The loop of `assess_weak_refs` over the keys or the values of a column.  Each of the
    `n` steps looks at one element. -/
def weakScanLoop (s : Txn) (table : String) (half : Element → Uuid) :
    (n i : Nat) → WeakScan → WeakScan
  | 0, _, scan => scan
  | n + 1, i, scan =>
    match scan.datum[i]? with
    | none => scan
    | some e =>
      if (s.getRow ⟨table, half e⟩).isSome then
        weakScanLoop s table half n (i + 1)
          { scan with targets := scan.targets ++ [⟨table, half e⟩] }
      else
        weakScanLoop s table half n i
          { scan with datum := scan.datum.removeUnsafe i, zero := scan.zero || half e == 0 }

/-- The loop over the keys, or over the values, if they are weak references. -/
def weakScanHalf (s : Txn) (base : BaseType) (half : Element → Uuid) (scan : WeakScan) :
    WeakScan :=
  if base.isWeakRef then
    weakScanLoop s (base.refTableName.getD "") half scan.datum.length 0 scan
  else scan

def weakScan (s : Txn) (column : Column) (datum : Datum) : WeakScan :=
  weakScanHalf s column.type.value Element.valueUuid
    (weakScanHalf s column.type.key Element.keyUuid { datum })

/-- `ovsdb_datum_sort_assert`, on a datum whose keys are unique. -/
def Datum.sortAssert (datum : Datum) : Datum := datum.sort.getD datum

/-- The error for a column that became too small. -/
def weakRefViolation (k : RowKey) (column : Column) (isNew zero : Bool) (nDeleted : Nat) :
    OvsdbError :=
  constraintViolation
    (if zero && isNew then
      "Weak reference column \"" ++ column.name ++ "\" in \"" ++ k.table ++ "\" row " ++
        uuidToString k.uuid ++ " (inserted within this transaction) contained all-zeros UUID " ++
        "(probably as the default value for this column) but deleting this value caused a " ++
        "constraint volation because this column is not allowed to be empty."
    else
      "Deletion of " ++ toString nDeleted ++
        " weak reference(s) to deleted (or never-existing) rows from column \"" ++ column.name ++
        "\" in \"" ++ k.table ++ "\" row " ++ uuidToString k.uuid ++ " " ++
        (if isNew then "(inserted within this transaction) " else "") ++
        "caused this column to become empty, but constraints on this column disallow an empty " ++
        "column.")

/-- `add_weak_ref`.  The test for a duplicate in `dst_refs` is left out: it compares with
    the rows that are committed, and `src` is a row of this transaction. -/
def addWeakRefs (k : RowKey) (targets : List RowKey) (s : Txn) : Txn :=
  { s with srcRefs := s.srcRefs ++ (targets.filter (· ≠ k)).map fun target => ⟨k, target⟩ }

def assessColumn (k : RowKey) (column : Column) (idx : Nat) : TxnM Unit := do
  let s ← get
  match s.txnRow k, s.getRow k with
  | some r, some row =>
    let datum := row.datum idx
    let scan := weakScan s column datum
    modify (addWeakRefs k scan.targets)
    if scan.datum.length = datum.length then pure ()
    else
      modify (Txn.setTxnRow k { r with changed := r.changed.insert idx })
      modify (Txn.setRow k { row with fields := row.fields.set idx scan.datum.sortAssert })
      if scan.datum.length < column.type.nMin then
        throw (weakRefViolation k column r.old.isNone scan.zero (datum.length - scan.datum.length))
      else pure ()
  | _, _ => pure ()

def assessWeakRefs (k : RowKey) : TxnM Unit := do
  let s ← get
  match s.txnRow k, s.getRow k with
  | some _, some _ => (s.columns k).zipIdx.forM fun (column, idx) => assessColumn k column idx
  | some r, none =>
    -- Rows that have weak references to a deleted row will get reassessed.
    if r.old.isSome then
      (s.db.weakRefs.filter fun weak => weak.dst = k).forM fun weak =>
        modify (Txn.rowModify weak.src)
    else pure ()
  | _, _ => pure ()

/-! ## 7. Indexes -/

/-- `ovsdb_index_search` in the index numbered `i` of a table. -/
def indexSearch (columns : List Column) (nodes : List IndexNode) (table : String) (i : Nat)
    (set : List Nat) (hash : BitVec 32) (row : Row) : Option IndexNode :=
  nodes.find? fun node =>
    node.key.table == table && node.index == i && node.hash == hash &&
      rowEqualColumns columns row node.row set

def duplicateIndexRowPart (d : Doubles) (s : Txn) (columns : List Column) (set : List Nat)
    (k : RowKey) (row : Row) (title : String) : String :=
  title ++ " row, with UUID " ++ uuidToString k.uuid ++ ", " ++
    match s.txnRow k with
    | none => "existed in the database before this transaction and was not modified by the " ++
        "transaction."
    | some r =>
      if r.changed = [] then
        "existed in the database before this transaction and was not modified by the transaction."
      else
        match r.old with
        | none => "was inserted by this transaction."
        | some old =>
          if rowEqualColumns columns old row set then
            "existed in the database before this transaction, which modified some of the row's " ++
              "columns but not any columns in this index."
          else
            "had the following index values before the transaction: " ++
              rowColumnsToString d columns old set ++ "."

def duplicateIndexRow (d : Doubles) (s : Txn) (columns : List Column) (set : List Nat)
    (a b : RowKey × Row) : OvsdbError :=
  -- Put the rows in a predictable order.
  let (a, b) :=
    if rowCompareColumns columns a.2 b.2 (List.range columns.length) = .lt then (b, a) else (a, b)
  constraintViolation
    ("Transaction causes multiple rows in \"" ++ a.1.table ++
      "\" table to have identical values (" ++ rowColumnsToString d columns a.2 set ++
      ") for index on " ++ columnSetToString columns set ++ ".  " ++
      duplicateIndexRowPart d s columns set a.1 a.2 "First" ++ "  " ++
      duplicateIndexRowPart d s columns set b.1 b.2 "Second")

def checkIndex (d : Doubles) (k : RowKey) (row : Row) (set : List Nat) (i : Nat) :
    TxnM Unit := do
  let s ← get
  let columns := s.columns k
  let hash := rowHashColumns columns row set 0
  match indexSearch columns s.txnIndexes k.table i set hash row with
  | some node => throw (duplicateIndexRow d s columns set (node.key, node.row) (k, row))
  | none =>
    match indexSearch columns s.db.indexes k.table i set hash row with
    | some node =>
      -- A row that is part of the transaction has been compared already.
      if (s.txnRow node.key).isNone then
        throw (duplicateIndexRow d s columns set (node.key, node.row) (k, row))
      else modify fun s => { s with txnIndexes := s.txnIndexes ++ [⟨k, i, hash, row⟩] }
    | none => modify fun s => { s with txnIndexes := s.txnIndexes ++ [⟨k, i, hash, row⟩] }

def checkIndexUniqueness (d : Doubles) (k : RowKey) : TxnM Unit := do
  let s ← get
  match s.getRow k with
  | none => pure ()
  | some row =>
    (s.db.schema.indexes k.table).zipIdx.forM fun (set, i) => checkIndex d k row set i

/-! ## 8. Checks and abort -/

def updateVersion (version : RowKey → Uuid) (k : RowKey) : TxnM Unit := do
  let s ← get
  match s.txnRow k, s.getRow k with
  | some r, some row =>
    if r.old.isSome ∧ r.changed ≠ [] then
      modify (Txn.setTxnRow k { r with changed := r.changed.insert 1 })
      modify (Txn.setRow k { row with fields := row.fields.set 1 [⟨.uuid (version k), none⟩] })
    else pure ()
  | _, _ => pure ()

/-- `ovsdb_txn_precommit`.  Determining the changes does not fail. -/
def precommit (env : TxnEnv) : TxnM Unit := do
  forEachTxnRow (env.order 0) determineChanges
  if (← get).rows.keys = [] then return
  forEachTxnRow (env.order 1) updateRowRefCount
  forEachTxnRow (env.order 2) checkRefCount
  wrapBug "can't happen" (forEachTxnRow (env.order 3) collectGarbage)
  checkMaxRows
  forEachTxnRow (env.order 4) assessWeakRefs
  forEachTxnRow (env.order 5) (checkIndexUniqueness env.doubles)
  wrapBug "can't happen" (forEachTxnRow (env.order 6) (updateVersion env.version))

def abort (env : TxnEnv) : TxnM Unit :=
  forEachTxnRow (env.order 9) fun k => modify (Txn.rowAbort k)

/-! ## 9. Changing rows -/

def mayCreateRow (s : Txn) (k : RowKey) : Bool := (s.getRow k).isNone && (s.txnRow k).isNone

/-- What a client does to a row: insert it with the given columns after `_uuid` and
    `_version`, change one of its columns, or delete it. -/
inductive Op where
  | insert (k : RowKey) (columns : List Datum)
  | modify (k : RowKey) (idx : Nat) (datum : Datum)
  | delete (k : RowKey)

/-- `ovsdb_txn_row_insert`, for a UUID that `ovsdb_txn_may_create_row` allows. -/
def rowInsert (version : RowKey → Uuid) (k : RowKey) (columns : List Datum) : TxnM Unit := do
  if mayCreateRow (← get) k then
    modify (Txn.rowCreate k none)
    modify (Txn.setRow k
      { fields := [⟨.uuid k.uuid, none⟩] :: [⟨.uuid (version k), none⟩] :: columns })
  else
    throw { tag := "duplicate uuid"
            details := "This UUID would duplicate a UUID already present within the table or " ++
              "deleted within the same transaction." }

/-- `ovsdb_txn_row_modify` and a new value for a column of the row that it returns. -/
def rowSet (k : RowKey) (idx : Nat) (datum : Datum) : TxnM Unit := do
  modify (Txn.rowModify k)
  match (← get).getRow k with
  | none => pure ()
  | some row => modify (Txn.setRow k { row with fields := row.fields.set idx datum })

/-- `ovsdb_txn_row_delete`, if there is such a row. -/
def rowDelete (k : RowKey) : TxnM Unit := do
  let s ← get
  match s.getRow k with
  | none => pure ()
  | some row =>
    modify (Txn.removeRow k)
    match s.txnRow k with
    | none => modify (Txn.rowCreate k (some row))
    | some r =>
      -- A row that was inserted by the transaction leaves no trace.
      if r.old.isNone then modify (Txn.removeTxnRow k) else pure ()

def Op.run (env : TxnEnv) : Op → TxnM Unit
  | .insert k columns => rowInsert env.version k columns
  | .modify k idx datum => rowSet k idx datum
  | .delete k => rowDelete k

/-- The changes of a transaction, and the checks. -/
def Op.runAll (env : TxnEnv) (ops : List Op) : TxnM Unit := do
  ops.forM (Op.run env)
  precommit env

end Ovsgw.Ovsdb
