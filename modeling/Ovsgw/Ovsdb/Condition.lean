/-
  **Conditions on rows** (`ovsdb/condition.c`, `lib/ovsdb-condition.c`): clauses from
  JSON, their order, and the two ways in which a row is compared with a condition.

  A condition is a list of clauses that is sorted when it is parsed.  A condition whose clauses are
  all booleans or equalities is *optimized*: it is not evaluated clause by clause, but its
  equalities are looked up in a hash map, and booleans are only seen where `ovsdb_condition_is_true`
  looks for them, which is among the first two clauses.
-/
import Ovsgw.Ovsdb.Schema

namespace Ovsgw.Ovsdb

/-! ## 1. Functions and clauses -/

/-- `enum ovsdb_function`, in the order of the source. -/
inductive OvsdbFunction where
  | false | true | eq | includes | le | lt | ge | gt | excludes | ne
deriving DecidableEq

def OvsdbFunction.toNat : OvsdbFunction → Nat
  | .false => 0
  | .true => 1
  | .eq => 2
  | .includes => 3
  | .le => 4
  | .lt => 5
  | .ge => 6
  | .gt => 7
  | .excludes => 8
  | .ne => 9

def OvsdbFunction.toString : OvsdbFunction → String
  | .false => "false"
  | .true => "true"
  | .eq => "=="
  | .includes => "includes"
  | .le => "<="
  | .lt => "<"
  | .ge => ">="
  | .gt => ">"
  | .excludes => "excludes"
  | .ne => "!="

def functionFromString (name : String) : Except OvsdbError OvsdbFunction :=
  match [OvsdbFunction.false, .true, .eq, .includes, .le, .lt, .ge, .gt, .excludes, .ne].find?
      (fun function => function.toString == name) with
  | some function => .ok function
  | none => .error { tag := "unknown function", details := "No function named " ++ name ++ "." }

deriving instance DecidableEq for Column

structure Clause where
  function : OvsdbFunction
  index : Nat
  column : Column
  arg : Datum
deriving DecidableEq

/-- `ovsdb_table_schema_get_column`, with the index of the column. -/
def TableSchema.getColumn (ts : TableSchema) (name : String) : Option (Nat × Column) :=
  (ts.columns.findIdx? fun column => column.name == name).bind fun index =>
    (ts.columns[index]?).map fun column => (index, column)

def OvsdbType.isOptionalScalar (type : OvsdbType) : Bool :=
  type.value.type == .void && type.nMin == 0 && type.nMax == 1

/-- What the argument of a function may be, for a column of type `type`. -/
def OvsdbFunction.argumentType (function : OvsdbFunction) (json : Json) (column : Column) :
    Except OvsdbError OvsdbType :=
  let type := column.type
  match function with
  | .lt | .le | .gt | .ge =>
    if (type.isScalar || type.isOptionalScalar) &&
        (type.key.type == .integer || type.key.type == .real) then
      .ok { type with nMin := 1 }
    else
      .error (ovsdbSyntaxError (some json) ("Type mismatch: \"" ++ function.toString ++
        "\" operator may not be applied to column " ++ column.name ++ " of type " ++
        type.toEnglish ++ "."))
  | .eq | .ne => .ok type
  | .excludes => .ok (if type.isScalar then type else { type with nMin := 0, nMax := uintMax })
  | .includes => .ok (if type.isScalar then type else { type with nMin := 0 })
  -- The names "true" and "false" reach `OVS_NOT_REACHED`, where the server stops.
  | .true | .false => .error (ovsdbSyntaxError (some json) "")

/-- The clause of a boolean, with dummy values for the column and the argument. -/
def booleanClause (b : Bool) : Clause :=
  { function := if b then .true else .false
    index := 0
    column := uuidColumn
    arg := uuidColumn.type.default }

/-- `ovsdb_clause_from_json` without a symbol table. -/
def clauseFromJson (d : Doubles) (ts : TableSchema) (json : Json) : Except OvsdbError Clause :=
  match json with
  | .bool b => .ok (booleanClause b)
  | .array [.string columnName, .string functionName, arg] =>
    match ts.getColumn columnName with
    | none => .error { tag := "unknown column", json := some json
                       details := "No column " ++ columnName ++ " in table " ++ ts.name ++ "." }
    | some (index, column) => do
      let function ← functionFromString functionName
      let type ← function.argumentType json column
      let arg ← datumFromJson d type arg
      return { function, index, column, arg }
  | _ => .error (ovsdbSyntaxError (some json) "Parse error in condition.")

def nStdColumns : Nat := 2

def Clause.compare3way (a b : Clause) : Ordering :=
  if a.function ≠ b.function then compare a.function.toNat b.function.toNat
  else if a.index ≠ b.index then
    if a.index < nStdColumns ∨ b.index < nStdColumns then compare a.index b.index
    else compare a.column.name.toList b.column.name.toList
  else .eq

def Clause.compareWithData (a b : Clause) : Ordering :=
  (a.compare3way b).then (a.arg.compare3way b.arg a.column.type)

/-! ## 2. Conditions -/

/-- `struct ovsdb_condition`.  The member `o_columns` has the equalities once more and is
    left out. -/
structure Condition where
  clauses : List Clause := []
  optimized : Bool := true
deriving DecidableEq

/-- The order in which `qsort` puts two clauses. -/
def clauseLe (a b : Clause) : Prop := a.compareWithData b ≠ .gt

instance : DecidableRel clauseLe := fun _ _ => inferInstanceAs (Decidable (_ ≠ _))

/-- `ovsdb_condition_from_json` for an array. -/
def conditionFromJson (d : Doubles) (ts : TableSchema) (elems : List Json) :
    Except OvsdbError Condition := do
  let clauses ← elems.mapM (clauseFromJson d ts)
  return { clauses := clauses.insertionSort clauseLe
           optimized := clauses.all fun c => c.function.toNat ≤ OvsdbFunction.eq.toNat }

def Condition.cmp3way (a b : Condition) : Ordering :=
  if a.clauses.length ≠ b.clauses.length then compare a.clauses.length b.clauses.length
  else (a.clauses.zip b.clauses).foldr (fun p rest => (p.1.compareWithData p.2).then rest) .eq

def Condition.isTrue (cond : Condition) : Bool :=
  match cond.clauses with
  | [] => true
  | [c] => c.function == .true
  | c :: c' :: _ => c.function == .true || c'.function == .true

def Condition.isFalse (cond : Condition) : Bool :=
  match cond.clauses with
  | [c] => c.function == .false
  | _ => false

def Condition.getColumns (cond : Condition) : List (Nat × Column) :=
  cond.clauses.map fun c => (c.index, c.column)

/-! ## 3. Evaluation -/

/-- `ovsdb_datum_find`: where `datum` has the element `e`. -/
def Datum.find (datum : Datum) (e : Element) (type : OvsdbType) : Option Nat :=
  match datum.findKey e.key with
  | none => none
  | some i =>
    match datum[i]?.bind Element.value, e.value with
    | some x, some y => if type.isMap && !x.equals y then none else some i
    | _, _ => some i

def Datum.includesAll (a b : Datum) (type : OvsdbType) : Bool :=
  a.length ≤ b.length && a.all fun e => (b.find e type).isSome

def Datum.excludesAll (a b : Datum) (type : OvsdbType) : Bool :=
  a.all fun e => (b.find e type).isNone

/-- What a function says about the comparison of two scalars. -/
def OvsdbFunction.holds : OvsdbFunction → Ordering → Bool
  | .lt, cmp => cmp == .lt
  | .le, cmp => cmp != .gt
  | .eq, cmp | .includes, cmp => cmp == .eq
  | .ne, cmp | .excludes, cmp => cmp != .eq
  | .ge, cmp => cmp != .lt
  | .gt, cmp => cmp == .gt
  -- Not reached.
  | .true, _ | .false, _ => .false

def OvsdbFunction.isOrder : OvsdbFunction → Bool
  | .lt | .le | .gt | .ge => .true
  | _ => .false

/-- `ovsdb_clause_evaluate` for the datum of the clause's column. -/
def Clause.evaluateField (c : Clause) (field : Datum) : Bool :=
  let type := c.column.type
  match c.function with
  | .true => true
  | .false => false
  | function =>
    if type.isOptionalScalar && field.length == 0 && function.isOrder then false
    else
      match type.isScalar || type.isOptionalScalar, field, c.arg with
      | true, [x], [y] => function.holds (x.key.compare3way y.key)
      | _, field, arg =>
        match function with
        | .eq => field.equals arg type
        | .ne => !field.equals arg type
        | .includes => arg.includesAll field type
        | .excludes => arg.excludesAll field type
        -- Not reached.
        | _ => false

/-- `ovsdb_clause_evaluate`.  `fields` has the datum of each column, whichever way the
    row stores them. -/
def Clause.evaluate (c : Clause) (fields : Nat → Datum) : Bool := c.evaluateField (fields c.index)

/-- The search of `ovsdb_condition_match_any_clause_optimized` for one equality. -/
def Clause.lookup (c : Clause) (fields : Nat → Datum) : Bool :=
  c.function == .eq &&
    (fields c.index).hash c.column.type 0 == c.arg.hash c.column.type 0 &&
    (fields c.index).equals c.arg c.column.type

def Condition.matchAnyClause (cond : Condition) (fields : Nat → Datum) : Bool :=
  if cond.optimized then cond.isTrue || cond.clauses.any fun c => c.lookup fields
  else cond.clauses.any fun c => c.evaluate fields

def Condition.emptyOrMatchAny (cond : Condition) (fields : Nat → Datum) : Bool :=
  cond.clauses.isEmpty || cond.matchAnyClause fields

end Ovsgw.Ovsdb
