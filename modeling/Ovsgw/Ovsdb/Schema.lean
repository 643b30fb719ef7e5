/-
  **Schemas** (`ovsdb/column.c`, `ovsdb/table.c` and `ovsdb/ovsdb.c`): columns, tables and databases.

  The columns of a table are a list in the order of their indexes, and a set of
  columns is the list of their indexes.
-/
import Ovsgw.Ovsdb.Datum

namespace Ovsgw.Ovsdb

/-! ## 1. Columns -/

/-- `struct ovsdb_column`, without its index. -/
structure Column where
  name : String
  mutable : Bool
  persistent : Bool
  type : OvsdbType

/-- The column that `ovsdb_table_schema_create` adds first. -/
def uuidColumn : Column :=
  { name := "_uuid", mutable := false, persistent := true, type := { key := { type := .uuid } } }

/-- The column that `ovsdb_table_schema_create` adds second. -/
def versionColumn : Column :=
  { name := "_version", mutable := false, persistent := false
    type := { key := { type := .uuid } } }

/-! ## 2. Tables and databases -/

structure TableSchema where
  name : String
  mutable : Bool := true
  isRoot : Bool
  maxRows : Nat := uintMax
  columns : List Column
  indexes : List (List Nat) := []

/-- `struct ovsdb_schema`, as far as the functions on rows use it. -/
structure Schema where
  tables : List TableSchema

def Schema.table? (schema : Schema) (name : String) : Option TableSchema :=
  schema.tables.find? fun table => table.name == name

/-! ## 3. Members of requests -/

def Json.boolD : Option Json → Bool → Bool
  | some (.bool b), _ => b
  | _, default => default

def Json.elemsD : Option Json → List Json
  | some (.array elems) => elems
  | _ => []

end Ovsgw.Ovsdb
