/-
  **Atoms, data and their types** (`lib/ovsdb-types.h`, `lib/ovsdb-data.h` and
  the parts of `lib/ovsdb-types.c` and `lib/ovsdb-data.c` that compare atoms).

  A `union ovsdb_atom` is read through the type that goes with it; here an atom carries its own tag.
  A `struct ovsdb_datum` is the list of its keys, each with its value where the datum is a map.
-/
import Ovsgw.Uuid
import Ovsgw.CString
import Mathlib.Data.List.Sort

namespace Ovsgw.Ovsdb

/-! ## 1. Atoms -/

inductive AtomicType where
  | void | integer | real | boolean | string | uuid
deriving DecidableEq, Repr

def AtomicType.toString : AtomicType → String
  | .void => "void"
  | .integer => "integer"
  | .real => "real"
  | .boolean => "boolean"
  | .string => "string"
  | .uuid => "uuid"

/-- `union ovsdb_atom`; a real is the bit pattern of its `double`. -/
inductive Atom where
  | integer (i : Int)
  | real (bits : BitVec 64)
  | boolean (b : Bool)
  | string (s : String)
  | uuid (u : Uuid)
deriving DecidableEq

def Atom.type : Atom → AtomicType
  | .integer _ => .integer
  | .real _ => .real
  | .boolean _ => .boolean
  | .string _ => .string
  | .uuid _ => .uuid

/-- The value of a `double` on a scale that orders them: the sign and the rest of the bits. -/
def doubleOrder (x : BitVec 64) : Int :=
  let magnitude : Int := (x &&& 0x7fffffffffffffff#64).toNat
  if x.msb then -magnitude else magnitude

def isNan (x : BitVec 64) : Bool := 0x7ff0000000000000#64 < x &&& 0x7fffffffffffffff#64

/-- `a < b ? -1 : a > b` on two `double`s. -/
def doubleCompare (a b : BitVec 64) : Ordering :=
  if isNan a || isNan b then .eq else compare (doubleOrder a) (doubleOrder b)

/-- `ovsdb_atom_compare_3way`; two atoms of different types are never compared. -/
def Atom.compare3way : Atom → Atom → Ordering
  | .integer a, .integer b => compare a b
  | .real a, .real b => doubleCompare a b
  | .boolean a, .boolean b => compare a b
  | .string a, .string b => compare a.toList b.toList
  | .uuid a, .uuid b => compare a.toNat b.toNat
  | _, _ => .eq

def Atom.equals (a b : Atom) : Bool := a.compare3way b == .eq

def AtomicType.default : AtomicType → Atom
  | .integer => .integer 0
  | .real => .real 0
  | .boolean => .boolean false
  | .string => .string ""
  | .uuid => .uuid 0
  -- Never asked for.
  | .void => .integer 0

/-! ## 2. Data -/

/-- One element of a datum: its key, and its value in a map. -/
structure Element where
  key : Atom
  value : Option Atom
deriving DecidableEq

abbrev Datum := List Element

def Datum.keys (d : Datum) : List Atom := d.map Element.key

def findKeyLoop (keys : List Atom) (key : Atom) (low high : Nat) : Option Nat :=
  if low < high then
    let idx := (low + high) / 2
    match key.compare3way (keys.getD idx key) with
    | .lt => findKeyLoop keys key low idx
    | .gt => findKeyLoop keys key (idx + 1) high
    | .eq => some idx
  else none
termination_by high - low
decreasing_by all_goals omega

def Datum.findKey (d : Datum) (key : Atom) : Option Nat := findKeyLoop d.keys key 0 d.length

/-- The order in which `ovsdb_datum_sort` puts two elements. -/
def keyLe (a b : Element) : Prop := a.key.compare3way b.key ≠ .gt

instance : DecidableRel keyLe := fun _ _ => inferInstanceAs (Decidable (_ ≠ _))

def hasEqualNeighbours : List Atom → Bool
  | a :: b :: keys => a.equals b || hasEqualNeighbours (b :: keys)
  | _ => false

/-- `ovsdb_datum_sort`; `none` if a key occurs twice. -/
def Datum.sort (d : Datum) : Option Datum :=
  let sorted := d.insertionSort keyLe
  if hasEqualNeighbours (Datum.keys sorted) then none else some sorted

/-! ## 3. Types -/

inductive RefType where
  | strong | weak
deriving DecidableEq

/-- `struct ovsdb_base_type`.  The members of its union stand side by side, and
    only those that belong to `type` are used. -/
structure BaseType where
  type : AtomicType
  enum : Option Datum := none
  minInteger : Int := -(llongMax : Int) - 1
  maxInteger : Int := llongMax
  minReal : BitVec 64 := 0xffefffffffffffff#64
  maxReal : BitVec 64 := 0x7fefffffffffffff#64
  minLen : Nat := 0
  maxLen : Nat := uintMax
  refTableName : Option String := none
  refType : RefType := .strong
deriving DecidableEq

def BaseType.isRef (base : BaseType) : Bool := base.type == .uuid && base.refTableName.isSome

def BaseType.isStrongRef (base : BaseType) : Bool := base.isRef && base.refType == .strong

def BaseType.isWeakRef (base : BaseType) : Bool := base.isRef && base.refType == .weak

structure OvsdbType where
  key : BaseType
  value : BaseType := { type := .void }
  nMin : Nat := 1
  nMax : Nat := 1
deriving DecidableEq

def OvsdbType.isMap (type : OvsdbType) : Bool := type.value.type != .void

def OvsdbType.isSet (type : OvsdbType) : Bool :=
  type.value.type == .void && (type.nMin != 1 || type.nMax != 1)

def OvsdbType.isScalar (type : OvsdbType) : Bool :=
  type.value.type == .void && type.nMin == 1 && type.nMax == 1

def OvsdbType.toEnglish (type : OvsdbType) : String :=
  let key := type.key.type.toString
  if type.isScalar then key
  else
    (if type.isSet then "set" else "map") ++
    (if type.nMax = uintMax then
      if type.nMin ≠ 0 then " of " ++ toString type.nMin ++ " or more" else " of"
    else if type.nMin ≠ 0 then " of " ++ toString type.nMin ++ " to " ++ toString type.nMax
    else " of up to " ++ toString type.nMax) ++
    (if type.isSet then " " ++ key ++ "s"
    else " (" ++ key ++ ", " ++ type.value.type.toString ++ ") pairs")

def enumType (type : AtomicType) : OvsdbType := { key := { type }, nMax := uintMax }

end Ovsgw.Ovsdb
