/-
  **Comparing, hashing and storing data** (`lib/ovsdb-data.c`): equality and
  hashes of data, default values, and data as JSON without a symbol table.
-/
import Ovsgw.Hash
import Ovsgw.Ovsdb.DatumText

namespace Ovsgw.Ovsdb

/-! ## 1. Comparing -/

def compareAtoms : List Atom → List Atom → Ordering
  | a :: as, b :: bs => (a.compare3way b).then (compareAtoms as bs)
  | _, _ => .eq

def Datum.values (datum : Datum) : List Atom := datum.filterMap Element.value

def Datum.compare3way (a b : Datum) (type : OvsdbType) : Ordering :=
  if a.length ≠ b.length then compare a.length b.length
  else
    (compareAtoms a.keys b.keys).then
      (if type.isMap then compareAtoms a.values b.values else .eq)

def Datum.equals (a b : Datum) (type : OvsdbType) : Bool := a.compare3way b type == .eq

/-! ## 2. Hashing -/

def Atom.hash (basis : BitVec 32) : Atom → BitVec 32
  | .integer i => hashInt (BitVec.ofInt 32 i) basis
  | .real bits => hashDouble bits basis
  | .boolean b => hashBoolean b basis
  | .string s => hashString s basis
  | .uuid u => hashInt (BitVec.ofNat 32 (uuidPart u 0)) basis

def AtomicType.toNat : AtomicType → Nat
  | .void => 0
  | .integer => 1
  | .real => 2
  | .boolean => 3
  | .string => 4
  | .uuid => 5

/-- `ovsdb_datum_hash`, with `hash_atoms`. -/
def Datum.hash (datum : Datum) (type : OvsdbType) (basis : BitVec 32) : BitVec 32 :=
  let basis := datum.keys.foldl Atom.hash basis
  let basis := basis ^^^ (BitVec.ofNat 32 (type.key.type.toNat <<< 24) |||
    BitVec.ofNat 32 (type.value.type.toNat <<< 16) ||| BitVec.ofNat 32 datum.length)
  if type.isMap then datum.values.foldl Atom.hash basis else basis

/-! ## 3. Default values -/

def Atom.isDefault : Atom → Bool
  | .integer i => i == 0
  | .real bits => doubleEqual bits 0
  | .boolean b => !b
  | .string s => cstr s.toList == []
  | .uuid u => u == 0

def OvsdbType.default (type : OvsdbType) : Datum :=
  List.replicate type.nMin
    ⟨type.key.type.default, if type.isMap then some type.value.type.default else none⟩

def Datum.isDefault (datum : Datum) (type : OvsdbType) : Bool :=
  datum.length == type.nMin && datum.keys.all Atom.isDefault &&
    (!type.isMap || datum.values.all Atom.isDefault)

/-- `ovsdb_datum_remove_unsafe`: the last element takes the place of the one removed. -/
def Datum.removeUnsafe (datum : Datum) (i : Nat) : Datum :=
  (datum.getLast?.elim datum fun last => datum.set i last).dropLast

/-! ## 4. Writing JSON -/

def wrapJson (name : String) (wrapped : Json) : Json := .array [.string name, wrapped]

def Atom.toJson : Atom → Json
  | .integer i => .integer i
  | .real bits => .real bits
  | .boolean b => .bool b
  | .string s => .string s
  | .uuid u => wrapJson "uuid" (.string (uuidToString u))

def Element.toJson (e : Element) : Json :=
  match e.value with
  | some value => .array [e.key.toJson, value.toJson]
  | none => e.key.toJson

def Datum.toJson (datum : Datum) (type : OvsdbType) : Json :=
  if type.isMap then wrapJson "map" (.array (datum.map Element.toJson))
  else
    match datum with
    | [e] => e.key.toJson
    | _ => wrapJson "set" (.array (datum.map fun e => e.key.toJson))

/-! ## 5. Reading JSON -/

def jsonTypeToString : JsonType → String
  | .null => "null"
  | .false => "false"
  | .true => "true"
  | .object => "object"
  | .array => "array"
  | .integer | .real => "number"
  | .string => "string"

def unwrapJson (json : Json) (name : String) (valueType : JsonType) : Except OvsdbError Json :=
  let mismatch := ovsdbSyntaxError (some json)
    ("expected [\"" ++ name ++ "\", <" ++ jsonTypeToString valueType ++ ">]")
  match json with
  | .array [.string tag, value] =>
    if tag = name ∧ value.type = valueType then .ok value else .error mismatch
  | _ => .error mismatch

def parseJsonPair (json : Json) : Except OvsdbError (Json × Json) :=
  match json with
  | .array [elem0, elem1] => .ok (elem0, elem1)
  | _ => .error (ovsdbSyntaxError (some json) "expected 2-element array")

/-- `ovsdb_atom_parse_uuid` without a symbol table. -/
def atomParseUuid (json : Json) : Except OvsdbError Atom := do
  match ← unwrapJson json "uuid" .string with
  | .string s =>
    match uuidFromString s with
    | some u => return .uuid u
    | none => throw (ovsdbSyntaxError (some json) ("\"" ++ s ++ "\" is not a valid UUID"))
  -- Not reached: the value is a string.
  | _ => throw (ovsdbSyntaxError (some json) "")

/-- The `double` nearest to an integer; of two that are equally near, the one
    with an even last bit. -/
def doubleOfInteger (i : Int) : BitVec 64 :=
  let n := i.natAbs
  let e := n.log2
  let mantissa :=
    if e ≤ 52 then n <<< (52 - e)
    else
      let low := n % 2 ^ (e - 52)
      let half := 2 ^ (e - 53)
      let high := n >>> (e - 52)
      if low > half ∨ low = half ∧ high % 2 = 1 then high + 1 else high
  -- A mantissa that was rounded up to the next power of two adds to the exponent.
  let magnitude := if n = 0 then 0 else (e + 1022) * 2 ^ 52 + mantissa
  BitVec.ofNat 64 (if i < 0 then magnitude + 2 ^ 63 else magnitude)

def atomFromJsonUnchecked (type : AtomicType) (json : Json) : Except OvsdbError Atom :=
  match type, json with
  | .integer, .integer i => .ok (.integer i)
  | .real, .integer i => .ok (.real (doubleOfInteger i))
  | .real, .real bits => .ok (.real bits)
  | .boolean, .bool b => .ok (.boolean b)
  | .string, .string s => .ok (.string s)
  | .uuid, json => atomParseUuid json
  | type, json => .error (ovsdbSyntaxError (some json) ("expected " ++ type.toString))

def atomFromJson (d : Doubles) (base : BaseType) (json : Json) : Except OvsdbError Atom := do
  let atom ← atomFromJsonUnchecked base.type json
  match atomCheckConstraints d atom base with
  | none => return atom
  | some error => throw error

def elementFromJson (d : Doubles) (type : OvsdbType) (json : Json) :
    Except OvsdbError Element := do
  if type.isMap then
    let (key, value) ← parseJsonPair json
    return ⟨← atomFromJson d type.key key, some (← atomFromJson d type.value value)⟩
  else
    return ⟨← atomFromJson d type.key json, none⟩

/-- Whether `json` is an array that starts with the string `set`. -/
def isSetJson : Json → Bool
  | .array (.string tag :: _) => tag == "set"
  | _ => false

def datumFromJsonUnsorted (d : Doubles) (type : OvsdbType) (json : Json) :
    Except OvsdbError Datum := do
  if type.isMap || isSetJson json then
    let name := if type.isMap then "map" else "set"
    match ← unwrapJson json name .array with
    | .array elems =>
      if elems.length < type.nMin ∨ elems.length > type.nMax then
        throw (ovsdbSyntaxError (some json)
          (if type.nMin = 1 ∧ type.nMax = 1 then
            name ++ " must have exactly one member but " ++ toString elems.length ++ " are present"
          else
            name ++ " must have " ++ toString type.nMin ++ " to " ++ toString type.nMax ++
              " members but " ++ toString elems.length ++ " are present"))
      elems.mapM (elementFromJson d type)
    -- Not reached: the value is an array.
    | _ => throw (ovsdbSyntaxError (some json) "")
  else
    return [⟨← atomFromJson d type.key json, none⟩]

/-- `ovsdb_datum_from_json` without a symbol table. -/
def datumFromJson (d : Doubles) (type : OvsdbType) (json : Json) : Except OvsdbError Datum := do
  let datum ← datumFromJsonUnsorted d type json
  match datum.sort with
  | some datum => return datum
  | none =>
    throw (ovsdbError (if type.isMap then "map contains duplicate key" else "set contains duplicate"))

end Ovsgw.Ovsdb
