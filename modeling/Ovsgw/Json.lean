/-
  **`struct json`** (`include/openvswitch/json.h`).

  An object is the association list of its `shash`, an integer is the `long
  long int` the C structure stores, and a real is kept as the bit pattern of
  its `double`: nothing here computes with it.
-/
import Mathlib.Algebra.Group.Nat.Defs

namespace Ovsgw

/-- A JSON value as `lib/json.c` represents it in memory. -/
inductive Json where
  | null
  | bool (b : Bool)
  | integer (i : Int)
  | real (bits : BitVec 64)
  | string (s : String)
  | array (elems : List Json)
  | object (members : List (String × Json))

/-- `json_object_put` on a name that is not there yet. -/
def Json.put (members : List (String × Json)) (name : String) (value : Json) :
    List (String × Json) :=
  members ++ [(name, value)]

/-- A UUID: the four 32-bit parts of `struct uuid`, most significant first. -/
abbrev Uuid := BitVec 128

/-- Unsigned 64-bit arithmetic: the value a `uint64_t` keeps of `n`. -/
def u64 (n : Nat) : Nat := n % 2 ^ 64

theorem u64_of_lt {n : Nat} (h : n < 2 ^ 64) : u64 n = n := Nat.mod_eq_of_lt h

end Ovsgw
