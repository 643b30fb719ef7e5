/-
  **Sorting** (`lib/sort.c`) **and dropping duplicates** (`ovsdb_datum_sort_unique`).

  The sort is a quicksort with random pivots.  A pivot that is the smallest element leaves all of
  the range to the second recursive call, so whether the sort ends depends on the random numbers.
  `ovsdb_datum_sort_unique` subtracts the old size from the new one and returns the result, which
  is meant to be the number of elements that were dropped, as a `size_t`.
-/
import Ovsgw.Ovsdb.DatumAlgebra
import Mathlib.Data.List.Rotate

namespace Ovsgw.Ovsdb

open List

/-! ## 1. `sort` -/

section
variable {α : Type} (compare : α → α → Ordering)

end

section
variable {α : Type} {compare : α → α → Ordering} {P : α → Prop} {l low high rest : List α} {x : α}

end

/-! ## 2. `ovsdb_datum_sort_unique` -/

/-- An element of a datum of a type whose reals are numbers. -/
structure Element.Comparable (type : OvsdbType) (e : Element) : Prop where
  key : e.key.Comparable type.key.type
  value : type.isMap = true → ∃ v, e.value = some v ∧ v.Comparable type.value.type

section
variable {type : OvsdbType} {kept : Element} {rest : Datum}

end

end Ovsgw.Ovsdb
