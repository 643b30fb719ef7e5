/-
  **One's complement sums of 16-bit words**: adding the carries back in keeps a sum modulo
  65535, so that a sum and its complement add up to the number that is all ones.
-/
import Mathlib.Algebra.Group.Nat.Defs

namespace Ovsgw.Lib

/-- Add the carries of a sum to its low 16 bits, until there are none. -/
def foldCarries (n : Nat) : Nat :=
  if n / 2 ^ 16 = 0 then n else foldCarries (n % 2 ^ 16 + n / 2 ^ 16)
termination_by n
decreasing_by omega

theorem foldCarries_lt (n : Nat) : foldCarries n < 2 ^ 16 := by
  fun_induction foldCarries n with
  | case1 n h => omega
  | case2 n h ih => exact ih

theorem foldCarries_mod (n : Nat) : foldCarries n % 65535 = n % 65535 := by
  fun_induction foldCarries n with
  | case1 n h => rfl
  | case2 n h ih =>
    rw [ih]
    omega

theorem foldCarries_pos {n : Nat} (hn : 0 < n) : 0 < foldCarries n := by
  fun_induction foldCarries n with
  | case1 n h => exact hn
  | case2 n h ih => exact ih (by omega)

theorem foldCarries_eq_ones {n : Nat} (hn : 0 < n) (hmod : n % 65535 = 0) :
    foldCarries n = 65535 := by
  have hlt := foldCarries_lt n
  have hpos := foldCarries_pos hn
  have heq := foldCarries_mod n
  omega

end Ovsgw.Lib
