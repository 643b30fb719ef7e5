/-
  **Bit fields of natural numbers**: some bits of a number, and a number with some of its bits
  replaced.
-/
import Mathlib.Algebra.Group.Nat.Defs

namespace Ovsgw.Lib

/-- The `n` bits of `x` from bit `ofs` on. -/
def field (x ofs n : Nat) : Nat := x / 2 ^ ofs % 2 ^ n

/-- `x` with the low `n` bits of `v` in place of those from bit `ofs` on. -/
def withField (x ofs n v : Nat) : Nat :=
  2 ^ ofs * (2 ^ n * (x / 2 ^ (ofs + n)) + v % 2 ^ n) + x % 2 ^ ofs

/-- `r` is the first bit from `start` on that has the value, or `stop` if there is none before. -/
structure FirstBit (bit : Nat → Bool) (target : Bool) (start stop r : Nat) : Prop where
  ge : start ≤ r
  le : r ≤ stop
  none_below : ∀ i, start ≤ i → i < r → bit i ≠ target
  found : r < stop → bit r = target

/-- `r` is the last bit up to `start` that has the value, or `stop` if there is none above it. -/
structure LastBit (bit : Nat → Bool) (target : Bool) (start : Nat) (stop r : Int) : Prop where
  ge : stop ≤ r
  le : r ≤ start
  none_above : ∀ i : Nat, r < i → i ≤ start → bit i ≠ target
  found : ∀ i : Nat, r = i → stop < i → bit i = target

variable {x ofs n v i : Nat}

theorem testBit_field : (field x ofs n).testBit i = (decide (i < n) && x.testBit (ofs + i)) := by
  rw [field, Nat.testBit_mod_two_pow, Nat.testBit_div_two_pow, Nat.add_comm]

theorem testBit_withField : (withField x ofs n v).testBit i =
    if ofs ≤ i ∧ i < ofs + n then v.testBit (i - ofs) else x.testBit i := by
  rw [withField, Nat.testBit_two_pow_mul_add _ (Nat.mod_lt _ (Nat.two_pow_pos ofs)),
    Nat.testBit_two_pow_mul_add _ (Nat.mod_lt _ (Nat.two_pow_pos n)), Nat.testBit_mod_two_pow,
    Nat.testBit_mod_two_pow, Nat.testBit_div_two_pow]
  by_cases hlow : i < ofs
  · rw [if_pos hlow, if_neg (by omega), decide_eq_true hlow, Bool.true_and]
  · rw [if_neg hlow]
    by_cases hhigh : i - ofs < n
    · rw [if_pos hhigh, if_pos (by omega), decide_eq_true hhigh, Bool.true_and]
    · rw [if_neg hhigh, if_neg (by omega), show i - ofs - n + (ofs + n) = i by omega]

theorem field_eq_zero_iff :
    field x ofs n = 0 ↔ ∀ i, ofs ≤ i → i < ofs + n → x.testBit i = false := by
  constructor
  · intro h i hge hlt
    have hbit := congrArg (Nat.testBit · (i - ofs)) h
    simpa [testBit_field, hge, show i - ofs < n by omega] using hbit
  · intro h
    apply Nat.eq_of_testBit_eq
    intro j
    rw [testBit_field, Nat.zero_testBit]
    by_cases hj : j < n
    · rw [h (ofs + j) (by omega) (by omega), Bool.and_false]
    · rw [decide_eq_false hj, Bool.false_and]

theorem LastBit.of_found {bit : Nat → Bool} {target : Bool} {start q : Nat} {stop : Int}
    (hstop : stop ≤ start) (hq : q ≤ start) (hbit : bit q = target)
    (hnone : ∀ i, q < i → i ≤ start → bit i ≠ target) :
    LastBit bit target start stop (max q stop) where
  ge := by omega
  le := by omega
  none_above i hi hle := hnone i (by omega) hle
  found i hi hlt := by
    obtain rfl : q = i := by omega
    exact hbit

end Ovsgw.Lib
