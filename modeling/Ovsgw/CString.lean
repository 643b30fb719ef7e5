/-
  **C strings and the numbers in them.**

  A C string is the list of its characters before the terminating null byte, and a `char` is a
  `Char`: the bytes of a text in UTF-8 are the characters from U+0000 to U+00FF.
-/
import Ovsgw.Json
import Mathlib.Data.List.TakeWhile
import Mathlib.Tactic.IntervalCases

namespace Ovsgw

open List

/-! ## 1. Strings -/

def nul : Char := Char.ofNat 0

/-- `ds_cstr`: what a buffer holds when it is read as a C string. -/
def cstr (buffer : List Char) : List Char := buffer.takeWhile (· != nul)

variable {s : List Char}

theorem cstr_of_not_mem (h : nul ∉ s) : cstr s = s := by
  rw [cstr, takeWhile_eq_self_iff]
  intro c hc
  have hne : c ≠ nul := fun heq => h (heq ▸ hc)
  simpa using hne

/-- `isspace`, in the C locale. -/
def isSpace (c : Char) : Bool := c == ' ' || ('\t' ≤ c && c ≤ '\r')

/-! ## 2. Numbers -/

def ullongMax : Nat := 2 ^ 64 - 1

def llongMax : Nat := 2 ^ 63 - 1

def IsLongLong (i : Int) : Prop := -(llongMax : Int) - 1 ≤ i ∧ i ≤ llongMax

instance (i : Int) : Decidable (IsLongLong i) := inferInstanceAs (Decidable (_ ∧ _))

def uintMax : Nat := 2 ^ 32 - 1

def intMax : Nat := 2 ^ 31 - 1

/-- `%lld`. -/
def decimal (i : Int) : List Char :=
  if i < 0 then '-' :: Nat.toDigits 10 i.natAbs else Nat.toDigits 10 i.natAbs

def digitValue (c : Char) : Nat := c.toNat - '0'.toNat

/-- Whether the text starts with a digit; the end of the string is none. -/
def startsWithDigit (cp : List Char) : Bool := cp.head?.any Char.isDigit

/-- The text after the blanks and the sign that may come before a number, and
    whether the sign is a minus. -/
def skipSign (s : List Char) : Bool × List Char :=
  let s := s.dropWhile isSpace
  if s.head? = some '-' then (true, s.tail)
  else if s.head? = some '+' then (false, s.tail)
  else (false, s)

/-- What `strtoul` and `strtoll` find in base 10: the sign, the number and the
    text after it, `none` if there is no number. -/
def scanNumber (s : List Char) : Option (Bool × Nat × List Char) :=
  let negative := (skipSign s).1
  let digits := (skipSign s).2
  if startsWithDigit digits then
    some (negative, Nat.ofDigitChars 10 (digits.takeWhile Char.isDigit) 0,
      digits.dropWhile Char.isDigit)
  else none

/-- `strtoul` in base 10: the number and the text after it. -/
def strtoul (s : List Char) : Nat × List Char :=
  match scanNumber s with
  | none => (0, s)
  | some (negative, n, rest) =>
    (if n > ullongMax then ullongMax else if negative then u64 (2 ^ 64 - n) else n, rest)

/-- `str_to_llong_with_tail` in base 10: the number, if there is one in range,
    and the text after it. -/
def strToLlongWithTail (s : List Char) : Option Int × List Char :=
  match scanNumber s with
  | none => (none, s)
  | some (negative, n, rest) =>
    let i : Int := if negative then -n else n
    (if IsLongLong i then some i else none, rest)

def strToLlong (s : List Char) : Option Int :=
  match strToLlongWithTail s with
  | (i, []) => i
  | (_, _ :: _) => none

def strToLlongRange (s : List Char) : Option (Int × Int) :=
  match strToLlongWithTail s with
  | (some first, '-' :: tail) => (strToLlong tail).map (first, ·)
  | _ => none

variable {i : Int}

theorem isLongLong_of_strToLlongWithTail {tail : List Char}
    (h : strToLlongWithTail s = (some i, tail)) : IsLongLong i := by
  rw [strToLlongWithTail] at h
  split at h
  · cases h
  · simp only [Prod.mk.injEq, Option.ite_none_right_eq_some, Option.some.injEq] at h
    exact h.1.2 ▸ h.1.1

theorem isLongLong_of_strToLlong (h : strToLlong s = some i) : IsLongLong i := by
  rw [strToLlong] at h
  split at h
  · next heq => exact isLongLong_of_strToLlongWithTail (h ▸ heq)
  · cases h

theorem isLongLong_of_strToLlongRange {first last : Int}
    (h : strToLlongRange s = some (first, last)) : IsLongLong first ∧ IsLongLong last := by
  rw [strToLlongRange] at h
  split at h
  · next heq =>
    obtain ⟨i, hi, hpair⟩ := Option.map_eq_some_iff.mp h
    cases hpair
    exact ⟨isLongLong_of_strToLlongWithTail heq, isLongLong_of_strToLlong hi⟩
  · cases h

variable {c : Char} {p : Char → Bool} {n : Nat}

theorem isDigit_toDigits (h : c ∈ Nat.toDigits 10 n) : c.isDigit = true :=
  Nat.isDigit_of_mem_toDigits (by decide) (by decide) h

theorem mem_decimal (h : c ∈ decimal i) : c = '-' ∨ c.isDigit = true := by
  rw [decimal] at h
  split at h
  · exact (mem_cons.mp h).imp id isDigit_toDigits
  · exact .inr (isDigit_toDigits h)

theorem decimal_ne_nil (i : Int) : decimal i ≠ [] := by
  rw [decimal]
  split
  · exact cons_ne_nil _ _
  · exact Nat.toDigits_ne_nil

theorem nul_not_mem_decimal (i : Int) : nul ∉ decimal i := by
  intro hmem
  rcases mem_decimal hmem with h | h <;> exact absurd h (by decide)

theorem not_mem_of_all {cs : List Char} (hcs : cs.all (!p ·) = true) (h : p c = true) : c ∉ cs := by
  intro hmem
  have hc := all_eq_true.mp hcs c hmem
  rw [h] at hc
  cases hc

/-- A character of a kind that has none of the characters in which `isspace` is true. -/
theorem isSpace_eq_false
    (hp : [' ', '\t', '\n', '\x0b', '\x0c', '\r'].all (!p ·) = true) (h : p c = true) :
    isSpace c = false := by
  rw [isSpace, Bool.eq_false_iff, ne_eq, Bool.or_eq_true, Bool.and_eq_true, beq_iff_eq,
    decide_eq_true_eq, decide_eq_true_eq]
  intro hspace
  apply not_mem_of_all hp h
  rcases hspace with rfl | ⟨hlow, hhigh⟩
  · decide
  · have hlow : 9 ≤ c.toNat := hlow
    have hhigh : c.toNat ≤ 13 := hhigh
    rw [← Char.ofNat_toNat c]
    interval_cases c.toNat <;> decide

theorem skipSign_toDigits (n : Nat) (rest : List Char) :
    skipSign (Nat.toDigits 10 n ++ rest) = (false, Nat.toDigits 10 n ++ rest) := by
  obtain ⟨c, cs, hdigits⟩ := exists_cons_of_ne_nil (Nat.toDigits_ne_nil (n := n) (b := 10))
  have hc : c.isDigit = true := isDigit_toDigits (hdigits ▸ mem_cons_self)
  have hspace := isSpace_eq_false (by decide) hc
  have hplus : c ≠ '+' := by
    rintro rfl
    exact absurd hc (by decide)
  have hminus : c ≠ '-' := by
    rintro rfl
    exact absurd hc (by decide)
  simp [skipSign, hdigits, hspace, hplus, hminus]

theorem skipSign_decimal (i : Int) (rest : List Char) :
    skipSign (decimal i ++ rest) = (decide (i < 0), Nat.toDigits 10 i.natAbs ++ rest) := by
  rw [decimal]
  split
  next h => simp [skipSign, isSpace, h]
  next h => rw [skipSign_toDigits, decide_eq_false h]

theorem scanNumber_decimal (i : Int) {rest : List Char} (h : startsWithDigit rest = false) :
    scanNumber (decimal i ++ rest) = some (decide (i < 0), i.natAbs, rest) := by
  have hall : ∀ c ∈ Nat.toDigits 10 i.natAbs, c.isDigit = true := fun c hc => isDigit_toDigits hc
  have htake : (Nat.toDigits 10 i.natAbs ++ rest).takeWhile Char.isDigit =
      Nat.toDigits 10 i.natAbs := by
    rw [takeWhile_append_of_pos hall]
    cases rest with
    | nil => simp
    | cons c rest => simp [show c.isDigit = false from h]
  have hdrop : (Nat.toDigits 10 i.natAbs ++ rest).dropWhile Char.isDigit = rest := by
    rw [dropWhile_append_of_pos hall]
    cases rest with
    | nil => rfl
    | cons c rest => simp [show c.isDigit = false from h]
  have hstart : startsWithDigit (Nat.toDigits 10 i.natAbs ++ rest) = true := by
    obtain ⟨c, cs, hdigits⟩ :=
      exists_cons_of_ne_nil (Nat.toDigits_ne_nil (n := i.natAbs) (b := 10))
    rw [hdigits]
    exact hall c (hdigits ▸ mem_cons_self)
  simp only [scanNumber, skipSign_decimal, hstart, htake, hdrop, if_true,
    Nat.ofDigitChars_ten_toDigits]

/-- `strtoul` reads the digits of a number up to the first character that is none. -/
theorem strtoul_toDigits {rest : List Char} (h : n ≤ ullongMax)
    (hrest : startsWithDigit rest = false) : strtoul (Nat.toDigits 10 n ++ rest) = (n, rest) := by
  have hscan := scanNumber_decimal n hrest
  rw [decimal, if_neg (by omega), Int.natAbs_natCast, decide_eq_false (by omega)] at hscan
  rw [strtoul, hscan]
  simp [Nat.not_lt.mpr h]

/-- What `strtoul` leaves is the end of what it was given. -/
theorem strtoul_suffix (s : List Char) : (strtoul s).2 <:+ s := by
  have hspace : s.dropWhile isSpace <:+ s := dropWhile_suffix _
  have hsign : (skipSign s).2 <:+ s := by
    rw [skipSign]
    split
    · exact (tail_suffix _).trans hspace
    · split
      · exact (tail_suffix _).trans hspace
      · exact hspace
  rw [strtoul]
  split
  · exact suffix_rfl
  next heq =>
    simp only [scanNumber] at heq
    split at heq
    · cases heq
      exact (dropWhile_suffix _).trans hsign
    · cases heq

theorem strToLlongWithTail_decimal (hi : IsLongLong i) {rest : List Char}
    (h : startsWithDigit rest = false) :
    strToLlongWithTail (decimal i ++ rest) = (some i, rest) := by
  have hvalue : (if decide (i < 0) = true then -(i.natAbs : Int) else i.natAbs) = i := by
    by_cases hneg : i < 0
    · rw [if_pos (decide_eq_true hneg)]
      omega
    · rw [if_neg (by simpa using hneg)]
      omega
  rw [strToLlongWithTail, scanNumber_decimal i h]
  dsimp only
  rw [hvalue, if_pos hi]

theorem strToLlong_decimal (hi : IsLongLong i) : strToLlong (decimal i) = some i := by
  have htail := @strToLlongWithTail_decimal i hi [] rfl
  rw [append_nil] at htail
  rw [strToLlong, htail]

theorem strToLlongRange_decimal (hi : IsLongLong i) : strToLlongRange (decimal i) = none := by
  have htail := @strToLlongWithTail_decimal i hi [] rfl
  rw [append_nil] at htail
  rw [strToLlongRange, htail]

end Ovsgw
