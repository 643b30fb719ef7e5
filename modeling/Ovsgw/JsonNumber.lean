/-
  **Numbers in JSON texts** (`json_lex_number`): which of them become integers.

  A significand of `ULLONG_MAX / 10` takes one more digit, whatever it is, so it wraps around if
  the digit is 6 or more.  Apart from that, and from exponents that are refused, a number is an
  integer token just if its value is an integer that fits.
-/
import Mathlib.Tactic
import Ovsgw.JsonText
import Ovsgw.Scan

namespace Ovsgw

open List
open Decimal (addInteger addFraction)

/-! ## 1. The grammar -/

/-- The digits of a number before and after the decimal point, what is before the digits of the
    exponent, and those digits. -/
structure NumberText where
  negative : Bool := false
  integer : List Char
  fraction : List Char := []
  mark : List Char := []
  exponent : List Char := []

namespace NumberText

structure Valid (t : NumberText) : Prop where
  nonempty : t.integer ≠ []
  leading : t.integer.head? = some '0' → t.integer = ['0']
  digits : ∀ c ∈ t.integer ++ t.fraction ++ t.exponent, c.isDigit = true
  exponent : t.mark = [] ∧ t.exponent = [] ∨ t.exponent ≠ [] ∧
    t.mark ∈ [['e'], ['E'], ['e', '+'], ['E', '+'], ['e', '-'], ['E', '-']]

def text (t : NumberText) : List Char :=
  (if t.negative then ['-'] else []) ++ (t.integer ++
    ((if t.fraction = [] then [] else '.' :: t.fraction) ++ (t.mark ++ t.exponent)))

def signedExponent (t : NumberText) : Int :=
  (if t.mark[1]? = some '-' then -1 else 1) * Nat.ofDigitChars 10 t.exponent 0

/-- The power of ten by which the digits are multiplied. -/
def power (t : NumberText) : Int := t.signedExponent - t.fraction.length

/-- The value of a text with these digits. -/
def valueOf (t : NumberText) (digits : Nat) : ℚ :=
  (if t.negative then -1 else 1) * (digits * 10 ^ t.power)

def value (t : NumberText) : ℚ := t.valueOf (Nat.ofDigitChars 10 (t.integer ++ t.fraction) 0)

/-- The exponent is too large for an `int`, alone or with the power of ten before it. -/
def RefusedAt (t : NumberText) (pow10 : Int) : Prop :=
  t.mark ≠ [] ∧ (intMax / 10 ≤ Nat.ofDigitChars 10 t.exponent.dropLast 0 ∨
    if t.mark[1]? = some '-' then pow10 + t.signedExponent < -(intMax + 1 : Int)
    else pow10 + t.signedExponent > intMax)

end NumberText

/-- No digit makes the significand wrap around. -/
def NoWrap : Nat → List Char → Prop
  | _, [] => True
  | v, c :: cs => (v = ullongMax / 10 → digitValue c ≤ 5) ∧ NoWrap (10 * v + digitValue c) cs

/-- The value of digits after which the significand starts anew where it wraps around. -/
def wrappedDigits : Nat → List Char → Nat
  | v, [] => v
  | v, c :: cs =>
    wrappedDigits (if v = ullongMax / 10 then u64 (10 * v + digitValue c)
      else 10 * v + digitValue c) cs

/-- How many digits of a number are left out of the significand. -/
def excessDigits (v : Nat) : Nat := if v / 10 ≤ ullongMax / 10 then 0 else excessDigits (v / 10) + 1

def NumberText.wrapped (t : NumberText) : Nat := wrappedDigits 0 (t.integer ++ t.fraction)

def NumberText.Refused (t : NumberText) : Prop :=
  t.RefusedAt (excessDigits t.wrapped - t.fraction.length)

def IsInteger (q : ℚ) : Prop := ∃ i, IsLongLong i ∧ q = i

/-- The texts that are read as they should be: an exponent is refused only where the value is no
    integer that fits, and where digits wrap around, what is left is none either. -/
structure NumberText.Exact (t : NumberText) : Prop where
  exponent : t.Refused → ¬ IsInteger t.value
  digits : ¬ t.Refused → NoWrap 0 (t.integer ++ t.fraction) ∨ ¬ IsInteger (t.valueOf t.wrapped)

/-! ## 2. The loops over the digits -/

/-- The variables after digits of value `v`: the last `k` of them did not fit. -/
def Decimal.Reads (n : Decimal) (v : Nat) : Prop :=
  ∃ k rest : Nat, v = n.significand * 10 ^ k + rest ∧ rest < 10 ^ k ∧
    (n.imprecise = true ↔ rest ≠ 0) ∧ n.pow10 = k ∧ n.significand ≤ ullongMax ∧
    (0 < k → ullongMax / 10 < n.significand)

def Decimal.shift (n : Decimal) (e : Int) : Decimal := { n with pow10 := n.pow10 + e }

variable {n : Decimal} {v : Nat} {c : Char} {cs : List Char} {m : Nat}

theorem digitValue_spec (h : c.isDigit = true) :
    digitValue c ≤ 9 ∧ (digitValue c = 0 ↔ c = '0') := by
  have hbounds : 48 ≤ c.toNat ∧ c.toNat ≤ 57 := by
    simpa [Char.isDigit, UInt32.le_iff_toNat_le] using h
  rw [← Char.toNat_inj, digitValue, show '0'.toNat = 48 from rfl]
  omega

theorem Decimal.Reads.addInteger (h : n.Reads v) (hc : c.isDigit = true) :
    (n.addInteger c).Reads (if v = ullongMax / 10 then u64 (10 * v + digitValue c)
      else 10 * v + digitValue c) := by
  obtain ⟨k, rest, hvalue, hrest, himprecise, hpow, hbound, hfull⟩ := h
  obtain ⟨hle, hzero⟩ := digitValue_spec hc
  rw [Decimal.addInteger]
  split
  · next hsmall =>
    obtain rfl : k = 0 := by
      by_contra hk
      exact absurd (hfull (Nat.pos_of_ne_zero hk)) (Nat.not_lt.mpr hsmall)
    obtain rfl : rest = 0 := by simpa using hrest
    have hu64 : u64 (n.significand * 10 + digitValue c) ≤ ullongMax :=
      Nat.le_pred_of_lt (Nat.mod_lt _ (by decide))
    refine ⟨0, 0, ?_, by simp, by simpa using himprecise, hpow, hu64, by omega⟩
    obtain rfl : v = n.significand := by simpa using hvalue
    split
    · simp [Nat.mul_comm]
    · next hne =>
      have hfits : n.significand * 10 + digitValue c < 2 ^ 64 := by
        simp only [ullongMax] at *
        omega
      simp [u64_of_lt hfits, Nat.mul_comm]
  · next hlarge =>
    have hpos := Nat.pow_pos (n := k) (by decide : 0 < 10)
    have hne : v ≠ ullongMax / 10 := by
      have := Nat.le_mul_of_pos_right n.significand hpos
      omega
    rw [if_neg hne]
    refine ⟨k + 1, 10 * rest + digitValue c, ?_, ?_, ?_, ?_, hbound,
      fun _ => Nat.lt_of_not_le hlarge⟩
    · rw [hvalue, Nat.pow_succ]
      ring
    · rw [Nat.pow_succ]
      omega
    · by_cases h0 : c = '0' <;> simp_all
    · simp [hpow]

theorem Decimal.Reads.foldl (h : n.Reads v) (hcs : ∀ c ∈ cs, c.isDigit = true) :
    (cs.foldl Decimal.addInteger n).Reads (wrappedDigits v cs) := by
  induction cs generalizing n v with
  | nil => exact h
  | cons c cs ih =>
    obtain ⟨hc, hcs⟩ := forall_mem_cons.mp hcs
    exact ih (h.addInteger hc) hcs

theorem wrappedDigits_eq (h : NoWrap v cs) : wrappedDigits v cs = Nat.ofDigitChars 10 cs v := by
  induction cs generalizing v with
  | nil => rfl
  | cons c cs ih =>
    have hvalue : (if v = ullongMax / 10 then u64 (10 * v + digitValue c)
        else 10 * v + digitValue c) = 10 * v + digitValue c := by
      split
      · next hv =>
        have hle := h.1 hv
        apply u64_of_lt
        simp only [ullongMax] at hv
        omega
      · rfl
    rw [wrappedDigits, hvalue, ih h.2, Nat.ofDigitChars_cons]
    rfl

/-- The power of ten counts the digits that are left out. -/
theorem Decimal.Reads.pow10_eq (h : n.Reads v) : n.pow10 = excessDigits v := by
  obtain ⟨k, rest, hvalue, hrest, -, hpow, hbound, hfull⟩ := h
  rw [hpow, Int.natCast_inj]
  clear hpow
  induction k generalizing v rest with
  | zero =>
    rw [excessDigits, if_pos]
    rw [Nat.pow_zero] at hvalue hrest
    omega
  | succ k ih =>
    have hpos := Nat.pow_pos (n := k) (by decide : 0 < 10)
    have hmul := Nat.le_mul_of_pos_right n.significand hpos
    rw [Nat.pow_succ] at hvalue hrest
    rw [← Nat.mul_assoc] at hvalue
    have hdiv : v / 10 = n.significand * 10 ^ k + rest / 10 := by omega
    have hlarge := hfull (Nat.succ_pos k)
    rw [excessDigits, if_neg (by omega), ← ih (rest / 10) hdiv (by omega) fun _ => hlarge]

theorem foldl_addFraction (e : Int) : cs.foldl addFraction (n.shift e) =
    (cs.foldl addInteger n).shift (e - cs.length) := by
  induction cs generalizing n e with
  | nil => simp
  | cons c cs ih =>
    have hstep : (n.shift e).addFraction c = (n.addInteger c).shift (e - 1) := by
      by_cases hsmall : n.significand ≤ ullongMax / 10 <;>
        simp [addFraction, addInteger, Decimal.shift, hsmall] <;> omega
    rw [foldl_cons, hstep, ih, foldl_cons, length_cons]
    congr 1
    push_cast
    omega

/-! ## 3. The text -/

section
variable {t : NumberText} {rest : List Char}

theorem lexIntegerPart_append (h : t.Valid) (hrest : ∀ c ∈ rest.head?, c.isDigit = false) :
    lexIntegerPart (t.integer ++ rest) = .ok (t.integer.foldl addInteger {}, rest) := by
  have hall : ∀ c ∈ t.integer, c.isDigit = true := fun c hc => h.digits c (by simp [hc])
  obtain ⟨c, cs, hcs⟩ := exists_cons_of_ne_nil h.nonempty
  by_cases hzero : c = '0'
  · have hone := h.leading (by rw [hcs, hzero]; rfl)
    have hstop : startsWithDigit rest = false := by
      cases rest with
      | nil => rfl
      | cons c rest => exact hrest c rfl
    simp [hone, lexIntegerPart, hstop]
    rfl
  · rw [lexIntegerPart, takeWhile_append_stop hall hrest, dropWhile_append_stop hall hrest, hcs,
      if_neg (by simpa using hzero), if_pos]
    exact hall c (by simp [hcs])

theorem lexFraction_append (h : t.Valid) (hrest : ∀ c ∈ rest.head?, c = 'e' ∨ c = 'E') :
    lexFraction n ((if t.fraction = [] then [] else '.' :: t.fraction) ++ rest) =
      .ok (t.fraction.foldl addFraction n, rest) := by
  by_cases hempty : t.fraction = []
  · have hdot : rest.head? ≠ some '.' := fun hdot => by simpa using hrest '.' hdot
    simp [hempty, lexFraction, hdot]
  · have hall : ∀ c ∈ t.fraction, c.isDigit = true := fun c hc => h.digits c (by simp [hc])
    have hstop : ∀ c ∈ rest.head?, c.isDigit = false := fun c hc => by
      rcases hrest c hc with rfl | rfl <;> rfl
    obtain ⟨c, cs, hcs⟩ := exists_cons_of_ne_nil hempty
    have hstart : startsWithDigit (t.fraction ++ rest) = true := by
      rw [hcs]
      exact hall c (by simp [hcs])
    simp [hempty, lexFraction, hstart, takeWhile_append_stop hall hstop,
      dropWhile_append_stop hall hstop]

theorem lexExponentDigits_eq {e : Nat} (h : lexExponentDigits e cs = some v) :
    v = Nat.ofDigitChars 10 cs e := by
  induction cs generalizing e with
  | nil => exact (Option.some.inj h).symm
  | cons c cs ih =>
    rw [lexExponentDigits] at h
    split at h
    · cases h
    · rw [Nat.ofDigitChars_cons, Nat.mul_comm]
      exact ih h

theorem le_ofDigitChars (cs : List Char) (v : Nat) : v ≤ Nat.ofDigitChars 10 cs v := by
  induction cs generalizing v with
  | nil => exact Nat.le_refl v
  | cons c cs ih => exact (by omega : v ≤ 10 * v + digitValue c).trans (ih _)

theorem lexExponentDigits_none {e : Nat} (hne : cs ≠ []) : lexExponentDigits e cs = none ↔
    intMax / 10 ≤ Nat.ofDigitChars 10 cs.dropLast e := by
  induction cs generalizing e with
  | nil => exact absurd rfl hne
  | cons c cs ih =>
    rw [lexExponentDigits]
    cases cs with
    | nil => simp [lexExponentDigits]
    | cons c' cs =>
      have hle := le_ofDigitChars (c :: (c' :: cs).dropLast) e
      rw [dropLast_cons_cons, Nat.ofDigitChars_cons] at *
      split
      · simp only [true_iff]
        omega
      · rw [ih (cons_ne_nil _ _), Nat.mul_comm]
        rfl

theorem lexExponent_append (h : t.Valid) :
    lexExponent n (t.mark ++ t.exponent) = .error "exponent outside valid range" ∧
      t.RefusedAt n.pow10 ∨
    lexExponent n (t.mark ++ t.exponent) = .ok (n.shift t.signedExponent, []) ∧
      ¬ t.RefusedAt n.pow10 := by
  rcases h.exponent with ⟨hmark, hexponent⟩ | ⟨hne, hmark⟩
  · refine .inr ?_
    simp [hmark, hexponent, lexExponent, NumberText.signedExponent, Decimal.shift,
      NumberText.RefusedAt]
  have hall : ∀ c ∈ t.exponent, c.isDigit = true := fun c hc => h.digits c (by simp [hc])
  obtain ⟨c, cs, hcs⟩ := exists_cons_of_ne_nil hne
  have hc : c.isDigit = true := hall c (by simp [hcs])
  have hstart : startsWithDigit t.exponent = true := by rw [hcs]; exact hc
  have hsign : ∀ sign ∈ ['+', '-'], t.exponent.head? ≠ some sign := by
    intro sign hsign hhead
    obtain rfl : c = sign := by simpa [hcs] using hhead
    rcases mem_pair.mp hsign with rfl | rfl <;> cases hc
  have hread := And.intro (takeWhile_eq_self_iff.mpr hall) (dropWhile_eq_nil_iff.mpr hall)
  have hlarge := @lexExponentDigits_none t.exponent 0 hne
  simp only [mem_cons, not_mem_nil, or_false] at hmark
  cases hlex : lexExponentDigits 0 t.exponent with
  | none =>
    left
    have hlarge := hlarge.mp hlex
    rcases hmark with hmark | hmark | hmark | hmark | hmark | hmark <;>
      simp [hmark, lexExponent, hsign, hstart, hread, hlex, NumberText.RefusedAt, hlarge]
  | some v =>
    have hsmall : ¬ intMax / 10 ≤ Nat.ofDigitChars 10 t.exponent.dropLast 0 := by
      rw [← hlarge, hlex]
      rintro ⟨⟩
    obtain rfl := lexExponentDigits_eq hlex
    rcases hmark with hmark | hmark | hmark | hmark | hmark | hmark <;>
      simp [hmark, lexExponent, hsign, hstart, hread, hlex, NumberText.signedExponent,
        Decimal.shift, NumberText.RefusedAt, hsmall, ← Int.sub_eq_add_neg] <;> omega

/-- What `json_lex_number` has read at the end of a text. -/
def NumberText.decimal (t : NumberText) : Decimal :=
  ((t.integer ++ t.fraction).foldl addInteger {}).shift t.power

theorem NumberText.reads (h : t.Valid) :
    ((t.integer ++ t.fraction).foldl Decimal.addInteger {}).Reads t.wrapped := by
  have hstart : Decimal.Reads {} 0 := ⟨0, 0, by simp⟩
  exact hstart.foldl fun c hc => h.digits c (mem_append_left _ hc)

theorem jsonLexNumber_text (h : t.Valid) (d : Doubles) :
    jsonLexNumber d t.text = .error "exponent outside valid range" ∧ t.Refused ∨
    jsonLexNumber d t.text = numberToken d t.text t.negative t.decimal ∧ ¬ t.Refused := by
  have hmark : ∀ c ∈ (t.mark ++ t.exponent).head?, c = 'e' ∨ c = 'E' := by
    rcases h.exponent with ⟨hmark, hexponent⟩ | ⟨-, hmark⟩
    · simp [hmark, hexponent]
    · simp only [mem_cons, not_mem_nil, or_false] at hmark
      rcases hmark with hmark | hmark | hmark | hmark | hmark | hmark <;> simp [hmark]
  have hpoint : ∀ c ∈ ((if t.fraction = [] then [] else '.' :: t.fraction) ++
      (t.mark ++ t.exponent)).head?, c.isDigit = false := by
    intro c hc
    split at hc
    · rcases hmark c hc with rfl | rfl <;> rfl
    · cases hc
      rfl
  have hsign : decide (t.text.head? = some '-') = t.negative := by
    cases hneg : t.negative with
    | true => simp [NumberText.text, hneg]
    | false =>
      obtain ⟨c, cs, hcs⟩ := exists_cons_of_ne_nil h.nonempty
      have hc : c.isDigit = true := h.digits c (by simp [hcs])
      have hne : c ≠ '-' := fun hc' => absurd hc (by rw [hc']; decide)
      simp [NumberText.text, hneg, hcs, hne]
  have htail : (if t.negative then t.text.tail else t.text) = t.integer ++
      ((if t.fraction = [] then [] else '.' :: t.fraction) ++ (t.mark ++ t.exponent)) := by
    cases hneg : t.negative <;> simp [NumberText.text, hneg]
  have hfold := @foldl_addFraction (t.integer.foldl addInteger {}) t.fraction 0
  simp only [Decimal.shift, Int.add_zero, ← foldl_append] at hfold
  have hdecimal : (t.fraction.foldl addFraction
      (t.integer.foldl addInteger {})).shift t.signedExponent = t.decimal := by
    simp [hfold, Decimal.shift, NumberText.decimal, NumberText.power]
    omega
  have hpow10 : (t.fraction.foldl addFraction (t.integer.foldl addInteger {})).pow10 =
      excessDigits t.wrapped - t.fraction.length := by
    rw [hfold, ← (NumberText.reads h).pow10_eq]
    simp only
    omega
  rw [← hdecimal, jsonLexNumber, hsign, htail, lexIntegerPart_append h hpoint]
  simp only [bind, Except.bind, lexFraction_append h hmark, NumberText.Refused, ← hpow10]
  exact (lexExponent_append h).imp (fun hread => ⟨by rw [hread.1], hread.2⟩)
    fun hread => ⟨by rw [hread.1]; rfl, hread.2⟩

end

/-! ## 4. The token -/

theorem scaleUp_spec (s p : Nat) : (scaleUp s p).1 * 10 ^ (scaleUp s p).2 = s * 10 ^ p ∧
    ((scaleUp s p).2 ≠ 0 → ullongMax / 10 ≤ (scaleUp s p).1) := by
  fun_induction scaleUp s p with
  | case1 => simp
  | case2 s p hlt ih => exact ⟨ih.1.trans (by rw [Nat.mul_assoc, ← Nat.pow_succ']), ih.2⟩
  | case3 s p hge => exact ⟨rfl, fun _ => Nat.not_lt.mp hge⟩

theorem scaleDown_spec (s p : Nat) : (scaleDown s p).1 * 10 ^ p = s * 10 ^ (scaleDown s p).2 ∧
    ((scaleDown s p).2 ≠ 0 → (scaleDown s p).1 % 10 ≠ 0) := by
  fun_induction scaleDown s p with
  | case1 => simp
  | case2 s p hdvd ih =>
    refine ⟨?_, ih.2⟩
    rw [Nat.pow_succ, ← Nat.mul_assoc, ih.1, Nat.mul_right_comm,
      Nat.div_mul_cancel (Nat.dvd_of_mod_eq_zero hdvd)]
  | case3 s p hne => exact ⟨rfl, fun _ => hne⟩

/-- What the scaling loops leave of a power of ten. -/
theorem Decimal.scale_spec (n : Decimal) : ∃ s : Int, s.natAbs = n.scale.2 ∧
    (n.significand : ℚ) * 10 ^ n.pow10 = n.scale.1 * 10 ^ s ∧
    (0 < s → ullongMax / 10 ≤ n.scale.1) ∧ (s < 0 → n.scale.1 % 10 ≠ 0) := by
  rw [Decimal.scale]
  split
  · next hneg =>
    obtain ⟨p, hp⟩ := Int.exists_eq_neg_ofNat hneg.le
    rw [hp, Int.natAbs_neg, Int.natAbs_natCast]
    obtain ⟨hvalue, hstop⟩ := scaleDown_spec n.significand p
    refine ⟨-((scaleDown n.significand p).2 : Int), by simp, ?_, by omega, by omega⟩
    rw [zpow_neg, zpow_neg, zpow_natCast, zpow_natCast]
    field_simp
    exact_mod_cast hvalue.symm.trans (Nat.mul_comm _ _)
  · next hpos =>
    obtain ⟨p, hp⟩ := Int.eq_ofNat_of_zero_le (Int.not_lt.mp hpos)
    rw [hp, Int.natAbs_natCast]
    obtain ⟨hvalue, hstop⟩ := scaleUp_spec n.significand p
    refine ⟨(scaleUp n.significand p).2, by simp, ?_, by omega, by omega⟩
    rw [zpow_natCast, zpow_natCast]
    exact_mod_cast hvalue.symm

/-- A full significand leaves no room for a positive power. -/
theorem eq_mul_pow_of_fits {a : ℚ} {s : Int} (h : a * 10 ^ s = m) (hfits : m ≤ 2 ^ 63)
    (hfull : 0 < s → (ullongMax / 10 : Nat) ≤ a) : ∃ j : Nat, s = -j ∧ a = m * 10 ^ j := by
  rcases lt_or_ge 0 s with hpos | hneg
  · have hten : (10 : ℚ) ≤ 10 ^ s := by
      simpa using zpow_le_zpow_right₀ (by norm_num : (1 : ℚ) ≤ 10) hpos
    have hlarge := mul_le_mul (hfull hpos) hten (by norm_num)
      ((Nat.cast_nonneg _).trans (hfull hpos))
    rw [h] at hlarge
    norm_cast at hlarge
    simp only [ullongMax] at hlarge
    omega
  · obtain ⟨j, rfl⟩ := Int.exists_eq_neg_ofNat hneg
    refine ⟨j, rfl, ?_⟩
    rwa [zpow_neg, zpow_natCast, ← div_eq_mul_inv, div_eq_iff (by positivity)] at h

variable {e : Int}

theorem abs_value {negative : Bool} {i : Int}
    (h : (if negative then -1 else 1) * ((v : ℚ) * 10 ^ e) = i) : (v : ℚ) * 10 ^ e = i.natAbs := by
  have hnonneg : 0 ≤ (v : ℚ) * 10 ^ e := by positivity
  have habs := congrArg abs h
  rw [abs_mul, abs_of_nonneg hnonneg] at habs
  cases negative <;> simpa [Nat.cast_natAbs] using habs

/-- A full significand and digits that do not fit: if the value is an integer that fits, these
    digits are zeros, and so are the last ones of the significand. -/
theorem rest_eq_zero {a k rest : Nat} (hvalue : v = a * 10 ^ k + rest) (hrest : rest < 10 ^ k)
    (hfull : ullongMax / 10 < a) (hm : (v : ℚ) * 10 ^ e = m) (hfits : m ≤ 2 ^ 63) :
    rest = 0 ∧ ∃ j, a = m * 10 ^ j := by
  have hsplit : ((v : ℚ) / 10 ^ k) * 10 ^ (k + e) = m := by
    rw [← hm, zpow_add₀ (by norm_num), zpow_natCast]
    field_simp
  obtain ⟨j, -, hj⟩ := eq_mul_pow_of_fits hsplit hfits fun _ => by
    rw [le_div_iff₀ (by positivity), hvalue]
    have := Nat.mul_le_mul_right (10 ^ k) hfull.le
    exact_mod_cast this.trans (Nat.le_add_right _ _)
  rw [div_eq_iff (by positivity)] at hj
  have hj : v = m * 10 ^ j * 10 ^ k := by exact_mod_cast hj
  have hzero : rest = 0 := by
    apply Nat.eq_zero_of_dvd_of_lt _ hrest
    rw [← Nat.dvd_add_right (Nat.dvd_mul_left (10 ^ k) a), ← hvalue, hj]
    exact Nat.dvd_mul_left _ _
  rw [hzero, Nat.add_zero, hj] at hvalue
  exact ⟨hzero, j, (Nat.eq_of_mul_eq_mul_right (Nat.pow_pos (by decide)) hvalue).symm⟩

/-- Where digits are lost, the value is no integer or too large. -/
theorem Decimal.Reads.precise (h : n.Reads v) (hm : (v : ℚ) * 10 ^ e = m)
    (hfits : m ≤ 2 ^ 63) : n.imprecise = false := by
  obtain ⟨k, rest, hvalue, hrest, himprecise, hpow, -, hfull⟩ := h
  by_contra hlost
  have hpos := himprecise.mp (by simpa using hlost)
  have hk : 0 < k := by
    by_contra hk
    simp_all
  exact hpos (rest_eq_zero hvalue hrest (hfull hk) hm hfits).1

theorem ofDigitChars_lt (hcs : ∀ c ∈ cs, c.isDigit = true) :
    Nat.ofDigitChars 10 cs v < 10 ^ cs.length * (v + 1) := by
  induction cs generalizing v with
  | nil => simp
  | cons c cs ih =>
    obtain ⟨hc, hcs⟩ := forall_mem_cons.mp hcs
    have hstep := ih (v := 10 * v + digitValue c) hcs
    have hle := Nat.mul_le_mul_left (10 ^ cs.length)
      (by have := (digitValue_spec hc).1; omega : 10 * v + digitValue c + 1 ≤ 10 * (v + 1))
    rw [length_cons, Nat.pow_succ, Nat.mul_assoc]
    exact Nat.lt_of_lt_of_le hstep hle

/-- Digits that wrap around start with a number of 20 digits that does not end in zero. -/
theorem exists_of_not_noWrap (hcs : ∀ c ∈ cs, c.isDigit = true) (h : ¬ NoWrap v cs) :
    ∃ d k rest : Nat, 5 < d ∧ d ≤ 9 ∧ rest < 10 ^ k ∧
      Nat.ofDigitChars 10 cs v = (10 * (ullongMax / 10) + d) * 10 ^ k + rest := by
  induction cs generalizing v with
  | nil => exact absurd trivial h
  | cons c cs ih =>
    obtain ⟨hc, hcs⟩ := forall_mem_cons.mp hcs
    rw [Nat.ofDigitChars_cons]
    by_cases hlater : NoWrap (10 * v + digitValue c) cs
    · obtain ⟨hv, hd⟩ : v = ullongMax / 10 ∧ 5 < digitValue c := by
        by_contra hno
        exact h ⟨fun hv => by omega, hlater⟩
      refine ⟨digitValue c, cs.length, Nat.ofDigitChars 10 cs 0, hd, (digitValue_spec hc).1,
        by simpa using ofDigitChars_lt (v := 0) hcs, ?_⟩
      rw [Nat.ofDigitChars_eq_ofDigitChars_zero, hv, Nat.mul_comm]
      rfl
    · exact ih hcs hlater

/-- A text whose digits wrap around has no value that is an integer and fits. -/
theorem NumberText.not_isInteger {t : NumberText} (h : t.Valid)
    (hwrap : ¬ NoWrap 0 (t.integer ++ t.fraction)) : ¬ IsInteger t.value := by
  rintro ⟨i, hlong, hvalue⟩
  obtain ⟨d, k, rest, hlow, hhigh, hrest, hdigits⟩ :=
    exists_of_not_noWrap (fun c hc => h.digits c (mem_append_left _ hc)) hwrap
  have habs := abs_value hvalue
  have hfits : i.natAbs ≤ 2 ^ 63 := by
    simp only [IsLongLong, llongMax] at hlong
    omega
  obtain ⟨-, j, hj⟩ := rest_eq_zero hdigits hrest (by simp only [ullongMax]; omega) habs hfits
  simp only [ullongMax] at hj
  cases j with
  | zero => omega
  | succ j =>
    have hpow : i.natAbs * 10 ^ (j + 1) = i.natAbs * 10 ^ j * 10 := by ring
    omega

theorem Decimal.Reads.value_eq (h : n.Reads v) (hprecise : n.imprecise = false) :
    (v : ℚ) * 10 ^ e = (n.shift e).significand * 10 ^ (n.shift e).pow10 := by
  obtain ⟨k, rest, hvalue, -, himprecise, hpow, -⟩ := h
  obtain rfl : rest = 0 := by simpa [hprecise] using himprecise
  rw [Decimal.shift, hpow, zpow_add₀ (by norm_num), zpow_natCast, ← mul_assoc, hvalue]
  push_cast
  ring

theorem Decimal.Reads.scale_eq (h : n.Reads v) (hm : (v : ℚ) * 10 ^ e = m)
    (hfits : m ≤ 2 ^ 63) : (n.shift e).scale = (m, 0) := by
  obtain ⟨s, hs, hvalue, hup, hdown⟩ := (n.shift e).scale_spec
  rw [h.value_eq (h.precise hm hfits)] at hm
  obtain ⟨j, rfl, hj⟩ := eq_mul_pow_of_fits (hvalue.symm.trans hm) hfits
    fun hpos => Nat.cast_le.mpr (hup hpos)
  norm_cast at hj
  obtain rfl : j = 0 := by
    by_contra hne
    obtain ⟨i, rfl⟩ := Nat.exists_eq_succ_of_ne_zero hne
    apply hdown (by omega)
    rw [hj, Nat.pow_succ, ← Nat.mul_assoc, Nat.mul_mod_left]
  exact Prod.ext (by simpa using hj) hs.symm

theorem Decimal.Reads.integer_iff (h : n.Reads v) (d : Doubles) (text : List Char)
    (negative : Bool) (i : Int) : numberToken d text negative (n.shift e) = .ok (.integer i) ↔
      IsLongLong i ∧ (if negative then -1 else 1) * ((v : ℚ) * 10 ^ e) = i := by
  by_cases hzero : (n.shift e).significand = 0
  · have hv : v = 0 := by
      obtain ⟨k, rest, hvalue, hrest, -, -, -, hfull⟩ := h
      rcases Nat.eq_zero_or_pos k with rfl | hk
      · simp_all [Decimal.shift]
      · exact absurd (hfull hk) (by simp_all [Decimal.shift])
    rw [numberToken, if_pos hzero, hv]
    constructor
    · rintro ⟨⟩
      exact ⟨by decide, by simp⟩
    · rintro ⟨-, hi⟩
      obtain rfl : i = 0 := by simpa using hi.symm
      rfl
  rw [numberToken, if_neg hzero]
  constructor
  · intro htoken
    rcases ite_eq_iff.mp htoken with ⟨hcond, htoken⟩ | ⟨-, htoken⟩
    · simp only [Bool.and_eq_true, Bool.not_eq_true', beq_iff_eq, decide_eq_true_eq] at hcond
      obtain ⟨⟨hprecise, hpower⟩, hfits⟩ := hcond
      obtain ⟨s, hs, hvalue, -⟩ := (n.shift e).scale_spec
      obtain rfl : s = 0 := by omega
      rw [h.value_eq hprecise, hvalue]
      cases htoken
      cases negative <;> simp [IsLongLong, llongMax] at hfits ⊢ <;> omega
    · cases hdouble : d.strToDouble text <;> simp [hdouble] at htoken
  · rintro ⟨hlong, hvalue⟩
    have habs := abs_value hvalue
    have hi : (if negative then -(i.natAbs : Int) else i.natAbs) = i := by
      apply Int.cast_injective (α := ℚ)
      rw [← hvalue, habs]
      cases negative <;> simp
    have hbound : i.natAbs ≤ if negative then llongMax + 1 else llongMax := by
      obtain ⟨hlow, hhigh⟩ := hlong
      split_ifs at hi ⊢ <;> omega
    have hfits : i.natAbs ≤ 2 ^ 63 := by
      rw [llongMax] at hbound
      split_ifs at hbound <;> omega
    have hprecise : (n.shift e).imprecise = false := h.precise habs hfits
    rw [if_pos (by simp [hprecise, h.scale_eq habs hfits, hbound]), h.scale_eq habs hfits, hi]

/-- **A number is an integer token of its exact value just if that is an integer that fits**, for
    the texts that are exact and for no others. -/
theorem jsonLexNumber_exact {t : NumberText} (h : t.Valid) (d : Doubles) :
    (∀ i, jsonLexNumber d t.text = .ok (.integer i) ↔ IsLongLong i ∧ t.value = i) ↔ t.Exact := by
  rcases jsonLexNumber_text h d with ⟨hread, hrefused⟩ | ⟨hread, hrefused⟩
  · rw [hread]
    constructor
    · intro hall
      refine ⟨fun _ => ?_, fun hno => absurd hrefused hno⟩
      rintro ⟨i, hi⟩
      cases (hall i).mpr hi
    · intro hexact i
      exact iff_of_false (by rintro ⟨⟩) fun hi => hexact.exponent hrefused ⟨i, hi⟩
  · have htoken := (NumberText.reads h).integer_iff (e := t.power) d t.text t.negative
    by_cases hwrap : NoWrap 0 (t.integer ++ t.fraction)
    · refine iff_of_true (fun i => ?_) ⟨fun hyes => absurd hyes hrefused, fun _ => .inl hwrap⟩
      rw [hread, NumberText.value, ← wrappedDigits_eq hwrap]
      exact htoken i
    · have hnone := NumberText.not_isInteger h hwrap
      constructor
      · intro hall
        refine ⟨fun hyes => absurd hyes hrefused, fun _ => .inr ?_⟩
        rintro ⟨i, hi⟩
        rw [hread] at hall
        exact hnone ⟨i, (hall i).mp ((htoken i).mpr hi)⟩
      · intro hexact i
        have hwrapped := (hexact.digits hrefused).resolve_left hwrap
        rw [hread]
        exact iff_of_false (fun hi => hwrapped ⟨i, (htoken i).mp hi⟩) fun hi => hnone ⟨i, hi⟩

def noDoubles : Doubles := ⟨fun _ => [], fun _ => none⟩

def sampleNumber : NumberText :=
  { integer := ['1', '2'], fraction := ['5', '0'], mark := ['e'], exponent := ['1'] }

theorem jsonLexNumber_exact_sample : sampleNumber.text = "12.50e1".toList ∧ sampleNumber.Exact ∧
    ∀ i, jsonLexNumber noDoubles sampleNumber.text = .ok (.integer i) ↔
      IsLongLong i ∧ sampleNumber.value = i := by
  have hexact : sampleNumber.Exact := by
    constructor
    · rintro ⟨-, hlarge⟩
      have hexcess : excessDigits sampleNumber.wrapped = 0 := by rw [excessDigits, if_pos (by decide)]
      rw [hexcess] at hlarge
      exact absurd hlarge (by decide)
    · exact fun _ => .inl ⟨by decide, by decide, by decide, by decide, trivial⟩
  exact ⟨by decide, hexact, (jsonLexNumber_exact
    ⟨by decide, by decide, all_eq_true.mp (by decide), by decide⟩ noDoubles).mpr hexact⟩

def wrappingNumber : NumberText := { integer := "18446744073709551616".toList }

/-- The last digit of 2⁶⁴ wraps the significand around to 0. -/
theorem jsonLexNumber_wraps : wrappingNumber.Valid ∧ wrappingNumber.value = 2 ^ 64 ∧
    jsonLexNumber noDoubles wrappingNumber.text = .ok (.integer 0) := by
  have hdigits : Nat.ofDigitChars 10 (wrappingNumber.integer ++ wrappingNumber.fraction) 0 =
      2 ^ 64 := by decide
  have hpower : wrappingNumber.power = 0 := by decide
  refine ⟨⟨by decide, by decide, all_eq_true.mp (by decide), by decide⟩, ?_, rfl⟩
  rw [NumberText.value, hdigits, NumberText.valueOf, hpower]
  norm_num [wrappingNumber]

end Ovsgw
