/-
  **Scanning text**: `ovs_scan` (`lib/util.c`), `ofputil_parse_key_value`
  (`lib/ofp-parse.c`) and `atoi`.

  A format of `ovs_scan` is the list of its directives, and the result is the list of the
  numbers that it stores, each as the `uintmax_t` that `scan_int` computes, with the text
  after what was scanned.  The destinations keep the low bits of these numbers.
-/
import Ovsgw.CString
import Ovsgw.Uuid

namespace Ovsgw

open List
open BitVec (ofNat)
open Nat (toDigits)

/-! ## 1. Numbers -/

/-- A digit of a number in base `base`. -/
def isDigitIn (base : Nat) (c : Char) : Bool := (hexitValue c).any (· < base)

def digitsValue (base : Nat) (digits : List Char) (value : Nat) : Nat :=
  digits.foldl (fun value c => value * base + (hexitValue c).getD 0) value

/-- The base in which `scan_int` reads a number, with the text after an initial `0x`. -/
def scanBase (base : Nat) (s : List Char) : Nat × List Char :=
  if (base = 0 ∨ base = 16) ∧ s.head? = some '0' ∧ (s[1]? = some 'x' ∨ s[1]? = some 'X') then
    (16, s.drop 2)
  else if base = 0 then (if s.head? = some '0' then 8 else 10, s)
  else (base, s)

/-- `scan_int`, for a field without a width. -/
def scanInt (base : Nat) (s : List Char) : Option (BitVec 64 × List Char) :=
  let negative := s.head? == some '-'
  let s := if s.head? = some '-' ∨ s.head? = some '+' then s.tail else s
  let (base, s) := scanBase base s
  let digits := s.takeWhile (isDigitIn base)
  if digits = [] then none
  else
    let value := ofNat 64 (digitsValue base digits 0)
    some (if negative then -value else value, s.dropWhile (isDigitIn base))

/-- `atoi`, which is `strtol` in base 10 cut down to an `int`.  `longBits` is the width of
    a `long int`. -/
def atoi (longBits : Nat) (s : List Char) : BitVec 32 :=
  match scanNumber s with
  | none => 0
  | some (negative, n, _) =>
    BitVec.ofInt 32
      (if negative then -(min n (2 ^ (longBits - 1)) : Nat) else (min n (2 ^ (longBits - 1) - 1) : Nat))

/-! ## 2. Formats -/

/-- A directive of a format: a character, `%d` or `%u` (base 10), `%i` (base 0) or `%x`
    (base 16). -/
inductive Directive where
  | lit (c : Char)
  | int (base : Nat)
deriving DecidableEq

def literal (text : String) : List Directive := text.toList.map .lit

def ovsScan : List Directive → List Char → Option (List (BitVec 64) × List Char)
  | [], s => some ([], s)
  | .lit _ :: _, [] => none
  | .lit c :: format, c' :: s => if c' = c then ovsScan format s else none
  | .int base :: format, s =>
    match scanInt base (s.dropWhile isSpace) with
    | none => none
    | some (value, s) => (ovsScan format s).map fun (values, rest) => (value :: values, rest)

/-! ## 3. Keys and values -/

def delimiters : List Char := [',', ' ', '\t', '\r', '\n']

/-- `parse_value`: the text up to a delimiter that is not inside parentheses, and the text
    from there on.  `level` is the number of parentheses that are open. -/
def parseValue (delims : List Char) : Nat → List Char → List Char × List Char
  | _, [] => ([], [])
  | 0, c :: s =>
    if c ∈ delims then ([], c :: s)
    else
      let (value, rest) := parseValue delims (if c = '(' then 1 else 0) s
      (c :: value, rest)
  | level + 1, c :: s =>
    let level := if c = '(' then level + 2 else if c = ')' then level else level + 1
    let (value, rest) := parseValue delims level s
    (c :: value, rest)

/-- `ofputil_parse_key_value`: the key, the value and the text after them. -/
def ofputilParseKeyValue (s : List Char) : Option (List Char × List Char × List Char) :=
  let s := s.dropWhile (· ∈ delimiters)
  if s = [] then none
  else
    let isKey : Char → Bool := fun c => c ∉ ([':', '=', '('] ++ delimiters)
    let key := s.takeWhile isKey
    match s.dropWhile isKey with
    | [] => some (key, [], [])
    | delim :: s =>
      if delim = ':' ∨ delim = '=' then
        let (value, rest) := parseValue delimiters 0 s
        some (key, value, rest.drop 1)
      else if delim = '(' then
        let (value, rest) := parseValue [')'] 0 s
        -- The value of `key(x)->y` is `x)->y`.
        if rest.take 3 = [')', '-', '>'] then
          let (more, rest) := parseValue delimiters 0 rest
          some (key, value ++ more, rest.drop 1)
        else some (key, value, rest.drop 1)
      else some (key, [], s)

/-- The pairs that repeated calls of `ofputil_parse_key_value` find, at most `fuel` of them. -/
def keyValuesLoop : Nat → List Char → List (List Char × List Char)
  | 0, _ => []
  | fuel + 1, s =>
    match ofputilParseKeyValue s with
    | none => []
    | some (key, value, rest) => (key, value) :: keyValuesLoop fuel rest

/-- The pairs in a text.  Each of them takes a character, at least. -/
def keyValues (s : List Char) : List (List Char × List Char) := keyValuesLoop s.length s

/-! ## 4. Printed numbers -/

section
variable {base base' b n : Nat} {digits rest s : List Char} {c : Char}

def endsNumber (rest : List Char) : Bool :=
  rest.head?.all fun c => !isDigitIn 16 c && c != 'x' && c != 'X'

theorem hexitValue_digitChar (h : n < 16) : hexitValue (Nat.digitChar n) = some n := by
  have hall : ∀ m : Fin 16, hexitValue (Nat.digitChar m) = some m.val := by decide
  exact hall ⟨n, h⟩

theorem mem_toDigits (hb : 1 < b) (h : c ∈ toDigits b n) : ∃ m < b, c = Nat.digitChar m := by
  induction n using Nat.strong_induction_on with
  | _ n ih =>
    by_cases hlt : n < b
    · rw [Nat.toDigits_of_lt_base hlt, mem_singleton] at h
      exact ⟨n, hlt, h⟩
    · have hle := Nat.le_of_not_lt hlt
      rw [Nat.toDigits_of_base_le hb hle] at h
      rcases mem_append.mp h with h | h
      · exact ih (n / b) (Nat.div_lt_self (by omega) hb) h
      · exact ⟨n % b, Nat.mod_lt n (by omega), mem_singleton.mp h⟩

theorem isDigitIn_toDigits (hb : 1 < b) (hb16 : b ≤ 16) (h : c ∈ toDigits b n) :
    isDigitIn b c = true := by
  obtain ⟨m, hm, rfl⟩ := mem_toDigits hb h
  rw [isDigitIn, hexitValue_digitChar (hm.trans_le hb16)]
  exact decide_eq_true hm

theorem digitsValue_toDigits (hb : 1 < b) (hb16 : b ≤ 16) :
    digitsValue b (toDigits b n) 0 = n := by
  induction n using Nat.strong_induction_on with
  | _ n ih =>
    by_cases hlt : n < b
    · rw [Nat.toDigits_of_lt_base hlt]
      simp [digitsValue, hexitValue_digitChar (hlt.trans_le hb16)]
    · have hle := Nat.le_of_not_lt hlt
      have hih := ih (n / b) (Nat.div_lt_self (by omega) hb)
      rw [digitsValue] at hih
      rw [Nat.toDigits_of_base_le hb hle, digitsValue, foldl_append, hih, foldl_cons,
        foldl_nil, hexitValue_digitChar ((Nat.mod_lt n (by omega)).trans_le hb16),
        Option.getD_some, Nat.mul_comm]
      exact Nat.div_add_mod n b

theorem head?_toDigits_append : (toDigits 10 n ++ rest).head? = (toDigits 10 n).head? := by
  obtain ⟨c, cs, hdigits⟩ := exists_cons_of_ne_nil (Nat.toDigits_ne_nil (n := n) (b := 10))
  rw [hdigits]
  rfl

theorem head_toDigits_ne_zero (hn : 0 < n) : (toDigits 10 n).head? ≠ some '0' := by
  induction n using Nat.strong_induction_on with
  | _ n ih =>
    by_cases hlt : n < 10
    · have hall : ∀ m : Fin 10, 0 < m.val → Nat.digitChar m ≠ '0' := by decide
      rw [Nat.toDigits_of_lt_base hlt]
      simpa using hall ⟨n, hlt⟩ hn
    · have hle := Nat.le_of_not_lt hlt
      have hih := ih (n / 10) (by omega) (by omega)
      rw [Nat.toDigits_of_base_le (by decide) hle, head?_toDigits_append]
      exact hih

theorem isDigitIn_mono (hle : b ≤ 16) (h : isDigitIn b c = true) : isDigitIn 16 c = true := by
  rw [isDigitIn] at h ⊢
  cases hvalue : hexitValue c with
  | none => simp [hvalue] at h
  | some v =>
    simp only [hvalue, Option.any_some, decide_eq_true_eq] at h ⊢
    omega

theorem not_isDigitIn_of_ends (hle : b ≤ 16) (h : endsNumber rest = true) :
    ∀ c ∈ rest.head?, isDigitIn b c = false := by
  intro c hc
  rw [Option.mem_def] at hc
  simp only [endsNumber, hc, Option.all_some, Bool.and_eq_true, Bool.not_eq_true'] at h
  by_contra hdigit
  rw [Bool.not_eq_false] at hdigit
  rw [isDigitIn_mono hle hdigit] at h
  exact absurd h.1.1 (by decide)

section

variable {p : Char → Bool} (hall : ∀ c ∈ digits, p c = true) (hstop : ∀ c ∈ rest.head?, p c = false)
include hall hstop

theorem takeWhile_append_stop : (digits ++ rest).takeWhile p = digits := by
  rw [takeWhile_append_of_pos hall]
  cases rest with
  | nil => simp
  | cons c rest => simp [hstop c rfl]

theorem dropWhile_append_stop : (digits ++ rest).dropWhile p = rest := by
  rw [dropWhile_append_of_pos hall]
  cases rest with
  | nil => rfl
  | cons c rest => simp [hstop c rfl]

end

theorem head?_ne_of_digits (hne : digits ≠ []) (hall : ∀ c ∈ digits, isDigitIn b c = true)
    (hc : isDigitIn b c = false) : (digits ++ rest).head? ≠ some c := by
  obtain ⟨c', digits', rfl⟩ := exists_cons_of_ne_nil hne
  intro heq
  obtain rfl : c' = c := Option.some.inj heq
  rw [hall c' mem_cons_self] at hc
  cases hc

theorem isDigitIn_eq_false (h : hexitValue c = none) : isDigitIn b c = false := by
  rw [isDigitIn, h]
  rfl

theorem scanInt_digits (hbase : scanBase base (digits ++ rest) = (base', digits ++ rest))
    (hne : digits ≠ []) (hall : ∀ c ∈ digits, isDigitIn base' c = true)
    (hstop : ∀ c ∈ rest.head?, isDigitIn base' c = false) :
    scanInt base (digits ++ rest) = some (ofNat 64 (digitsValue base' digits 0), rest) := by
  have hsign (c : Char) (hc : hexitValue c = none) : (digits ++ rest).head? ≠ some c :=
    head?_ne_of_digits hne hall (isDigitIn_eq_false hc)
  have hminus := hsign '-' rfl
  have hplus := hsign '+' rfl
  have hnegative : ((digits ++ rest).head? == some '-') = false := beq_eq_false_iff_ne.mpr hminus
  simp only [scanInt, hminus, hplus, or_self, if_false, hnegative, hbase,
    takeWhile_append_stop hall hstop, dropWhile_append_stop hall hstop, hne]
  rfl

section

variable (n : Nat) (h : endsNumber rest = true)
include h

/-- `%u` reads what `%u` prints. -/
theorem scanInt_toDigits :
    scanInt 10 (toDigits 10 n ++ rest) = some (ofNat 64 n, rest) := by
  have hbase : scanBase 10 (toDigits 10 n ++ rest) = (10, toDigits 10 n ++ rest) := rfl
  have hscan := scanInt_digits hbase Nat.toDigits_ne_nil
    (fun c hc => isDigitIn_toDigits (by decide) (by decide) hc)
    (not_isDigitIn_of_ends (b := 10) (by decide) h)
  rw [digitsValue_toDigits (by decide) (by decide)] at hscan
  exact hscan

/-- `%i` takes what `%u` prints for a number in base 8 or in base 10, of the same value. -/
theorem scanBase_zero_toDigits :
    ∃ b, b ≤ 16 ∧ scanBase 0 (toDigits 10 n ++ rest) = (b, toDigits 10 n ++ rest) ∧
      (∀ c ∈ toDigits 10 n, isDigitIn b c = true) ∧
      digitsValue b (toDigits 10 n) 0 = n := by
  rcases Nat.eq_zero_or_pos n with rfl | hn
  · have hbase : scanBase 0 (['0'] ++ rest) = (8, ['0'] ++ rest) := by
      have hx : ∀ c ∈ rest.head?, c ≠ 'x' ∧ c ≠ 'X' := by
        intro c hc
        rw [Option.mem_def] at hc
        simp only [endsNumber, hc, Option.all_some, Bool.and_eq_true, bne_iff_ne] at h
        exact ⟨h.1.2, h.2⟩
      cases rest with
      | nil => rfl
      | cons c rest => simp [scanBase, hx c rfl]
    have hdigits : ∀ c ∈ ['0'], isDigitIn 8 c = true := by
      intro c hc
      rw [mem_singleton.mp hc]
      rfl
    exact ⟨8, by decide, hbase, hdigits, rfl⟩
  · have hbase : scanBase 0 (toDigits 10 n ++ rest) = (10, toDigits 10 n ++ rest) := by
      have hhead : (toDigits 10 n ++ rest).head? ≠ some '0' := by
        rw [head?_toDigits_append]
        exact head_toDigits_ne_zero hn
      simp only [scanBase, hhead, false_and, and_false, if_false, if_true]
    exact ⟨10, by decide, hbase, fun c hc => isDigitIn_toDigits (by decide) (by decide) hc,
      digitsValue_toDigits (by decide) (by decide)⟩

/-- `%i` reads what `%u` prints. -/
theorem scanInt_zero_toDigits :
    scanInt 0 (toDigits 10 n ++ rest) = some (ofNat 64 n, rest) := by
  obtain ⟨b, hle, hbase, hall, hvalue⟩ := scanBase_zero_toDigits n h
  have hscan := scanInt_digits hbase Nat.toDigits_ne_nil hall (not_isDigitIn_of_ends hle h)
  rw [hvalue] at hscan
  exact hscan

end

variable {w : Nat} {format : List Directive}

theorem isDigitIn_hexits (h : c ∈ hexits w n) : isDigitIn 16 c = true := by
  obtain ⟨m, rfl⟩ := mem_hexits h
  rw [isDigitIn, hexitValue_hexit m.isLt]
  exact decide_eq_true m.isLt

theorem digitsValue_hexits (w n : Nat) : digitsValue 16 (hexits w n) 0 = n % 16 ^ w := by
  induction w generalizing n with
  | zero => simp [hexits, digitsValue, Nat.mod_one]
  | succ w ih =>
    have hih := ih (n / 16)
    rw [digitsValue] at hih
    rw [hexits, digitsValue, foldl_append, hih, foldl_cons, foldl_nil,
      hexitValue_hexit (Nat.mod_lt n (by decide)), Option.getD_some, Nat.pow_succ,
      Nat.mul_comm (16 ^ w) 16, Nat.mod_mul]
    omega

theorem hexits_ne_nil (w n : Nat) : hexits (w + 1) n ≠ [] := by
  rw [hexits]
  simp

theorem second_ne_x (hne : digits ≠ []) (hall : ∀ c ∈ digits, isDigitIn 16 c = true)
    (hends : endsNumber rest = true) (hc : c = 'x' ∨ c = 'X') : (digits ++ rest)[1]? ≠ some c := by
  have hdigit : isDigitIn 16 c = false := by rcases hc with rfl | rfl <;> rfl
  match digits, hne with
  | [_], _ =>
    intro hx
    have hhead : rest.head? = some c := by
      rw [head?_eq_getElem?]
      exact hx
    simp only [endsNumber, hhead, Option.all_some, Bool.and_eq_true, bne_iff_ne] at hends
    rcases hc with rfl | rfl
    · exact hends.1.2 rfl
    · exact hends.2 rfl
  | _ :: d :: _, _ =>
    intro hx
    obtain rfl : d = c := Option.some.inj hx
    rw [hall d (mem_cons_of_mem _ mem_cons_self)] at hdigit
    cases hdigit

/-- `%x` reads what `%02x` prints, and so for other widths. -/
theorem scanInt_hexits (hlt : n < 16 ^ (w + 1)) (h : endsNumber rest = true) :
    scanInt 16 (hexits (w + 1) n ++ rest) = some (ofNat 64 n, rest) := by
  have hall : ∀ c ∈ hexits (w + 1) n, isDigitIn 16 c = true := fun c hc => isDigitIn_hexits hc
  have hx := second_ne_x (hexits_ne_nil w n) hall h (.inl rfl)
  have hX := second_ne_x (hexits_ne_nil w n) hall h (.inr rfl)
  have hbase : scanBase 16 (hexits (w + 1) n ++ rest) = (16, hexits (w + 1) n ++ rest) := by
    simp only [scanBase, hx, hX, or_self, and_false, if_false]
    rfl
  have hscan := scanInt_digits hbase (hexits_ne_nil w n) hall
    (not_isDigitIn_of_ends (b := 16) (by decide) h)
  rw [digitsValue_hexits, Nat.mod_eq_of_lt hlt] at hscan
  exact hscan

/-- `%i` reads what `0x%04x` prints, and so for other widths. -/
theorem scanInt_zero_hexits (hlt : n < 16 ^ (w + 1)) (h : endsNumber rest = true) :
    scanInt 0 ('0' :: 'x' :: (hexits (w + 1) n ++ rest)) = some (ofNat 64 n, rest) := by
  have hall : ∀ c ∈ hexits (w + 1) n, isDigitIn 16 c = true := fun c hc => isDigitIn_hexits hc
  have hstop := not_isDigitIn_of_ends (b := 16) (by decide) h
  have hbase : scanBase 0 ('0' :: 'x' :: (hexits (w + 1) n ++ rest)) =
      (16, hexits (w + 1) n ++ rest) := rfl
  simp only [scanInt, head?_cons, Option.some.injEq, Char.reduceEq, or_self, if_false, hbase,
    takeWhile_append_stop hall hstop, dropWhile_append_stop hall hstop, hexits_ne_nil,
    digitsValue_hexits, Nat.mod_eq_of_lt hlt]
  rfl

/-! ## 5. Scanning what was printed -/

@[simp] theorem ovsScan_lit (c : Char) (format : List Directive) (s : List Char) :
    ovsScan (.lit c :: format) (c :: s) = ovsScan format s := by
  rw [ovsScan, if_pos rfl]

theorem ovsScan_literal {text : String} :
    ovsScan (literal text ++ format) (text.toList ++ s) = ovsScan format s := by
  rw [literal]
  induction text.toList with
  | nil => rfl
  | cons c cs ih =>
    rw [map_cons, cons_append, cons_append, ovsScan_lit]
    exact ih

theorem ovsScan_int {value : BitVec 64}
    (hspace : ∀ c ∈ s.head?, isSpace c = false) (hscan : scanInt base s = some (value, rest)) :
    ovsScan (.int base :: format) s =
      (ovsScan format rest).map fun (values, rest) => (value :: values, rest) := by
  have hdrop : s.dropWhile isSpace = s := by
    cases s with
    | nil => rfl
    | cons c s => simp [hspace c rfl]
  rw [ovsScan, hdrop, hscan]

theorem head?_not_space (hne : digits ≠ []) (hall : ∀ c ∈ digits, isDigitIn b c = true)
    (rest : List Char) : ∀ c ∈ (digits ++ rest).head?, isSpace c = false := by
  obtain ⟨d, digits', rfl⟩ := exists_cons_of_ne_nil hne
  rintro c ⟨⟩
  exact isSpace_eq_false rfl (hall d mem_cons_self)

theorem head?_toDigits_not_space : ∀ c ∈ (toDigits 10 n ++ rest).head?, isSpace c = false :=
  head?_not_space (b := 10) Nat.toDigits_ne_nil
    (fun _ hc => isDigitIn_toDigits (by decide) (by decide) hc) rest

section

variable (format : List Directive) (hends : endsNumber rest = true)
include hends

theorem ovsScan_toDigits : ovsScan (.int 10 :: format) (toDigits 10 n ++ rest) =
      (ovsScan format rest).map fun (values, rest) => (ofNat 64 n :: values, rest) :=
  ovsScan_int head?_toDigits_not_space (scanInt_toDigits n hends)

theorem ovsScan_zero_toDigits : ovsScan (.int 0 :: format) (toDigits 10 n ++ rest) =
      (ovsScan format rest).map fun (values, rest) => (ofNat 64 n :: values, rest) :=
  ovsScan_int head?_toDigits_not_space (scanInt_zero_toDigits n hends)

theorem ovsScan_hexits (hlt : n < 16 ^ (w + 1)) :
    ovsScan (.int 16 :: format) (hexits (w + 1) n ++ rest) =
      (ovsScan format rest).map fun (values, rest) => (ofNat 64 n :: values, rest) :=
  ovsScan_int (head?_not_space (hexits_ne_nil w n) (fun _ hc => isDigitIn_hexits hc) rest)
    (scanInt_hexits hlt hends)

theorem ovsScan_zero_hexits (hlt : n < 16 ^ (w + 1)) :
    ovsScan (.int 0 :: format) ('0' :: 'x' :: (hexits (w + 1) n ++ rest)) =
      (ovsScan format rest).map fun (values, rest) => (ofNat 64 n :: values, rest) := by
  apply ovsScan_int _ (scanInt_zero_hexits hlt hends)
  rintro c ⟨⟩
  rfl

end

section
variable {longBits : Nat}

/-- `atoi` reads what `%u` prints, if the number fits in a `long int`. -/
theorem atoi_toDigits (hlt : n < 2 ^ (longBits - 1)) :
    atoi longBits (toDigits 10 n) = ofNat 32 n := by
  have hscan := @scanNumber_decimal n [] rfl
  rw [decimal, if_neg (by omega), Int.natAbs_natCast, decide_eq_false (by omega),
    append_nil] at hscan
  rw [atoi, hscan]
  have hmin : min n (2 ^ (longBits - 1) - 1) = n := by omega
  simp only [Bool.false_eq_true, if_false, hmin]
  exact BitVec.ofInt_natCast 32 n

/-- The number in base 10 that a number in base 16 starts with. -/
def decimalPart (n : Nat) : Nat := Nat.ofDigitChars 10 ((toDigits 16 n).takeWhile Char.isDigit) 0

theorem decimalPart_digit (hn : n < 16) : decimalPart n = if n < 10 then n else 0 := by
  have hall : ∀ m : Fin 16, decimalPart m = if m.val < 10 then m.val else 0 := by decide
  exact hall ⟨n, hn⟩

theorem decimalPart_le : decimalPart n ≤ n ∧ (10 ≤ n → decimalPart n < n) := by
  induction n using Nat.strong_induction_on with
  | _ n ih =>
    by_cases hlt : n < 16
    · rw [decimalPart_digit hlt]
      split <;> omega
    · obtain ⟨hle, -⟩ := ih (n / 16) (by omega)
      have hmod : decimalPart (n % 16) ≤ n % 16 := by
        rw [decimalPart_digit (by omega)]
        split <;> omega
      rw [decimalPart] at hle
      rw [decimalPart, Nat.toDigits_of_lt_base (Nat.mod_lt n (by decide))] at hmod
      rw [decimalPart, Nat.toDigits_of_base_le (by decide) (by omega), takeWhile_append]
      split
      · next hall =>
        rw [(takeWhile_sublist _).eq_of_length hall] at hle
        rw [Nat.ofDigitChars_append]
        by_cases hdigit : (Nat.digitChar (n % 16)).isDigit = true
        · rw [takeWhile_cons_of_pos hdigit, takeWhile_nil] at hmod ⊢
          simp only [Nat.ofDigitChars_cons, Nat.ofDigitChars_nil] at hmod ⊢
          omega
        · rw [takeWhile_cons_of_neg hdigit, Nat.ofDigitChars_nil]
          omega
      · omega

theorem scanNumber_hexadecimal (n : Nat) : scanNumber (toDigits 16 n) = none ∨
    ∃ rest, scanNumber (toDigits 16 n) = some (false, decimalPart n, rest) := by
  obtain ⟨c, cs, hdigits⟩ := exists_cons_of_ne_nil (Nat.toDigits_ne_nil (n := n) (b := 16))
  have hc : isDigitIn 16 c = true :=
    isDigitIn_toDigits (by decide) (by decide) (hdigits ▸ mem_cons_self)
  have hspace := isSpace_eq_false (by decide) hc
  have hskip : skipSign (toDigits 16 n) = (false, toDigits 16 n) := by
    have hplus : c ≠ '+' := by
      rintro rfl
      exact absurd hc (by decide)
    have hminus : c ≠ '-' := by
      rintro rfl
      exact absurd hc (by decide)
    simp [skipSign, hdigits, hspace, hplus, hminus]
  rw [scanNumber, hskip]
  dsimp only
  split
  · exact .inr ⟨_, rfl⟩
  · exact .inl rfl

theorem ofNat_inj {m : Nat} (hm : m < 2 ^ 32) (hn : n < 2 ^ 32) (h : ofNat 32 m = ofNat 32 n) :
    m = n := by
  rwa [BitVec.toNat_eq, BitVec.toNat_ofNat, BitVec.toNat_ofNat, Nat.mod_eq_of_lt hm,
    Nat.mod_eq_of_lt hn] at h

/-- A number that does not fit in a `long int` is read as the largest one that does. -/
theorem atoi_toDigits_iff (hn : n < 2 ^ 32) :
    atoi longBits (toDigits 10 n) = ofNat 32 n ↔ n < 2 ^ (longBits - 1) := by
  refine ⟨?_, atoi_toDigits⟩
  have hscan := @scanNumber_decimal n [] rfl
  rw [decimal, if_neg (by omega), Int.natAbs_natCast, decide_eq_false (by omega),
    append_nil] at hscan
  rw [atoi, hscan]
  intro h
  have hpow := Nat.two_pow_pos (longBits - 1)
  have hmin := ofNat_inj (by omega) hn ((BitVec.ofInt_natCast 32 _).symm.trans h)
  omega

/-- `atoi` reads a number in base 16 as it was only if it has one digit, below 10. -/
theorem atoi_hexadecimal (h : atoi longBits (toDigits 16 n) = ofNat 32 n) (hn : n < 2 ^ 32) :
    n < 10 := by
  by_contra hge
  obtain ⟨-, hlt⟩ := @decimalPart_le n
  rw [atoi] at h
  rcases scanNumber_hexadecimal n with hscan | ⟨rest, hscan⟩
  · rw [hscan] at h
    have hzero : 0 = n := ofNat_inj (by decide) hn h
    omega
  · rw [hscan] at h
    have := ofNat_inj (by omega) hn ((BitVec.ofInt_natCast 32 _).symm.trans h)
    omega

end

/-! ## 6. Splitting what was printed -/

theorem parseValue_append (delims : List Char) (level : Nat) (s : List Char) :
    (parseValue delims level s).1 ++ (parseValue delims level s).2 = s := by
  induction s generalizing level with
  | nil => cases level <;> rfl
  | cons c s ih =>
    cases level with
    | zero =>
      rw [parseValue]
      split
      · rfl
      · exact congrArg (c :: ·) (ih _)
    | succ level =>
      rw [parseValue]
      exact congrArg (c :: ·) (ih _)

theorem length_parseValue_le (delims : List Char) (level : Nat) (s : List Char) :
    (parseValue delims level s).2.length ≤ s.length := by
  have hlength := congrArg List.length (parseValue_append delims level s)
  rw [length_append] at hlength
  omega

variable {key value : List Char}

theorem ofputilParseKeyValue_length
    (h : ofputilParseKeyValue s = some (key, value, rest)) : rest.length < s.length := by
  have hdrop := (dropWhile_suffix (l := s) fun c => decide (c ∈ delimiters)).length_le
  rw [ofputilParseKeyValue] at h
  generalize s.dropWhile (· ∈ delimiters) = t at h hdrop
  dsimp only at h
  split at h
  · cases h
  next hne =>
    have hpos : 0 < t.length := length_pos_iff.mpr hne
    split at h
    · cases h
      exact hpos.trans_le hdrop
    next delim u hu =>
      have hu := (dropWhile_suffix (l := t)
        fun c => decide (c ∉ ([':', '=', '('] ++ delimiters))).length_le
      rw [‹List.dropWhile _ t = delim :: u›, length_cons] at hu
      have hvalue := length_parseValue_le delimiters 0 u
      have hparen := length_parseValue_le [')'] 0 u
      have hmore := length_parseValue_le delimiters 0 (parseValue [')'] 0 u).2
      split at h
      · cases h
        rw [length_drop]
        omega
      · split at h
        · split at h
          · cases h
            rw [length_drop]
            omega
          · cases h
            rw [length_drop]
            omega
        · cases h
          omega

theorem keyValuesLoop_eq {fuel : Nat} (h : s.length ≤ fuel) : keyValuesLoop fuel s = keyValues s := by
  rw [keyValues]
  induction hn : s.length using Nat.strong_induction_on generalizing s fuel with
  | _ n ih =>
    subst hn
    cases fuel with
    | zero =>
      rw [Nat.le_zero.mp h]
    | succ fuel =>
      rw [keyValuesLoop]
      cases hpair : ofputilParseKeyValue s with
      | none =>
        cases hlength : s.length with
        | zero => rfl
        | succ n => rw [keyValuesLoop, hpair]
      | some pair =>
        obtain ⟨key, value, rest⟩ := pair
        have hlt := ofputilParseKeyValue_length hpair
        obtain ⟨n, hlength⟩ := Nat.exists_eq_succ_of_ne_zero (Nat.ne_zero_of_lt hlt)
        rw [hlength, keyValuesLoop, hpair]
        dsimp only
        rw [ih _ hlt (show rest.length ≤ fuel by omega) rfl,
          ih _ hlt (show rest.length ≤ n by omega) rfl]

theorem keyValues_of_some (h : ofputilParseKeyValue s = some (key, value, rest)) :
    keyValues s = (key, value) :: keyValues rest := by
  have hlt := ofputilParseKeyValue_length h
  obtain ⟨n, hlength⟩ := Nat.exists_eq_succ_of_ne_zero (Nat.ne_zero_of_lt hlt)
  rw [keyValues, hlength, keyValuesLoop, h]
  dsimp only
  rw [keyValuesLoop_eq (show rest.length ≤ n by omega)]

theorem keyValues_of_none (h : ofputilParseKeyValue s = none) : keyValues s = [] := by
  rw [keyValues]
  cases s.length with
  | zero => rfl
  | succ n => rw [keyValuesLoop, h]

theorem keyValues_comma : keyValues (',' :: s) = keyValues s := by
  have hskip : ofputilParseKeyValue (',' :: s) = ofputilParseKeyValue s := by
    simp [ofputilParseKeyValue, delimiters]
  cases hpair : ofputilParseKeyValue s with
  | none => rw [keyValues_of_none (hskip.trans hpair), keyValues_of_none hpair]
  | some pair =>
    obtain ⟨key, value, rest⟩ := pair
    rw [keyValues_of_some (hskip.trans hpair), keyValues_of_some hpair]

theorem parseValue_plain {delims : List Char}
    (hvalue : ∀ c ∈ value, c ∉ delims ∧ c ≠ '(') (hrest : ∀ c ∈ rest.head?, c ∈ delims) :
    parseValue delims 0 (value ++ rest) = (value, rest) := by
  induction value with
  | nil =>
    cases rest with
    | nil => rfl
    | cons c rest =>
      rw [nil_append, parseValue, if_pos (hrest c rfl)]
  | cons c value ih =>
    obtain ⟨hc, hparen⟩ := hvalue c mem_cons_self
    rw [cons_append, parseValue, if_neg hc, if_neg hparen,
      ih fun c hc => hvalue c (mem_cons_of_mem _ hc)]

def isPlain (c : Char) : Bool := c ∉ (['=', '(', ')'] ++ delimiters)

section

variable (hkey : ∀ c ∈ key, isPlain c = true ∧ c ≠ ':')
include hkey

theorem dropWhile_delimiters (hne : key ≠ []) :
    (key ++ rest).dropWhile (fun c => decide (c ∈ delimiters)) = key ++ rest := by
  obtain ⟨c, key', rfl⟩ := exists_cons_of_ne_nil hne
  have hc := (hkey c mem_cons_self).1
  simp only [isPlain, mem_append, not_or, decide_eq_true_eq] at hc
  rw [cons_append, dropWhile_cons_of_neg]
  simpa using hc.2

theorem all_isKey : ∀ c ∈ key, decide (c ∉ ([':', '=', '('] ++ delimiters)) = true := by
  intro c hc
  obtain ⟨hplain, hcolon⟩ := hkey c hc
  simp only [isPlain, mem_append, mem_cons, not_mem_nil, or_false, not_or,
    decide_eq_true_eq] at hplain ⊢
  exact ⟨⟨hcolon, hplain.1.1, hplain.1.2.1⟩, hplain.2⟩

theorem keyValues_pair (hne : key ≠ []) (hvalue : ∀ c ∈ value, isPlain c = true)
    (hrest : ∀ c ∈ rest.head?, c = ',') :
    keyValues (key ++ '=' :: (value ++ rest)) = (key, value) :: keyValues rest := by
  have hstop : ∀ c ∈ ('=' :: (value ++ rest)).head?,
      decide (c ∉ ([':', '=', '('] ++ delimiters)) = false := by
    rintro c ⟨⟩
    rfl
  have hparse : parseValue delimiters 0 (value ++ rest) = (value, rest) := by
    apply parseValue_plain
    · intro c hc
      have hplain := hvalue c hc
      simp only [isPlain, mem_append, mem_cons, not_mem_nil, or_false, not_or,
        decide_eq_true_eq] at hplain
      exact ⟨hplain.2, hplain.1.2.1⟩
    · intro c hc
      rw [hrest c hc]
      decide
  have hpair : ofputilParseKeyValue (key ++ '=' :: (value ++ rest)) =
      some (key, value, rest.drop 1) := by
    simp only [ofputilParseKeyValue, dropWhile_delimiters hkey hne,
      takeWhile_append_stop (all_isKey hkey) hstop, dropWhile_append_stop (all_isKey hkey) hstop,
      hparse, append_eq_nil_iff, hne, false_and, if_false, or_true, if_true]
  rw [keyValues_of_some hpair]
  cases rest with
  | nil => rfl
  | cons c rest =>
    rw [hrest c rfl, drop_one, tail_cons, keyValues_comma]

end

/-- A text of the form `name(args)`. -/
theorem ofputilParseKeyValue_call {name args : List Char}
    (hname : ∀ c ∈ name, isPlain c = true ∧ c ≠ ':') (hne : name ≠ [])
    (hargs : ∀ c ∈ args, c ≠ '(' ∧ c ≠ ')') :
    ofputilParseKeyValue (name ++ '(' :: (args ++ [')'])) = some (name, args, []) := by
  have hstop : ∀ c ∈ ('(' :: (args ++ [')'])).head?,
      decide (c ∉ ([':', '=', '('] ++ delimiters)) = false := by
    rintro c ⟨⟩
    rfl
  have hparse : parseValue [')'] 0 (args ++ [')']) = (args, [')']) := by
    apply parseValue_plain
    · intro c hc
      exact ⟨by simpa using (hargs c hc).2, (hargs c hc).1⟩
    · rintro c ⟨⟩
      exact mem_singleton_self ')'
  simp only [ofputilParseKeyValue, dropWhile_delimiters hname hne,
    takeWhile_append_stop (all_isKey hname) hstop, dropWhile_append_stop (all_isKey hname) hstop,
    hparse, append_eq_nil_iff, hne, false_and, if_false, if_true]
  rfl

end

end Ovsgw
