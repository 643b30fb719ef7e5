/-
  **The text form of a UUID** (`lib/uuid.h`, `lib/uuid.c`, `hexits_value` of `lib/util.c`).

  A string is the list of its characters; a read past its end is a read of the
  terminating null byte, which is not a hex digit.
-/
import Ovsgw.Json

namespace Ovsgw

/-! ## 1. Hex digits -/

def hexit (n : Nat) : Char :=
  if n < 10 then Char.ofNat ('0'.toNat + n) else Char.ofNat ('a'.toNat + (n - 10))

/-- `%0wx`, for a number that fits in `w` digits. -/
def hexits : Nat → Nat → List Char
  | 0, _ => []
  | w + 1, n => hexits w (n / 16) ++ [hexit (n % 16)]

def hexitValue (c : Char) : Option Nat :=
  if '0' ≤ c ∧ c ≤ '9' then some (c.toNat - '0'.toNat)
  else if 'a' ≤ c ∧ c ≤ 'f' then some (c.toNat - 'a'.toNat + 0xa)
  else if 'A' ≤ c ∧ c ≤ 'F' then some (c.toNat - 'A'.toNat + 0xa)
  else none

def hexitsLoop : List Char → Nat → Nat → Option Nat
  | _, 0, value => some value
  | [], _ + 1, _ => none
  | c :: s, n + 1, value =>
    match hexitValue c with
    | none => none
    | some hexit => hexitsLoop s n (value * 16 + hexit)

def hexitsValue (s : List Char) (n : Nat) : Option Nat := hexitsLoop s n 0

@[simp] theorem length_hexits (w n : Nat) : (hexits w n).length = w := by
  induction w generalizing n with
  | zero => rfl
  | succ w ih => simp [hexits, ih]

variable {u : Uuid} {n w : Nat}

theorem drop_hexits {k : Nat} (h : w ≤ k) : (hexits w n).drop k = [] :=
  List.drop_eq_nil_of_le (by simpa using h)

theorem hexitValue_hexit (h : n < 16) : hexitValue (hexit n) = some n := by
  have : ∀ m : Fin 16, hexitValue (hexit m) = some m.val := by decide
  exact this ⟨n, h⟩

theorem mem_hexits {c : Char} (h : c ∈ hexits w n) : ∃ m : Fin 16, c = hexit m := by
  induction w generalizing n with
  | zero => cases h
  | succ w ih =>
    rcases List.mem_append.mp h with h | h
    · exact ih h
    · exact ⟨⟨n % 16, Nat.mod_lt n (by decide)⟩, List.mem_singleton.mp h⟩

theorem hexitsLoop_hexits (w k n value : Nat) (rest : List Char) :
    hexitsLoop (hexits w n ++ rest) (w + k) value =
      hexitsLoop rest k (value * 16 ^ w + n % 16 ^ w) := by
  induction w generalizing k n rest with
  | zero => simp [hexits, Nat.mod_one]
  | succ w ih =>
    rw [hexits, List.append_assoc, Nat.add_assoc, ih, Nat.add_comm 1 k, List.singleton_append,
      hexitsLoop, hexitValue_hexit (Nat.mod_lt n (by decide))]
    -- The last digit is the remainder modulo 16, the digits before it the quotient.
    have hmod : n % 16 ^ (w + 1) = 16 * (n / 16 % 16 ^ w) + n % 16 := by
      rw [Nat.pow_succ, Nat.mul_comm (16 ^ w) 16, Nat.mod_mul]
      omega
    show hexitsLoop rest k _ = hexitsLoop rest k _
    rw [hmod, Nat.pow_succ, ← Nat.mul_assoc]
    congr 1
    omega

theorem hexitsValue_hexits (rest : List Char) (h : n < 16 ^ w) :
    hexitsValue (hexits w n ++ rest) w = some n := by
  have := hexitsLoop_hexits w 0 n 0 rest
  simpa [hexitsValue, hexitsLoop, Nat.mod_eq_of_lt h] using this

/-! ## 2. UUIDs -/

def uuidPart (u : Uuid) (i : Nat) : Nat := u.toNat / 2 ^ (32 * (3 - i)) % 2 ^ 32

def uuidOfParts (p0 p1 p2 p3 : Nat) : Uuid :=
  BitVec.ofNat 128 (((p0 * 2 ^ 32 + p1) * 2 ^ 32 + p2) * 2 ^ 32 + p3)

def uuidChars (u : Uuid) : List Char :=
  hexits 8 (uuidPart u 0) ++ ('-' ::
  (hexits 4 (uuidPart u 1 / 2 ^ 16) ++ ('-' ::
  (hexits 4 (uuidPart u 1 % 2 ^ 16) ++ ('-' ::
  (hexits 4 (uuidPart u 2 / 2 ^ 16) ++ ('-' ::
  (hexits 4 (uuidPart u 2 % 2 ^ 16) ++ hexits 8 (uuidPart u 3)))))))))

/-- `UUID_FMT` with `UUID_ARGS`. -/
def uuidToString (u : Uuid) : String := String.ofList (uuidChars u)

def uuidFromStringPrefix (s : List Char) : Option Uuid := do
  let p0 ← hexitsValue s 8
  guard (s[8]? = some '-')
  let p1 ← hexitsValue (s.drop 9) 4
  guard (s[13]? = some '-')
  let q1 ← hexitsValue (s.drop 14) 4
  guard (s[18]? = some '-')
  let p2 ← hexitsValue (s.drop 19) 4
  guard (s[23]? = some '-')
  let q2 ← hexitsValue (s.drop 24) 4
  let p3 ← hexitsValue (s.drop 28) 8
  return uuidOfParts p0 (p1 * 2 ^ 16 + q1) (p2 * 2 ^ 16 + q2) p3

def uuidFromString (s : String) : Option Uuid := do
  let uuid ← uuidFromStringPrefix s.toList
  guard (s.toList[36]? = none)
  return uuid

theorem guard_of {p : Prop} [Decidable p] (h : p) : (guard p : Option Unit) = some () := by
  show (if p then pure () else failure) = _
  rw [if_pos h]
  rfl

theorem uuidPart_lt (u : Uuid) (i : Nat) : uuidPart u i < 2 ^ 32 :=
  Nat.mod_lt _ (by decide)

theorem uuidOfParts_uuidPart :
    uuidOfParts (uuidPart u 0) (uuidPart u 1) (uuidPart u 2) (uuidPart u 3) = u := by
  have hu : u.toNat < 2 ^ 128 := u.isLt
  apply BitVec.eq_of_toNat_eq
  simp only [uuidOfParts, uuidPart, BitVec.toNat_ofNat]
  omega

theorem uuidFromStringPrefix_uuidChars : uuidFromStringPrefix (uuidChars u) = some u := by
  have hwhole (i : Nat) (rest : List Char) :
      hexitsValue (hexits 8 (uuidPart u i) ++ rest) 8 = some (uuidPart u i) :=
    hexitsValue_hexits rest (by have := uuidPart_lt u i; omega)
  have hhigh (i : Nat) (rest : List Char) :
      hexitsValue (hexits 4 (uuidPart u i / 65536) ++ rest) 4 = some (uuidPart u i / 65536) :=
    hexitsValue_hexits rest (by have := uuidPart_lt u i; omega)
  have hlow (i : Nat) (rest : List Char) :
      hexitsValue (hexits 4 (uuidPart u i % 65536) ++ rest) 4 = some (uuidPart u i % 65536) :=
    hexitsValue_hexits rest (by omega)
  have hsum (i : Nat) : uuidPart u i / 2 ^ 16 * 2 ^ 16 + uuidPart u i % 2 ^ 16 = uuidPart u i := by
    omega
  have h0 : hexitsValue (uuidChars u) 8 = some (uuidPart u 0) := hwhole 0 _
  obtain ⟨h9, h14, h19, h24⟩ : hexitsValue ((uuidChars u).drop 9) 4 = some (uuidPart u 1 / 2 ^ 16) ∧
      hexitsValue ((uuidChars u).drop 14) 4 = some (uuidPart u 1 % 2 ^ 16) ∧
      hexitsValue ((uuidChars u).drop 19) 4 = some (uuidPart u 2 / 2 ^ 16) ∧
      hexitsValue ((uuidChars u).drop 24) 4 = some (uuidPart u 2 % 2 ^ 16) := by
    simp [uuidChars, List.drop_append, drop_hexits, hhigh, hlow]
  have h28 : hexitsValue ((uuidChars u).drop 28) 8 = some (uuidPart u 3) := by
    have hlast := hwhole 3 []
    rw [List.append_nil] at hlast
    simp [uuidChars, List.drop_append, drop_hexits, hlast]
  have hdash : ∀ i ∈ [8, 13, 18, 23], (uuidChars u)[i]? = some '-' := by
    simp [uuidChars]
  rw [uuidFromStringPrefix, h0, guard_of (hdash 8 (by decide)), h9, guard_of (hdash 13 (by decide)),
    h14, guard_of (hdash 18 (by decide)), h19, guard_of (hdash 23 (by decide)), h24, h28]
  show some (uuidOfParts _ _ _ _) = _
  rw [hsum, hsum, uuidOfParts_uuidPart]

theorem uuidFromString_uuidToString : uuidFromString (uuidToString u) = some u := by
  have hchars : (uuidToString u).toList = uuidChars u := String.toList_ofList
  have hend : (uuidChars u)[36]? = none := by
    rw [List.getElem?_eq_none_iff]
    simp [uuidChars]
  rw [uuidFromString, hchars, uuidFromStringPrefix_uuidChars, guard_of hend]
  rfl

end Ovsgw
