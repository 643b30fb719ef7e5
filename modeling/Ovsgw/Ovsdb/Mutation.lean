/-
  **Mutating integers** (`mutate_scalar` and the functions on `int64_t` of `ovsdb/mutation.c`).

  An operation on `int64_t` whose result does not fit, or a division by zero, has no defined
  behaviour in C and no result here.  Addition, subtraction and division are exact.  The test of
  `mul_int` rejects the largest product of two positive numbers, and of two negative numbers it
  compares the wrong one: it divides by zero where the second is zero.
-/
import Ovsgw.Ovsdb.Datum

namespace Ovsgw.Ovsdb

open BitVec (ofInt intMin intMax msb_not msb_xor)

/-! ## 1. The functions -/

/-- The part of `enum ovsdb_mutator` that changes scalars. -/
inductive Mutator where
  | add | sub | mul | div | mod
deriving DecidableEq

def Mutator.toString : Mutator → String
  | .add => "+="
  | .sub => "-="
  | .mul => "*="
  | .div => "/="
  | .mod => "%="

/-- `enum ovsdb_mutation_scalar_error` without `ME_OK`. -/
inductive MutationError where
  | dom | range
deriving DecidableEq

/-- `ovsdb_mutation_scalar_error`. -/
def MutationError.error (mutator : Mutator) : MutationError → OvsdbError
  | .dom => { tag := "domain error", details := "Division by zero." }
  | .range =>
    { tag := "range error"
      details := "Result of \"" ++ mutator.toString ++ "\" operation is out of range." }

/-- The result of an operation on `int64_t`. -/
def int64 (i : Int) : Option (BitVec 64) := if IsLongLong i then some (ofInt 64 i) else none

/-- `x / y` on `int64_t`. -/
def quotient (x y : BitVec 64) : Option Int :=
  if y = 0 ∨ x = intMin 64 ∧ y.toInt = -1 then none else some (x.toInt.tdiv y.toInt)

def store (overflows : Bool) (i : Int) : Option (Except MutationError (BitVec 64)) :=
  if overflows then some (.error .range) else (int64 i).map .ok

def addInt (x y : BitVec 64) : Option (Except MutationError (BitVec 64)) := do
  let z := ~~~(x ^^^ y) &&& intMin 64
  let sum ← int64 ((x ^^^ z).toInt + y.toInt)
  store ((~~~(x ^^^ y) &&& ~~~(sum ^^^ y)).sshiftRight 63 ≠ 0) (x.toInt + y.toInt)

def subInt (x y : BitVec 64) : Option (Except MutationError (BitVec 64)) := do
  let z := (x ^^^ y) &&& intMin 64
  let difference ← int64 ((x ^^^ z).toInt - y.toInt)
  store (((x ^^^ y) &&& (difference ^^^ y)).sshiftRight 63 ≠ 0) (x.toInt - y.toInt)

def mulOverflows (x y : BitVec 64) : Option Bool :=
  if 0 < x.toInt then
    if 0 < y.toInt then (quotient (BitVec.intMax 64) y).map fun q => q ≤ x.toInt
    else (quotient (BitVec.intMin 64) x).map fun q => y.toInt < q
  else if 0 < y.toInt then (quotient (BitVec.intMin 64) y).map fun q => x.toInt < q
  else if x = 0 then some false
  else (quotient (BitVec.intMax 64) y).map fun q => y.toInt < q

def mulInt (x y : BitVec 64) : Option (Except MutationError (BitVec 64)) := do
  store (← mulOverflows x y) (x.toInt * y.toInt)

def checkIntDiv (x y : BitVec 64) : Option MutationError :=
  if y = 0 then some .dom
  else if x = intMin 64 ∧ y.toInt = -1 then some .range
  else none

def divInt (x y : BitVec 64) : Option (Except MutationError (BitVec 64)) :=
  match checkIntDiv x y with
  | some error => some (.error error)
  | none => (quotient x y).map fun q => .ok (ofInt 64 q)

/-- `mod_int`; the remainder is defined where the quotient is. -/
def modInt (x y : BitVec 64) : Option (Except MutationError (BitVec 64)) :=
  match checkIntDiv x y with
  | some error => some (.error error)
  | none => (quotient x y).map fun _ => .ok (ofInt 64 (x.toInt.tmod y.toInt))

/-- The member `mutate_integer` of `add_mutation` and so on. -/
def Mutator.mutateInteger : Mutator → BitVec 64 → BitVec 64 →
    Option (Except MutationError (BitVec 64))
  | .add => addInt
  | .sub => subInt
  | .mul => mulInt
  | .div => divInt
  | .mod => modInt

/-- The first loop of `mutate_scalar`, over keys that are integers. -/
def mutateKeys (mutator : Mutator) (y : Int) : Datum → Option (Except MutationError Datum)
  | [] => some (.ok [])
  | ⟨.integer x, value⟩ :: dst =>
    match mutator.mutateInteger (ofInt 64 x) (ofInt 64 y) with
    | none => none
    | some (.error error) => some (.error error)
    | some (.ok x) => (mutateKeys mutator y dst).map fun rest =>
        rest.map (⟨.integer x.toInt, value⟩ :: ·)
  -- Not reached: the keys are integers.
  | _ :: _ => none

def checkMutated (d : Doubles) (type : OvsdbType) (mutator : Mutator) (dst : Datum) :
    Except OvsdbError Datum :=
  match dst.findSome? fun e => atomCheckConstraints d e.key type.key with
  | some error => .error error
  | none =>
    match dst.sort with
    | some dst => .ok dst
    | none =>
      .error (constraintViolation ("Result of \"" ++ mutator.toString ++
        "\" operation contains duplicates."))

/-- `mutate_scalar` for a column of integers. -/
def mutateScalar (d : Doubles) (type : OvsdbType) (dst : Datum) (arg : Int) (mutator : Mutator) :
    Option (Except OvsdbError Datum) :=
  (mutateKeys mutator arg dst).map fun
    | .error error => .error (error.error mutator)
    | .ok dst => checkMutated d type mutator dst

/-! ## 2. Sign bits -/

theorem xor_intMin (x : BitVec 64) : x ^^^ intMin 64 = x + intMin 64 := by
  apply BitVec.eq_of_getLsbD_eq
  intro i hi
  have hcarry : BitVec.carry i x (intMin 64) false = false := by
    have hdvd : 2 ^ i ∣ 2 ^ 63 := Nat.pow_dvd_pow 2 (by omega)
    have hlt : x.toNat % 2 ^ i < 2 ^ i := Nat.mod_lt _ (Nat.two_pow_pos i)
    rw [BitVec.carry, show (intMin 64).toNat = 2 ^ 63 from rfl, Nat.mod_eq_zero_of_dvd hdvd]
    simp [hlt]
  rw [BitVec.getLsbD_xor, BitVec.getLsbD_add hi, hcarry, Bool.xor_false]

theorem and_intMin (x : BitVec 64) :
    x &&& intMin 64 = if x.msb then intMin 64 else 0 := by
  apply BitVec.eq_of_getLsbD_eq
  intro i hi
  rw [BitVec.msb_eq_getLsbD_last, BitVec.getLsbD_and]
  by_cases h : i = 63
  · subst h
    split <;> simp_all
  · have hbit : (intMin 64).getLsbD i = false := by
      rw [BitVec.getLsbD_intMin]
      simp [h]
    split <;> simp [hbit]

/-- Flipping the sign moves a number by 2⁶³. -/
theorem toInt_xor_sign (x w : BitVec 64) : (x ^^^ (w &&& intMin 64)).toInt =
    if w.msb then if x.msb then x.toInt + 2 ^ 63 else x.toInt - 2 ^ 63 else x.toInt := by
  have hlow := x.le_toInt
  have hhigh := x.toInt_lt
  have hsign := x.msb_eq_toInt
  rw [and_intMin]
  split
  · rw [xor_intMin, BitVec.toInt_add, show (intMin 64).toInt = -2 ^ 63 from rfl,
      Int.bmod_def]
    cases hmsb : x.msb <;> simp_all <;> omega
  · simp

theorem msb_cases (x : BitVec 64) : x.msb = true ∧ x.toInt < 0 ∨ x.msb = false ∧ 0 ≤ x.toInt := by
  rw [x.msb_eq_toInt]
  by_cases h : x.toInt < 0
  · exact .inl ⟨decide_eq_true h, h⟩
  · exact .inr ⟨decide_eq_false h, Int.not_lt.mp h⟩

theorem sshiftRight_ne_zero (x : BitVec 64) : decide (x.sshiftRight 63 ≠ 0) = x.msb := by
  have hlow := x.le_toInt
  have hhigh := x.toInt_lt
  rw [BitVec.msb_eq_toInt, decide_eq_decide, ne_eq, ← BitVec.toInt_inj,
    BitVec.toInt_sshiftRight, Int.shiftRight_eq_div_pow]
  simp
  omega

/-! ## 3. Exact results -/

def Mutator.exact : Mutator → Int → Int → Int
  | .add, x, y => x + y
  | .sub, x, y => x - y
  | .mul, x, y => x * y
  | .div, x, y => x.tdiv y
  | .mod, x, y => x.tmod y

/-- What a mutation should give. -/
def Mutator.result (mutator : Mutator) (x y : Int) : Except MutationError Int :=
  if (mutator = .div ∨ mutator = .mod) ∧ y = 0 then .error .dom
  else if IsLongLong (mutator.exact x y) then .ok (mutator.exact x y)
  else .error .range

/-- The operands for which the code gives it. -/
def Mutator.Sound (mutator : Mutator) (x y : Int) : Prop :=
  match mutator with
  | .mul =>
    let q := (llongMax : Int).tdiv y
    (0 < x → 0 < y → x ≠ q) ∧ (x < 0 → y ≠ 0) ∧ (x < 0 → y < 0 → (y < q ↔ x < q))
  | .mod => ¬ (x = -(llongMax : Int) - 1 ∧ y = -1)
  | _ => True

section
variable (x y : BitVec 64)

theorem isLongLong_toInt : IsLongLong x.toInt :=
  ⟨x.le_toInt, Int.le_sub_one_of_lt x.toInt_lt⟩

theorem toInt_ofInt_of_isLongLong {i : Int} (h : IsLongLong i) : (ofInt 64 i).toInt = i :=
  BitVec.toInt_ofInt_eq_self (by decide) h.1 (Int.lt_of_le_sub_one h.2)

theorem store_eq_iff {overflows : Bool} {i : Int} :
    store overflows i = some (if IsLongLong i then .ok (ofInt 64 i) else .error .range) ↔
      (overflows = true ↔ ¬ IsLongLong i) := by
  rw [store, int64]
  by_cases hi : IsLongLong i <;> cases overflows <;> simp [hi]

theorem addInt_eq : addInt x y = some (if IsLongLong (x.toInt + y.toInt)
    then .ok (ofInt 64 (x.toInt + y.toInt)) else .error .range) := by
  obtain ⟨hxlow, hxhigh⟩ := isLongLong_toInt x
  obtain ⟨hylow, hyhigh⟩ := isLongLong_toInt y
  have hflip := toInt_xor_sign x (~~~(x ^^^ y))
  rw [msb_not, msb_xor] at hflip
  have hsum : IsLongLong ((x ^^^ (~~~(x ^^^ y) &&& intMin 64)).toInt + y.toInt) := by
    rw [IsLongLong, hflip]
    simp only [llongMax] at *
    rcases msb_cases x with ⟨hx, _⟩ | ⟨hx, _⟩ <;> rcases msb_cases y with ⟨hy, _⟩ | ⟨hy, _⟩ <;>
      simp [hx, hy] <;> omega
  rw [addInt, int64, if_pos hsum]
  apply store_eq_iff.mpr
  rw [sshiftRight_ne_zero, BitVec.msb_and, msb_not, msb_not, msb_xor,
    msb_xor, (ofInt 64 _).msb_eq_toInt, toInt_ofInt_of_isLongLong hsum, hflip]
  clear hsum hflip
  simp only [IsLongLong, llongMax] at *
  rcases msb_cases x with ⟨hx, _⟩ | ⟨hx, _⟩ <;> rcases msb_cases y with ⟨hy, _⟩ | ⟨hy, _⟩ <;>
    simp [hx, hy] <;> omega

theorem subInt_eq : subInt x y = some (if IsLongLong (x.toInt - y.toInt)
    then .ok (ofInt 64 (x.toInt - y.toInt)) else .error .range) := by
  obtain ⟨hxlow, hxhigh⟩ := isLongLong_toInt x
  obtain ⟨hylow, hyhigh⟩ := isLongLong_toInt y
  have hflip := toInt_xor_sign x (x ^^^ y)
  rw [msb_xor] at hflip
  have hdifference : IsLongLong ((x ^^^ ((x ^^^ y) &&& intMin 64)).toInt - y.toInt) := by
    rw [IsLongLong, hflip]
    simp only [llongMax] at *
    rcases msb_cases x with ⟨hx, _⟩ | ⟨hx, _⟩ <;> rcases msb_cases y with ⟨hy, _⟩ | ⟨hy, _⟩ <;>
      simp [hx, hy] <;> omega
  rw [subInt, int64, if_pos hdifference]
  apply store_eq_iff.mpr
  rw [sshiftRight_ne_zero, BitVec.msb_and, msb_xor, msb_xor,
    (ofInt 64 _).msb_eq_toInt, toInt_ofInt_of_isLongLong hdifference, hflip]
  clear hdifference hflip
  simp only [IsLongLong, llongMax] at *
  rcases msb_cases x with ⟨hx, _⟩ | ⟨hx, _⟩ <;> rcases msb_cases y with ⟨hy, _⟩ | ⟨hy, _⟩ <;>
    simp [hx, hy] <;> omega

theorem tdiv_lt_iff {m c n : Int} (hm : 0 ≤ m) (hc : 0 < c) : m.tdiv c < n ↔ m < n * c := by
  rw [Int.tdiv_eq_ediv_of_nonneg hm, Int.ediv_lt_iff_lt_mul hc]

theorem quotient_intMax (h : y.toInt ≠ 0) :
    quotient (BitVec.intMax 64) y = some ((2 ^ 63 - 1 : Int).tdiv y.toInt) := by
  have hy : y ≠ 0 := fun hy => h (hy ▸ rfl)
  rw [quotient, if_neg (not_or.mpr ⟨hy, fun hmin => absurd hmin.1 (by decide)⟩)]
  rfl

theorem quotient_intMin (h : 0 < y.toInt) :
    quotient (intMin 64) y = some (-(2 ^ 63 : Int).tdiv y.toInt) := by
  have hy : y ≠ 0 := fun hy => h.ne' (hy ▸ rfl)
  rw [quotient, if_neg (not_or.mpr ⟨hy, fun hmin => by omega⟩), ← Int.neg_tdiv]
  rfl

theorem toInt_eq_zero : y.toInt = 0 ↔ y = 0 :=
  ⟨fun h => BitVec.eq_of_toInt_eq h, fun h => h ▸ rfl⟩

theorem toInt_neg (hpos : ¬ 0 < y.toInt) (hne : y ≠ 0) : y.toInt < 0 := by
  have := mt (toInt_eq_zero y).mp hne
  omega

theorem store_decide_iff {p : Prop} [Decidable p] {i : Int} :
    store p i = some (if IsLongLong i then .ok (ofInt 64 i) else .error .range) ↔
      (p ↔ ¬ (-(2 ^ 63) ≤ i ∧ i ≤ 2 ^ 63 - 1)) := by
  rw [store_eq_iff, decide_eq_true_iff]
  rfl

-- The branches are those of the code; in each the quotient bounds the product.
theorem mulInt_eq_iff : mulInt x y = some (if IsLongLong (x.toInt * y.toInt)
    then .ok (ofInt 64 (x.toInt * y.toInt)) else .error .range) ↔
      Mutator.Sound .mul x.toInt y.toInt := by
  rw [mulInt, mulOverflows]
  simp only [Mutator.Sound, show (llongMax : Int) = 2 ^ 63 - 1 from rfl]
  by_cases hx : 0 < x.toInt
  · by_cases hy : 0 < y.toInt
    · have hbound := tdiv_lt_iff (n := x.toInt) (by decide : (0 : Int) ≤ 2 ^ 63 - 1) hy
      have hpos := Int.mul_pos hx hy
      rw [if_pos hx, if_pos hy, quotient_intMax y hy.ne']
      refine store_decide_iff.trans ?_
      omega
    · have hbound := tdiv_lt_iff (n := -y.toInt) (by decide : (0 : Int) ≤ 2 ^ 63) hx
      have hneg := Int.mul_nonneg (by omega : 0 ≤ -y.toInt) hx.le
      rw [Int.neg_mul, Int.mul_comm] at hbound hneg
      rw [if_pos hx, if_neg hy, quotient_intMin x hx]
      refine store_decide_iff.trans ?_
      omega
  · by_cases hy : 0 < y.toInt
    · have hbound := tdiv_lt_iff (n := -x.toInt) (by decide : (0 : Int) ≤ 2 ^ 63) hy
      have hneg := Int.mul_nonneg (by omega : 0 ≤ -x.toInt) hy.le
      rw [Int.neg_mul] at hbound hneg
      rw [if_neg hx, if_pos hy, quotient_intMin y hy]
      refine store_decide_iff.trans ?_
      omega
    · by_cases hx0 : x = 0
      · rw [if_neg hx, if_neg hy, if_pos hx0]
        show store false _ = _ ↔ _
        rw [store_eq_iff]
        simp [hx0, IsLongLong]
      · have hxneg := toInt_neg x hx hx0
        by_cases hy0 : y = 0
        · -- `INT64_MAX / 0`
          rw [if_neg hx, if_neg hy, if_neg hx0, quotient, if_pos (.inl hy0)]
          simp [hy0, hxneg]
        have hyneg := toInt_neg y hy hy0
        have hbound := tdiv_lt_iff (n := -x.toInt) (by decide : (0 : Int) ≤ 2 ^ 63 - 1)
          (by omega : 0 < -y.toInt)
        have hpos := Int.mul_pos_of_neg_of_neg hxneg hyneg
        rw [Int.tdiv_neg, Int.neg_mul_neg] at hbound
        rw [if_neg hx, if_neg hy, if_neg hx0, quotient_intMax y hyneg.ne]
        refine store_decide_iff.trans ?_
        omega

theorem Mutator.result_map (mutator : Mutator) {x y : Int}
    (h : ¬ ((mutator = .div ∨ mutator = .mod) ∧ y = 0)) :
    (mutator.result x y).map (ofInt 64) = if IsLongLong (mutator.exact x y)
      then .ok (ofInt 64 (mutator.exact x y)) else .error .range := by
  rw [Mutator.result, if_neg h]
  split <;> rfl

theorem divInt_eq : divInt x y = some ((Mutator.result .div x.toInt y.toInt).map (.ofInt 64)) := by
  by_cases hy : y = 0
  · rw [divInt, checkIntDiv, if_pos hy, Mutator.result, if_pos ⟨.inl rfl, (toInt_eq_zero y).mpr hy⟩]
    rfl
  rw [Mutator.result_map _ (fun h => hy ((toInt_eq_zero y).mp h.2)), divInt, checkIntDiv, if_neg hy]
  by_cases hmin : x = intMin 64 ∧ y.toInt = -1
  · rw [if_pos hmin, if_neg]
    rw [hmin.1, hmin.2]
    decide
  · have hfits : IsLongLong (x.toInt.tdiv y.toInt) := by
      rw [← BitVec.toInt_sdiv_of_ne_or_ne]
      · exact isLongLong_toInt _
      · exact (not_and_or.mp hmin).imp_right fun h hy => h (hy ▸ rfl)
    rw [if_neg hmin, quotient, if_neg (not_or.mpr ⟨hy, hmin⟩), Mutator.exact, if_pos hfits]
    rfl

theorem modInt_eq_iff : modInt x y = some ((Mutator.result .mod x.toInt y.toInt).map (.ofInt 64)) ↔
    Mutator.Sound .mod x.toInt y.toInt := by
  by_cases hy : y = 0
  · rw [modInt, checkIntDiv, if_pos hy, Mutator.result, if_pos ⟨.inr rfl, (toInt_eq_zero y).mpr hy⟩]
    simp [Mutator.Sound, hy, Except.map]
  have hfits : IsLongLong (x.toInt.tmod y.toInt) := by
    rw [← BitVec.toInt_srem]
    exact isLongLong_toInt _
  rw [Mutator.result_map _ (fun h => hy ((toInt_eq_zero y).mp h.2)), modInt, checkIntDiv, if_neg hy,
    Mutator.exact, if_pos hfits, Mutator.Sound]
  by_cases hmin : x = intMin 64 ∧ y.toInt = -1
  · rw [if_pos hmin]
    exact iff_of_false (by rintro ⟨⟩) fun h => h ⟨hmin.1 ▸ rfl, hmin.2⟩
  · have hsound : ¬ (x.toInt = -(llongMax : Int) - 1 ∧ y.toInt = -1) :=
      fun h => hmin ⟨BitVec.eq_of_toInt_eq h.1, h.2⟩
    rw [if_neg hmin, quotient, if_neg (not_or.mpr ⟨hy, hmin⟩)]
    exact iff_of_true rfl hsound

/-- A mutation of one integer is exact just if the operands are sound. -/
theorem mutateInteger_eq_iff (mutator : Mutator) :
    mutator.mutateInteger x y = some ((mutator.result x.toInt y.toInt).map (ofInt 64)) ↔
      mutator.Sound x.toInt y.toInt := by
  cases mutator with
  | add =>
    rw [Mutator.result_map _ (by simp)]
    exact iff_of_true (addInt_eq x y) trivial
  | sub =>
    rw [Mutator.result_map _ (by simp)]
    exact iff_of_true (subInt_eq x y) trivial
  | mul =>
    rw [Mutator.result_map _ (by simp)]
    exact mulInt_eq_iff x y
  | div => exact iff_of_true (divInt_eq x y) trivial
  | mod => exact modInt_eq_iff x y

end

def Mutator.element (mutator : Mutator) (y : Int) : Element → Except MutationError Element
  | ⟨.integer x, value⟩ => (mutator.result x y).map fun x => ⟨.integer x, value⟩
  | e => .ok e

/-- Keys that are `int64_t` and for which the code gives the exact result. -/
def Mutator.SoundOn (mutator : Mutator) (y : Int) (dst : Datum) : Prop :=
  ∀ e ∈ dst, ∃ x, e.key = .integer x ∧ IsLongLong x ∧ mutator.Sound x y

/-- Each key is mutated as a number. -/
theorem mutateKeys_eq {mutator : Mutator} {y : Int} (hy : IsLongLong y) {dst : Datum}
    (h : mutator.SoundOn y dst) :
    mutateKeys mutator y dst = some (dst.mapM (mutator.element y)) := by
  induction dst with
  | nil => rfl
  | cons e dst ih =>
    obtain ⟨x, hkey, hx, hsound⟩ := h e List.mem_cons_self
    obtain ⟨_, value⟩ := e
    cases hkey
    have hmutate := mutateInteger_eq_iff (.ofInt 64 x) (.ofInt 64 y) mutator
    rw [toInt_ofInt_of_isLongLong hx, toInt_ofInt_of_isLongLong hy] at hmutate
    rw [mutateKeys, hmutate.mpr hsound, ih fun e he => h e (List.mem_cons_of_mem _ he),
      List.mapM_cons, Mutator.element]
    rcases hresult : mutator.result x y with error | i
    · rfl
    · have hi : IsLongLong i := by
        rw [Mutator.result] at hresult
        split_ifs at hresult with _ hi
        cases hresult
        exact hi
      have htoInt := toInt_ofInt_of_isLongLong hi
      cases dst.mapM (mutator.element y) with
      | error => rfl
      | ok dst => simp [Except.map, htoInt, bind, Except.bind, pure, Except.pure]

/-- A mutation of two integers is exact just if they are sound, and `mutate_scalar` is exact on
    keys that are all sound. -/
theorem mutateScalar_exact (mutator : Mutator) {y : Int} (hy : IsLongLong y) :
    (∀ x, IsLongLong x → (mutator.mutateInteger (ofInt 64 x) (ofInt 64 y) =
      some ((mutator.result x y).map (ofInt 64)) ↔ mutator.Sound x y)) ∧
    ∀ (d : Doubles) (type : OvsdbType) (dst : Datum), mutator.SoundOn y dst →
      mutateScalar d type dst y mutator = some (match dst.mapM (mutator.element y) with
        | .error error => .error (error.error mutator)
        | .ok dst => checkMutated d type mutator dst) := by
  constructor
  · intro x hx
    have hmutate := mutateInteger_eq_iff (ofInt 64 x) (ofInt 64 y) mutator
    rwa [toInt_ofInt_of_isLongLong hx, toInt_ofInt_of_isLongLong hy] at hmutate
  · intro d type dst h
    rw [mutateScalar, mutateKeys_eq hy h]
    rfl

def sampleKeys : Datum := [⟨.integer 6, none⟩, ⟨.integer 7, none⟩]

theorem mutateScalar_exact_mul : Mutator.SoundOn .mul (-3) sampleKeys ∧
    ∀ d type, mutateScalar d type sampleKeys (-3) .mul =
      some (checkMutated d type .mul [⟨.integer (-18), none⟩, ⟨.integer (-21), none⟩]) := by
  have hsound : Mutator.SoundOn .mul (-3) sampleKeys := by
    intro e he
    rcases List.mem_pair.mp he with rfl | rfl
    · exact ⟨6, rfl, by decide, by simp [Mutator.Sound]⟩
    · exact ⟨7, rfl, by decide, by simp [Mutator.Sound]⟩
  exact ⟨hsound, fun d type => (mutateScalar_exact .mul (by decide)).2 d type _ hsound⟩

/-- `MAX * 1` and `MIN % -1` are refused, `-1 * 0` divides by zero and `-2⁶² * -2` overflows. -/
theorem mutateInteger_not_exact :
    Mutator.mutateInteger .mul (BitVec.intMax 64) 1 = some (.error .range) ∧
    Mutator.mutateInteger .mul (-1) 0 = none ∧
    Mutator.mutateInteger .mul (BitVec.ofInt 64 (-2 ^ 62)) (-2) = none ∧
    Mutator.mutateInteger .mod (BitVec.intMin 64) (-1) = some (.error .range) := by
  decide

end Ovsgw.Ovsdb
