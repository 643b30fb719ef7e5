/-
  **The `bitwise_*` functions on the integer of an array**: filling a range of bits, testing it
  and scanning it backward, and what all of them do to the integer.

  Filling and testing take the part of a byte before the first whole one, the whole bytes and the
  part after them.  Where the source returns because no bits are left, the loops do nothing.
-/
import Ovsgw.Bitwise
import Ovsgw.Lib.BitField

namespace Ovsgw.Bitwise

open Lib (field withField FirstBit LastBit)

/-! ## 1. Filling -/

def fillByte (bit : Bool) : BitVec 8 := if bit then 0xff else 0

/-- `chunk` bits of a byte get the value `bit`. -/
def fillChunk (bit : Bool) (dst : List (BitVec 8)) (dstOfs chunk : Nat) : List (BitVec 8) :=
  let mask := ((1#8 <<< chunk) - 1) <<< (dstOfs % 8)
  let byte := byteAt dst (dstOfs / 8)
  setByteAt dst (dstOfs / 8) (if bit then byte ||| mask else byte &&& ~~~mask)

/-- The whole bytes and the part after them. -/
def fillBytes (bit : Bool) (dst : List (BitVec 8)) (dstOfs nBits : Nat) : List (BitVec 8) :=
  if 8 ≤ nBits then
    fillBytes bit (setByteAt dst (dstOfs / 8) (fillByte bit)) (dstOfs + 8) (nBits - 8)
  else if nBits = 0 then dst
  else fillChunk bit dst dstOfs nBits
termination_by nBits

def bitwiseFill (bit : Bool) (dst : List (BitVec 8)) (dstOfs nBits : Nat) : List (BitVec 8) :=
  if nBits = 0 then dst
  else if dstOfs % 8 = 0 then fillBytes bit dst dstOfs nBits
  else
    let chunk := min nBits (8 - dstOfs % 8)
    fillBytes bit (fillChunk bit dst dstOfs chunk) (dstOfs + chunk) (nBits - chunk)

def bitwiseZero : List (BitVec 8) → Nat → Nat → List (BitVec 8) := bitwiseFill false

def bitwiseOne : List (BitVec 8) → Nat → Nat → List (BitVec 8) := bitwiseFill true

variable {p dst src : List (BitVec 8)} {bit target : Bool} {ofs dstOfs nBits chunk i k n : Nat}
  {byte : BitVec 8}

theorem byteAt_replicate (hk : k < n) : byteAt (List.replicate n byte) k = byte := by
  have hlt : n - (k + 1) < n := by omega
  simp [byteAt, List.getD_eq_getElem?_getD, hlt]

theorem getLsbD_fillByte (hi : i < 8) : (fillByte bit).getLsbD i = bit := by
  cases bit <;> interval_cases i <;> rfl

theorem getBit_replicate (hi : i < 8 * n) : getBit (List.replicate n (fillByte bit)) i = bit := by
  rw [getBit, byteAt_replicate (by omega), getLsbD_fillByte (Nat.mod_lt _ (by decide))]

/-- Filling is copying from an array that has the bit everywhere. -/
theorem fillChunk_copied (hchunk : chunk ≤ 8 - dstOfs % 8) (hpos : 0 < chunk)
    (hdst : dstOfs + chunk ≤ 8 * dst.length) :
    Copied (List.replicate dst.length (fillByte bit)) dstOfs dst dstOfs chunk
      (fillChunk bit dst dstOfs chunk) where
  length := length_setByteAt _
  bits := by
    intro i hi
    rw [getBit, fillChunk, byteAt_setByteAt (by omega) (by omega)]
    by_cases hbyte : i / 8 = dstOfs / 8
    · rw [if_pos hbyte, apply_ite (BitVec.getLsbD · (i % 8)), BitVec.getLsbD_or,
        BitVec.getLsbD_and, BitVec.getLsbD_not, getLsbD_mask hchunk hbyte]
      by_cases hin : dstOfs ≤ i ∧ i < dstOfs + chunk
      · rw [if_pos hin, getBit_replicate (by omega)]
        cases bit <;> simp [hin]
      · rw [if_neg hin, getBit, hbyte]
        cases bit <;> simp [hin, Nat.mod_lt]
    · rw [if_neg hbyte, if_neg (by omega), getBit]

theorem fillBytes_copied (haligned : 0 < nBits → dstOfs % 8 = 0)
    (hdst : dstOfs + nBits ≤ 8 * dst.length) :
    Copied (List.replicate dst.length (fillByte bit)) dstOfs dst dstOfs nBits
      (fillBytes bit dst dstOfs nBits) := by
  fun_induction fillBytes bit dst dstOfs nBits with
  | case1 dst dstOfs nBits hge ih =>
    have hbyte : Copied (List.replicate dst.length (fillByte bit)) (8 * (dstOfs / 8)) dst
        (8 * (dstOfs / 8)) 8 _ := setByteAt_copied (by omega)
    rw [byteAt_replicate (by omega), show 8 * (dstOfs / 8) = dstOfs by omega] at hbyte
    rw [hbyte.length] at ih
    have hrest := hbyte.trans (ih (by omega) (by omega))
    rwa [Nat.add_sub_cancel' hge] at hrest
  | case2 => exact .zero
  | case3 => exact fillChunk_copied (by omega) (by omega) hdst

theorem bitwiseFill_copied (hdst : dstOfs + nBits ≤ 8 * dst.length) :
    Copied (List.replicate dst.length (fillByte bit)) dstOfs dst dstOfs nBits
      (bitwiseFill bit dst dstOfs nBits) := by
  fun_cases bitwiseFill bit dst dstOfs nBits with
  | case1 hzero => exact hzero ▸ .zero
  | case2 _ haligned => exact fillBytes_copied (fun _ => haligned) hdst
  | case3 hne hunaligned chunk =>
    have hchunk : Copied _ dstOfs dst dstOfs chunk (fillChunk bit dst dstOfs chunk) :=
      fillChunk_copied (by omega) (by omega) (by omega)
    have hrest := @fillBytes_copied (fillChunk bit dst dstOfs chunk) bit (dstOfs + chunk)
      (nBits - chunk)
    rw [hchunk.length] at hrest
    have hall := hchunk.trans (hrest (by omega) (by omega))
    rwa [Nat.add_sub_cancel' (show chunk ≤ nBits by omega)] at hall

/-! ## 2. Testing -/

def isZeroChunk (p : List (BitVec 8)) (ofs chunk : Nat) : Bool :=
  byteAt p (ofs / 8) &&& (((1#8 <<< chunk) - 1) <<< (ofs % 8)) = 0

def isZeroBytes (p : List (BitVec 8)) (ofs nBits : Nat) : Bool :=
  if 8 ≤ nBits then byteAt p (ofs / 8) = 0 && isZeroBytes p (ofs + 8) (nBits - 8)
  else nBits = 0 || isZeroChunk p ofs nBits
termination_by nBits

def bitwiseIsAllZeros (p : List (BitVec 8)) (ofs nBits : Nat) : Bool :=
  if nBits = 0 then true
  else if ofs % 8 = 0 then isZeroBytes p ofs nBits
  else
    let chunk := min nBits (8 - ofs % 8)
    isZeroChunk p ofs chunk && isZeroBytes p (ofs + chunk) (nBits - chunk)

def ZeroBits (p : List (BitVec 8)) (ofs nBits : Nat) : Prop :=
  ∀ i, ofs ≤ i → i < ofs + nBits → getBit p i = false

theorem isZeroChunk_iff (hchunk : chunk ≤ 8 - ofs % 8) :
    isZeroChunk p ofs chunk = true ↔ ZeroBits p ofs chunk := by
  rw [isZeroChunk, decide_eq_true_iff]
  constructor
  · intro h i hge hlt
    have hbyte : i / 8 = ofs / 8 := by omega
    have hand := congrArg (BitVec.getLsbD · (i % 8)) h
    simp only [BitVec.getLsbD_and, getLsbD_mask hchunk hbyte] at hand
    simpa [getBit, hbyte, hge, hlt] using hand
  · intro h
    apply BitVec.eq_of_getLsbD_eq
    intro j hj
    obtain ⟨i, hbyte, rfl⟩ : ∃ i, i / 8 = ofs / 8 ∧ i % 8 = j :=
      ⟨8 * (ofs / 8) + j, by omega, by omega⟩
    rw [BitVec.getLsbD_and, getLsbD_mask hchunk hbyte]
    by_cases hin : ofs ≤ i ∧ i < ofs + chunk
    · have hzero := h i hin.1 hin.2
      rw [getBit, hbyte] at hzero
      simp [hzero]
    · simp [hin]

theorem isZeroChunk_and_iff {rest : Bool} (hchunk : chunk ≤ 8 - ofs % 8) (hle : chunk ≤ nBits)
    (hrest : rest = true ↔ ZeroBits p (ofs + chunk) (nBits - chunk)) :
    (isZeroChunk p ofs chunk && rest) = true ↔ ZeroBits p ofs nBits := by
  rw [Bool.and_eq_true, isZeroChunk_iff hchunk, hrest]
  constructor
  · rintro ⟨hfirst, hrest⟩ i hge hlt
    by_cases hin : i < ofs + chunk
    · exact hfirst i hge hin
    · exact hrest i (by omega) (by omega)
  · intro h
    exact ⟨fun i hge hlt => h i hge (by omega), fun i hge hlt => h i (by omega) (by omega)⟩

theorem isZeroBytes_iff (haligned : 0 < nBits → ofs % 8 = 0) :
    isZeroBytes p ofs nBits = true ↔ ZeroBits p ofs nBits := by
  fun_induction isZeroBytes p ofs nBits with
  | case1 ofs nBits hge ih =>
    have hzero : decide (byteAt p (ofs / 8) = 0) = isZeroChunk p ofs 8 := by
      rw [isZeroChunk, haligned (by omega)]
      exact (congrArg (fun byte => decide (byte = 0)) BitVec.and_allOnes).symm
    rw [hzero]
    exact isZeroChunk_and_iff (by omega) hge (ih (by omega))
  | case2 ofs nBits hlt =>
    rw [Bool.or_eq_true, decide_eq_true_iff, isZeroChunk_iff (by omega), or_iff_right_of_imp]
    unfold ZeroBits
    omega

theorem bitwiseIsAllZeros_iff : bitwiseIsAllZeros p ofs nBits = true ↔ ZeroBits p ofs nBits := by
  fun_cases bitwiseIsAllZeros p ofs nBits with
  | case1 => exact iff_of_true rfl (by unfold ZeroBits; omega)
  | case2 _ haligned => exact isZeroBytes_iff fun _ => haligned
  | case3 _ _ chunk =>
    exact isZeroChunk_and_iff (by omega) (by omega) (isZeroBytes_iff (by omega))

/-! ## 3. Scanning backward -/

/-- A loop from `k - 1` down to `stop` that breaks where `found` holds. -/
def scanDown (found : Nat → Bool) (stop : Nat) : (k : Nat) → Option Nat
  | 0 => none
  | k + 1 => if k < stop then none else if found k then some k else scanDown found stop k

def rscanByte (byte : BitVec 8) (target : Bool) (n : Nat) : Option Nat :=
  scanDown (byte.getLsbD · == target) 0 n

def bitwiseRscan (p : List (BitVec 8)) (target : Bool) (start : Nat) (stop : Int) : Int :=
  match rscanByte (byteAt p (start / 8)) target (start % 8 + 1) with
  | some ofs => max (8 * (start / 8) + ofs : Nat) stop
  | none =>
    match scanDown (byteAt p · != fillByte (!target)) (stop.toNat / 8) (start / 8) with
    | none => stop
    | some k =>
      match rscanByte (byteAt p k) target 8 with
      | some ofs => max (8 * k + ofs : Nat) stop
      | none => max (8 * k - 1) stop

section
variable {found : Nat → Bool} {stop m : Nat}

theorem scanDown_found (h : scanDown found stop k = some m) : m < k ∧ found m = true := by
  fun_induction scanDown found stop k with
  | case1 | case2 => cases h
  | case3 k _ hfound =>
    cases h
    exact ⟨Nat.lt_succ_self _, hfound⟩
  | case4 k _ _ ih => exact (ih h).imp_left Nat.lt_succ_of_lt

theorem scanDown_above {result : Option Nat} (h : scanDown found stop k = result) :
    ∀ j, result.elim stop (· + 1) ≤ j → j < k → found j = false := by
  subst h
  fun_induction scanDown found stop k with
  | case1 => omega
  | case2 | case3 =>
    simp only [Option.elim]
    omega
  | case4 k _ hfound ih =>
    intro j hj hjk
    rcases Nat.lt_succ_iff_lt_or_eq.mp hjk with hlt | rfl
    · exact ih j hj hlt
    · simpa using hfound

end

theorem rscanByte_some (h : rscanByte (byteAt p k) target n = some ofs) (hn : n ≤ 8) :
    ofs < n ∧ getBit p (8 * k + ofs) = target ∧
      ∀ i, i / 8 = k → ofs < i % 8 → i % 8 < n → getBit p i ≠ target := by
  obtain ⟨hlt, hbit⟩ := scanDown_found h
  refine ⟨hlt, ?_, ?_⟩
  · rw [getBit, show (8 * k + ofs) / 8 = k by omega, show (8 * k + ofs) % 8 = ofs by omega]
    simpa using hbit
  · rintro i rfl hge hi
    simpa [getBit] using scanDown_above h (i % 8) hge hi

theorem getBit_of_fillByte (h : byteAt p (i / 8) = fillByte (!target)) : getBit p i ≠ target := by
  rw [getBit, h, getLsbD_fillByte (Nat.mod_lt _ (by decide))]
  exact Bool.not_ne_self target

theorem rscanByte_ne_none (h : byte ≠ fillByte (!target)) : rscanByte byte target 8 ≠ none := by
  intro hnone
  apply h
  apply BitVec.eq_of_getLsbD_eq
  intro j hj
  have hbit := scanDown_above hnone j (Nat.zero_le _) hj
  rw [getLsbD_fillByte hj]
  simpa [Bool.eq_not] using hbit

theorem bitwiseRscan_lastBit {start : Nat} {stop : Int} (hstop : stop ≤ start) :
    LastBit (getBit p) target start stop (bitwiseRscan p target start stop) := by
  rw [bitwiseRscan]
  split
  next ofs hofs =>
    obtain ⟨hlt, hbit, hnone⟩ := rscanByte_some hofs (by omega)
    exact .of_found hstop (by omega) hbit fun i hi hle =>
      hnone i (by omega) (by omega) (by omega)
  next hofs =>
    have habove : ∀ i ≤ start, (scanDown (byteAt p · != fillByte (!target)) (stop.toNat / 8)
        (start / 8)).elim (stop.toNat / 8) (· + 1) ≤ i / 8 → getBit p i ≠ target := by
      intro i hle hge
      by_cases hbyte : i / 8 = start / 8
      · simpa [getBit, hbyte] using scanDown_above hofs (i % 8) (Nat.zero_le _) (by omega)
      · exact getBit_of_fillByte (by simpa using scanDown_above rfl (i / 8) hge (by omega))
    split
    next hk =>
      rw [hk] at habove
      exact ⟨Int.le_refl _, hstop, fun i hi hle => habove i hle (by simp; omega), by omega⟩
    next k hk =>
      rw [hk] at habove
      obtain ⟨hlt, hne⟩ := scanDown_found hk
      split
      next ofs hofs =>
        obtain ⟨hlt8, hbit, hnone⟩ := rscanByte_some hofs (Nat.le_refl 8)
        refine .of_found hstop (by omega) hbit fun i hi hle => ?_
        by_cases hbyte : i / 8 = k
        · exact hnone i hbyte (by omega) (by omega)
        · exact habove i hle (by simp; omega)
      next hofs => exact absurd hofs (rscanByte_ne_none (by simpa using hne))

/-! ## 4. The integer of an array -/

/-- The integer that an array stands for. -/
def toNat (p : List (BitVec 8)) : Nat := p.foldl (fun value byte => 2 ^ 8 * value + byte.toNat) 0

theorem byteAt_cons (hk : k ≤ p.length) :
    byteAt (byte :: p) k = if k = p.length then byte else byteAt p k := by
  rw [byteAt, List.length_cons, Nat.add_sub_add_right]
  split
  next heq => simp [heq]
  next hne =>
    rw [byteAt, show p.length - k = p.length - (k + 1) + 1 by omega, List.getD_cons_succ]

theorem testBit_foldl {init : Nat} :
    (p.foldl (fun value byte => 2 ^ 8 * value + byte.toNat) init).testBit i =
      if i < 8 * p.length then getBit p i else init.testBit (i - 8 * p.length) := by
  induction p generalizing init with
  | nil => simp
  | cons byte p ih =>
    rw [List.foldl_cons, ih, Nat.testBit_two_pow_mul_add _ byte.isLt, List.length_cons]
    by_cases hin : i < 8 * (p.length + 1)
    · have hcons : getBit (byte :: p) i = _ := congrArg (BitVec.getLsbD · (i % 8))
        (byteAt_cons (show i / 8 ≤ p.length by omega))
      rw [if_pos hin, hcons]
      by_cases hlow : i < 8 * p.length
      · rw [if_pos hlow, if_neg (by omega), getBit]
      · rw [if_neg hlow, if_pos (by omega), if_pos (by omega),
          show i % 8 = i - 8 * p.length by omega, BitVec.testBit_toNat]
    · rw [if_neg hin, if_neg (by omega), if_neg (by omega), Nat.sub_sub, Nat.mul_succ]

theorem testBit_toNat : (toNat p).testBit i = (decide (i < 8 * p.length) && getBit p i) := by
  rw [toNat, testBit_foldl, Nat.zero_testBit]
  split
  next hin => simp [hin]
  next hout => simp [hout]

/-- An array as long as `dst` with the low `nBits` bits of `v` from bit `dstOfs` on and the bits of
`dst` elsewhere. -/
def Stored (dst : List (BitVec 8)) (dstOfs nBits v : Nat) (result : List (BitVec 8)) : Prop :=
  result.length = dst.length ∧ toNat result = withField (toNat dst) dstOfs nBits v

theorem Copied.stored {srcOfs v : Nat} {result : List (BitVec 8)}
    (h : Copied src srcOfs dst dstOfs nBits result) (hdst : dstOfs + nBits ≤ 8 * dst.length)
    (hv : ∀ j < nBits, v.testBit j = getBit src (srcOfs + j)) :
    Stored dst dstOfs nBits v result := by
  refine ⟨h.length, Nat.eq_of_testBit_eq fun i => ?_⟩
  rw [Lib.testBit_withField, testBit_toNat, testBit_toNat, h.length]
  by_cases hi : i < 8 * dst.length
  · rw [h.bits i hi, decide_eq_true hi, Bool.true_and, Bool.true_and]
    split
    next hin => exact (hv (i - dstOfs) (by omega)).symm
    next => rfl
  · rw [decide_eq_false hi, Bool.false_and, Bool.false_and, if_neg (by omega)]

theorem bitwiseFill_stored (hdst : dstOfs + nBits ≤ 8 * dst.length) {v : Nat}
    (hv : ∀ j < nBits, v.testBit j = bit) :
    Stored dst dstOfs nBits v (bitwiseFill bit dst dstOfs nBits) := by
  refine (bitwiseFill_copied hdst).stored hdst fun j hj => ?_
  rw [hv j hj, getBit_replicate (by omega)]

/-- The functions on arrays are the operations on the integers that the arrays stand for. -/
theorem bitwise_operations (src dst : List (BitVec 8)) (value : BitVec 64) (target : Bool)
    (srcOfs dstOfs nBits start : Nat) (stop : Int)
    (hsrc : srcOfs + nBits ≤ 8 * src.length) (hdst : dstOfs + nBits ≤ 8 * dst.length) :
    Stored dst dstOfs nBits (field (toNat src) srcOfs nBits)
      (bitwiseCopy src srcOfs dst dstOfs nBits) ∧
    (nBits ≤ 64 → Stored dst dstOfs nBits value.toNat (bitwisePut value dst dstOfs nBits) ∧
      (bitwiseGet src srcOfs nBits).toNat = field (toNat src) srcOfs nBits) ∧
    Stored dst dstOfs nBits 0 (bitwiseZero dst dstOfs nBits) ∧
    Stored dst dstOfs nBits (2 ^ nBits - 1) (bitwiseOne dst dstOfs nBits) ∧
    (bitwiseIsAllZeros src srcOfs nBits = true ↔ field (toNat src) srcOfs nBits = 0) ∧
    FirstBit (toNat src).testBit target srcOfs (srcOfs + nBits)
      (bitwiseScan src target srcOfs (srcOfs + nBits)) ∧
    (start < 8 * src.length → -1 ≤ stop → stop ≤ start →
      LastBit (toNat src).testBit target start stop (bitwiseRscan src target start stop)) := by
  have hbit : ∀ i < 8 * src.length, (toNat src).testBit i = getBit src i := by
    intro i hi
    rw [testBit_toNat, decide_eq_true hi, Bool.true_and]
  have hfield : ∀ j, (field (toNat src) srcOfs nBits).testBit j =
      (decide (j < nBits) && getBit src (srcOfs + j)) := by
    intro j
    rw [Lib.testBit_field]
    by_cases hj : j < nBits
    · rw [hbit _ (by omega)]
    · simp [hj]
  refine ⟨(bitwiseCopy_copied hdst).stored hdst fun j hj => ?_, fun hn => ⟨?_, ?_⟩,
    bitwiseFill_stored hdst fun j _ => Nat.zero_testBit j,
    bitwiseFill_stored hdst fun j hj => ?_, ?_, ?_, fun hstart _ hstop => ?_⟩
  · rw [hfield, decide_eq_true hj, Bool.true_and]
  · refine (bitwiseCopy_copied hdst).stored hdst fun j hj => ?_
    rw [Nat.zero_add, getBit_htonll (by omega), BitVec.testBit_toNat]
  · apply Nat.eq_of_testBit_eq
    intro j
    rw [BitVec.testBit_toNat, hfield]
    by_cases hj : j < 64
    · exact getLsbD_bitwiseGet hn hj
    · rw [BitVec.getLsbD_of_ge _ _ (by omega), decide_eq_false (by omega), Bool.false_and]
  · rw [Nat.testBit_two_pow_sub_one, decide_eq_true hj]
  · rw [bitwiseIsAllZeros_iff, Lib.field_eq_zero_iff]
    exact forall₃_congr fun i _ hlt => by rw [hbit i (by omega)]
  · obtain ⟨hge, hle, hnone, hfound⟩ := bitwiseScan_spec src target (Nat.le_add_right srcOfs nBits)
    refine ⟨hge, hle, fun i hi hlt => ?_, fun hlt => ?_⟩
    · rw [hbit i (by omega)]
      exact hnone i hi hlt
    · rw [hbit _ (by omega)]
      exact hfound hlt
  · obtain ⟨hge, hle, hnone, hfound⟩ : LastBit (getBit src) target start stop _ :=
      bitwiseRscan_lastBit hstop
    refine ⟨hge, hle, fun i hi hlt => ?_, fun i hi hlt => ?_⟩
    · rw [hbit i (by omega)]
      exact hnone i hi hlt
    · rw [hbit i (by omega)]
      exact hfound i hi hlt

/-- Six bits of one pair of bytes into another, and the last bit that is set. -/
theorem bitwise_operations_two_bytes :
    Stored [0xff, 0xff] 7 6 (field (toNat [0x12, 0x34]) 3 6)
      (bitwiseCopy [0x12, 0x34] 3 [0xff, 0xff] 7 6) ∧
    (bitwiseGet [0x12, 0x34] 3 6).toNat = field (toNat [0x12, 0x34]) 3 6 ∧
    LastBit (toNat [0x12, 0x34]).testBit true 11 (-1) (bitwiseRscan [0x12, 0x34] true 11 (-1)) := by
  obtain ⟨hcopy, hget, -, -, -, -, hrscan⟩ := bitwise_operations [0x12, 0x34] [0xff, 0xff] 0 true
    3 7 6 11 (-1) (by decide) (by decide)
  exact ⟨hcopy, (hget (by decide)).2, hrscan (by decide) (by decide) (by decide)⟩

end Ovsgw.Bitwise
