/-
  **Bit fields in byte arrays** (the `bitwise_*` functions of `lib/util.c`).

  An array stands for an integer in network byte order, so bit `ofs` is in byte `ofs / 8` counted
  from the end.  The pointers of the source and the offsets within the bytes that they point to
  are one offset here.
-/
import Mathlib.Data.Nat.Notation
import Mathlib.Tactic.IntervalCases

namespace Ovsgw.Bitwise

/-- Byte `k` of an array, counted from the end. -/
def byteAt (p : List (BitVec 8)) (k : Nat) : BitVec 8 := p.getD (p.length - (k + 1)) 0

def setByteAt (p : List (BitVec 8)) (k : Nat) (byte : BitVec 8) : List (BitVec 8) :=
  p.set (p.length - (k + 1)) byte

def getBit (p : List (BitVec 8)) (ofs : Nat) : Bool := (byteAt p (ofs / 8)).getLsbD (ofs % 8)

/-! ## 1. Copying -/

/-- `chunk` bits of a byte of `src` into a byte of `dst`. -/
def copyChunk (src : List (BitVec 8)) (srcOfs : Nat) (dst : List (BitVec 8)) (dstOfs chunk : Nat) :
    List (BitVec 8) :=
  let mask := ((1#8 <<< chunk) - 1) <<< (dstOfs % 8)
  setByteAt dst (dstOfs / 8) ((byteAt dst (dstOfs / 8) &&& ~~~mask) |||
    (((byteAt src (srcOfs / 8) >>> (srcOfs % 8)) <<< (dstOfs % 8)) &&& mask))

def copyLoop (src : List (BitVec 8)) (srcOfs : Nat) (dst : List (BitVec 8)) (dstOfs nBits : Nat) :
    List (BitVec 8) :=
  if nBits = 0 then dst
  else
    let chunk := min nBits (8 - max (srcOfs % 8) (dstOfs % 8))
    copyLoop src (srcOfs + chunk) (copyChunk src srcOfs dst dstOfs chunk) (dstOfs + chunk)
      (nBits - chunk)
termination_by nBits
decreasing_by omega

/-- The `memcpy` of `bitwise_copy`: `nBytes` bytes, each from the end. -/
def copyBytes (src : List (BitVec 8)) (srcByte : Nat) (dst : List (BitVec 8)) (dstByte : Nat) :
    (nBytes : Nat) → List (BitVec 8)
  | 0 => dst
  | n + 1 => setByteAt (copyBytes src srcByte dst dstByte n) (dstByte + n) (byteAt src (srcByte + n))

def bitwiseCopy (src : List (BitVec 8)) (srcOfs : Nat) (dst : List (BitVec 8))
    (dstOfs nBits : Nat) : List (BitVec 8) :=
  if srcOfs % 8 = 0 ∧ dstOfs % 8 = 0 then
    let dst := copyBytes src (srcOfs / 8) dst (dstOfs / 8) (nBits / 8)
    if nBits % 8 = 0 then dst
    else copyChunk src (srcOfs + 8 * (nBits / 8)) dst (dstOfs + 8 * (nBits / 8)) (nBits % 8)
  else copyLoop src srcOfs dst dstOfs nBits

variable {value : BitVec 64}

section
variable {src dst p : List (BitVec 8)} {srcOfs dstOfs nBits chunk i k : Nat}
  {srcByte n dstByte : Nat}

@[simp] theorem length_setByteAt (byte : BitVec 8) : (setByteAt p k byte).length = p.length := by
  simp [setByteAt]

theorem byteAt_setByteAt (hk : k < p.length) (hi : i < p.length) {byte : BitVec 8} :
    byteAt (setByteAt p k byte) i = if i = k then byte else byteAt p i := by
  have hindex : p.length - (k + 1) = p.length - (i + 1) ↔ i = k := by omega
  have hlt : p.length - (k + 1) < p.length := by omega
  simp only [byteAt, setByteAt, List.length_set, List.getD_eq_getElem?_getD, List.getElem?_set,
    hindex, hlt, if_true]
  split <;> rfl

theorem getLsbD_mask (hchunk : chunk ≤ 8 - k % 8) (hi : i / 8 = k / 8) :
    (((1#8 <<< chunk) - 1) <<< (k % 8)).getLsbD (i % 8) = decide (k ≤ i ∧ i < k + chunk) := by
  have hlow : ∀ m ≤ 8, ∀ j < 8, ((1#8 <<< m) - 1).getLsbD j = decide (j < m) := by decide
  rw [BitVec.getLsbD_shiftLeft, hlow chunk (by omega) _ (by omega)]
  simp only [← decide_not, ← Bool.decide_and, decide_eq_decide]
  omega

/-- What `dst` and `src` must have room for, and the bits of `dst` after a copy. -/
structure Copied (src : List (BitVec 8)) (srcOfs : Nat) (dst : List (BitVec 8))
    (dstOfs nBits : Nat) (result : List (BitVec 8)) : Prop where
  length : result.length = dst.length
  bits : ∀ i < 8 * dst.length, getBit result i =
    if dstOfs ≤ i ∧ i < dstOfs + nBits then getBit src (srcOfs + (i - dstOfs)) else getBit dst i

theorem copyChunk_copied (hchunk : chunk ≤ 8 - max (srcOfs % 8) (dstOfs % 8))
    (hdst : dstOfs + chunk ≤ 8 * dst.length) (hpos : 0 < chunk) :
    Copied src srcOfs dst dstOfs chunk (copyChunk src srcOfs dst dstOfs chunk) where
  length := length_setByteAt _
  bits := by
    intro i hi
    rw [getBit, copyChunk, byteAt_setByteAt (by omega) (by omega)]
    by_cases hbyte : i / 8 = dstOfs / 8
    · have hmask := getLsbD_mask (show chunk ≤ 8 - dstOfs % 8 by omega) hbyte
      rw [if_pos hbyte, BitVec.getLsbD_or, BitVec.getLsbD_and, BitVec.getLsbD_and,
        BitVec.getLsbD_not, hmask]
      by_cases hin : dstOfs ≤ i ∧ i < dstOfs + chunk
      · have hsrc : (srcOfs + (i - dstOfs)) / 8 = srcOfs / 8 ∧
            (srcOfs + (i - dstOfs)) % 8 = srcOfs % 8 + (i % 8 - dstOfs % 8) := by omega
        rw [if_pos hin, getBit, hsrc.1, hsrc.2]
        simp [hin, show ¬ i % 8 < dstOfs % 8 by omega, Nat.mod_lt]
      · rw [if_neg hin, getBit, hbyte]
        simp [hin, Nat.mod_lt]
    · rw [if_neg hbyte, if_neg (by omega), getBit]

theorem Copied.trans {middle result : List (BitVec 8)}
    (h : Copied src srcOfs dst dstOfs nBits middle)
    (h' : Copied src (srcOfs + nBits) middle (dstOfs + nBits) n result) :
    Copied src srcOfs dst dstOfs (nBits + n) result where
  length := h'.length.trans h.length
  bits := by
    intro i hi
    rw [h'.bits i (by rw [h.length]; exact hi), h.bits i hi]
    by_cases hlater : dstOfs + nBits ≤ i ∧ i < dstOfs + nBits + n
    · rw [if_pos hlater, if_pos (by omega)]
      congr 1
      omega
    · rw [if_neg hlater]
      by_cases hearlier : dstOfs ≤ i ∧ i < dstOfs + nBits
      · rw [if_pos hearlier, if_pos (by omega)]
      · rw [if_neg hearlier, if_neg (by omega)]

theorem Copied.zero : Copied src srcOfs dst dstOfs 0 dst where
  length := rfl
  bits := by
    intro i _
    rw [if_neg (by omega)]

theorem copyLoop_copied (hdst : dstOfs + nBits ≤ 8 * dst.length) :
    Copied src srcOfs dst dstOfs nBits (copyLoop src srcOfs dst dstOfs nBits) := by
  fun_induction copyLoop src srcOfs dst dstOfs nBits with
  | case1 => exact .zero
  | case2 srcOfs dst dstOfs nBits hne chunk ih =>
    have hchunk : Copied src srcOfs dst dstOfs chunk (copyChunk src srcOfs dst dstOfs chunk) :=
      copyChunk_copied (by omega) (by omega) (by omega)
    have hrest := hchunk.trans (ih (by rw [hchunk.length]; omega))
    rwa [Nat.add_sub_cancel' (show chunk ≤ nBits by omega)] at hrest

theorem setByteAt_copied (hdst : dstByte < dst.length) :
    Copied src (8 * srcByte) dst (8 * dstByte) 8 (setByteAt dst dstByte (byteAt src srcByte)) where
  length := length_setByteAt _
  bits := by
    intro i hi
    rw [getBit, byteAt_setByteAt hdst (by omega)]
    by_cases hbyte : i / 8 = dstByte
    · rw [if_pos hbyte, if_pos (by omega), getBit,
        show (8 * srcByte + (i - 8 * dstByte)) / 8 = srcByte by omega,
        show (8 * srcByte + (i - 8 * dstByte)) % 8 = i % 8 by omega]
    · rw [if_neg hbyte, if_neg (by omega), getBit]

theorem copyBytes_copied (hdst : dstByte + n ≤ dst.length) :
    Copied src (8 * srcByte) dst (8 * dstByte) (8 * n) (copyBytes src srcByte dst dstByte n) := by
  induction n with
  | zero => exact .zero
  | succ n ih =>
    have hbytes := ih (by omega)
    refine hbytes.trans ?_
    rw [← Nat.mul_add, ← Nat.mul_add]
    exact setByteAt_copied (by rw [hbytes.length]; omega)

/-- `bitwise_copy` copies the bits and leaves the others. -/
theorem bitwiseCopy_copied (hdst : dstOfs + nBits ≤ 8 * dst.length) :
    Copied src srcOfs dst dstOfs nBits (bitwiseCopy src srcOfs dst dstOfs nBits) := by
  rw [bitwiseCopy]
  split
  · next haligned =>
    have hbytes : Copied src srcOfs dst dstOfs (8 * (nBits / 8))
        (copyBytes src (srcOfs / 8) dst (dstOfs / 8) (nBits / 8)) := by
      have h : Copied src (8 * (srcOfs / 8)) dst (8 * (dstOfs / 8)) (8 * (nBits / 8)) _ :=
        copyBytes_copied (by omega)
      rwa [show 8 * (srcOfs / 8) = srcOfs by omega, show 8 * (dstOfs / 8) = dstOfs by omega] at h
    split
    · next hwhole => rwa [show 8 * (nBits / 8) = nBits by omega] at hbytes
    · next hrest =>
      have hlast : Copied src (srcOfs + 8 * (nBits / 8)) _ (dstOfs + 8 * (nBits / 8)) (nBits % 8)
          (copyChunk src _ (copyBytes src (srcOfs / 8) dst (dstOfs / 8) (nBits / 8)) _ _) :=
        copyChunk_copied (by omega) (by rw [hbytes.length]; omega) (by omega)
      have hall := hbytes.trans hlast
      rwa [Nat.div_add_mod] at hall
  · exact copyLoop_copied hdst

end

/-! ## 2. Integers -/

def htonll (value : BitVec 64) : List (BitVec 8) :=
  (List.range 8).map fun k => value.extractLsb' (8 * (7 - k)) 8

def ntohll (p : List (BitVec 8)) : BitVec 64 :=
  byteAt p 7 ++ byteAt p 6 ++ byteAt p 5 ++ byteAt p 4 ++ byteAt p 3 ++ byteAt p 2 ++ byteAt p 1 ++
    byteAt p 0

def bitwisePut (value : BitVec 64) (dst : List (BitVec 8)) (dstOfs nBits : Nat) :
    List (BitVec 8) :=
  bitwiseCopy (htonll value) 0 dst dstOfs nBits

def bitwiseGet (src : List (BitVec 8)) (srcOfs nBits : Nat) : BitVec 64 :=
  ntohll (bitwiseCopy src srcOfs (htonll 0) 0 nBits)

def bitwiseScan (p : List (BitVec 8)) (target : Bool) (start stop : Nat) : Nat :=
  if start < stop then
    if getBit p start = target then start else bitwiseScan p target (start + 1) stop
  else start
termination_by stop - start

section
variable {src dst p : List (BitVec 8)} {srcOfs dstOfs nBits i : Nat}

theorem getBit_htonll (hi : i < 64) : getBit (htonll value) i = value.getLsbD i := by
  have hlength : (htonll value).length = 8 := rfl
  have hk : 8 - (i / 8 + 1) < (htonll value).length := by omega
  have hi8 : i % 8 < 8 := Nat.mod_lt _ (by decide)
  rw [getBit, byteAt, hlength, List.getD_eq_getElem?_getD, List.getElem?_eq_getElem hk,
    Option.getD_some]
  simp only [htonll, List.getElem_map, List.getElem_range, BitVec.getLsbD_extractLsb', hi8,
    decide_true, Bool.true_and]
  rw [show 8 * (7 - (8 - (i / 8 + 1))) + i % 8 = i by omega]

theorem getLsbD_ntohll (hi : i < 64) : (ntohll p).getLsbD i = getBit p i := by
  have hbyte : ∀ k, i < 8 * k + 8 → ¬ i < 8 * k →
      (byteAt p k).getLsbD (i - 8 * k) = getBit p i := by
    intro k hlt hge
    rw [getBit, show i / 8 = k by omega, show i % 8 = i - 8 * k by omega]
  simp only [ntohll, BitVec.getLsbD_append, Nat.sub_sub]
  split_ifs
  · exact hbyte 0 (by omega) (by omega)
  · exact hbyte 1 (by omega) (by omega)
  · exact hbyte 2 (by omega) (by omega)
  · exact hbyte 3 (by omega) (by omega)
  · exact hbyte 4 (by omega) (by omega)
  · exact hbyte 5 (by omega) (by omega)
  · exact hbyte 6 (by omega) (by omega)
  · exact hbyte 7 (by omega) (by omega)

theorem getBit_bitwisePut (hn : nBits ≤ 64)
    (hdst : dstOfs + nBits ≤ 8 * dst.length) (hi : i < 8 * dst.length) :
    getBit (bitwisePut value dst dstOfs nBits) i =
      if dstOfs ≤ i ∧ i < dstOfs + nBits then value.getLsbD (i - dstOfs) else getBit dst i := by
  rw [bitwisePut, (bitwiseCopy_copied hdst).bits i hi]
  split
  · rw [Nat.zero_add, getBit_htonll (by omega)]
  · rfl

theorem length_bitwisePut (hdst : dstOfs + nBits ≤ 8 * dst.length) :
    (bitwisePut value dst dstOfs nBits).length = dst.length :=
  (bitwiseCopy_copied hdst).length

theorem getLsbD_bitwiseGet (hn : nBits ≤ 64) (hi : i < 64) :
    (bitwiseGet src srcOfs nBits).getLsbD i = (decide (i < nBits) && getBit src (srcOfs + i)) := by
  have hcopied : Copied src srcOfs (htonll 0) 0 nBits _ := bitwiseCopy_copied (by simpa [htonll])
  rw [bitwiseGet, getLsbD_ntohll hi, hcopied.bits i (by simpa [htonll])]
  by_cases hlt : i < nBits
  · simp [hlt]
  · rw [if_neg (by omega), getBit_htonll hi]
    simp [hlt]

/-- `bitwise_scan` gives the first bit with the value, or the end. -/
theorem bitwiseScan_spec (p : List (BitVec 8)) (target : Bool) {start stop : Nat}
    (h : start ≤ stop) :
    start ≤ bitwiseScan p target start stop ∧ bitwiseScan p target start stop ≤ stop ∧
    (∀ i, start ≤ i → i < bitwiseScan p target start stop → getBit p i ≠ target) ∧
    (bitwiseScan p target start stop < stop →
      getBit p (bitwiseScan p target start stop) = target) := by
  fun_induction bitwiseScan p target start stop with
  | case1 start hlt hbit => exact ⟨Nat.le_refl _, h, by omega, fun _ => hbit⟩
  | case2 start hlt hbit ih =>
    obtain ⟨hle, hstop, hnone, hfound⟩ := ih (by omega)
    refine ⟨by omega, hstop, ?_, hfound⟩
    intro i hi hlt'
    rcases Nat.lt_or_eq_of_le hi with hmore | rfl
    · exact hnone i hmore hlt'
    · exact hbit
  | case3 start hge => exact ⟨Nat.le_refl _, h, by omega, by omega⟩

end

end Ovsgw.Bitwise
