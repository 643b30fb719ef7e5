/-
  **Setting a field by register loads** (`set_field_to_nxast` and `decode_NXAST_RAW_REG_LOAD` in
  `lib/ofp-actions.c`).

  A set-field action with a mask becomes one `NXAST_REG_LOAD` for each run of 1-bits of the mask,
  cut after 64 bits.  The loads write disjoint ranges, so their order does not matter and they
  write what the action writes.  `mf_vl_mff_mf_from_nxm_header`, which finds a field by its
  header, is a parameter of the decoder.
-/
import Ovsgw.Bitwise

namespace Ovsgw.RegLoad

open Bitwise List

/-! ## 1. Fields and actions -/

/-- What is used of `struct mf_field`.  Its values fit in a `union mf_value`. -/
structure MfField where
  nBytes : Nat
  nBits : Nat
  variableLen : Bool
  writable : Bool
  nxmHeader : BitVec 32
  nBits_pos : 0 < nBits
  nBits_le : nBits ≤ 8 * nBytes
  nBytes_le : nBytes ≤ 128

/-- `struct ofpact_set_field`: a field that may be written, with a value and a mask of its size. -/
structure SetField where
  field : MfField
  isRegLoad2 : Bool
  value : List (BitVec 8)
  mask : List (BitVec 8)
  writable : field.writable = true
  length_value : value.length = field.nBytes
  length_mask : mask.length = field.nBytes

structure NxActionRegLoad where
  ofsNbits : BitVec 16
  dst : BitVec 32
  value : BitVec 64

/-- What `set_field_to_nxast` puts into a message. -/
inductive NxAction where
  | regLoad (narl : NxActionRegLoad)
  | regLoad2 (field : MfField) (value mask : List (BitVec 8))

/-- `struct mf_subfield`, without the field. -/
structure Subfield where
  ofs : Nat
  nBits : Nat

def nxmEncodeOfsNbits (ofs nBits : Nat) : BitVec 16 := BitVec.ofNat 16 (ofs <<< 6 ||| (nBits - 1))

def nxmDecodeOfs (ofsNbits : BitVec 16) : Nat := ofsNbits.toNat >>> 6

def nxmDecodeNBits (ofsNbits : BitVec 16) : Nat := (ofsNbits.toNat &&& 0x3f) + 1

theorem nxm_decode_encode {ofs nBits : Nat} (hofs : ofs < 1024) (hpos : 0 < nBits)
    (hle : nBits ≤ 64) : nxmDecodeOfs (nxmEncodeOfsNbits ofs nBits) = ofs ∧
      nxmDecodeNBits (nxmEncodeOfsNbits ofs nBits) = nBits := by
  have hword : (nxmEncodeOfsNbits ofs nBits).toNat = ofs * 64 + (nBits - 1) := by
    rw [nxmEncodeOfsNbits, ← Nat.shiftLeft_add_eq_or_of_lt (by omega), Nat.shiftLeft_eq,
      BitVec.toNat_ofNat]
    omega
  rw [nxmDecodeOfs, nxmDecodeNBits, hword, Nat.shiftRight_eq_div_pow,
    show 0x3f = 2 ^ 6 - 1 from rfl, Nat.and_two_pow_sub_one_eq_mod]
  omega

/-! ## 2. Encoding -/

def nextLoadSegment (sf : SetField) (dst : Subfield) : Option (Subfield × BitVec 64) :=
  let start := dst.ofs + dst.nBits
  if start < sf.field.nBits then
    let ofs := bitwiseScan sf.mask true start sf.field.nBits
    if ofs < sf.field.nBits then
      let nBits := bitwiseScan sf.mask false (ofs + 1) (min (ofs + 64) sf.field.nBits) - ofs
      some (⟨ofs, nBits⟩, bitwiseGet sf.value ofs nBits)
    else none
  else none

/-- A run of 1-bits of the mask at or after `start`, with the bits of the value. -/
structure IsSegment (sf : SetField) (start : Nat) (dst : Subfield) (value : BitVec 64) : Prop where
  start_le : start ≤ dst.ofs
  pos : 0 < dst.nBits
  le : dst.nBits ≤ 64
  fits : dst.ofs + dst.nBits ≤ sf.field.nBits
  skipped : ∀ i, start ≤ i → i < dst.ofs → getBit sf.mask i = false
  ones : ∀ i, dst.ofs ≤ i → i < dst.ofs + dst.nBits → getBit sf.mask i = true
  value : value = bitwiseGet sf.value dst.ofs dst.nBits

variable {value : BitVec 64} {sf : SetField}

theorem nextLoadSegment_some {dst dst' : Subfield}
    (h : nextLoadSegment sf dst = some (dst', value)) :
    IsSegment sf (dst.ofs + dst.nBits) dst' value := by
  rw [nextLoadSegment] at h
  dsimp only at h
  split at h
  · next hstart =>
    obtain ⟨hle, -, hskipped, hfound⟩ := bitwiseScan_spec sf.mask true (Nat.le_of_lt hstart)
    split at h
    · next hlt =>
      cases h
      have hstop : bitwiseScan sf.mask true (dst.ofs + dst.nBits) sf.field.nBits + 1 ≤
          min (bitwiseScan sf.mask true (dst.ofs + dst.nBits) sf.field.nBits + 64)
            sf.field.nBits := by omega
      obtain ⟨hle', hstop', hones, -⟩ := bitwiseScan_spec sf.mask false hstop
      refine ⟨hle, ?_, ?_, ?_, ?_, ?_, rfl⟩
      · dsimp only
        omega
      · dsimp only
        omega
      · dsimp only
        omega
      · intro i hi hlt'
        simpa using hskipped i hi hlt'
      · dsimp only
        intro i hi hlt'
        rcases Nat.lt_or_eq_of_le hi with hmore | rfl
        · simpa using hones i hmore (by omega)
        · exact hfound hlt
    · cases h
  · cases h

theorem nextLoadSegment_none {dst : Subfield} (h : nextLoadSegment sf dst = none) :
    ∀ i, dst.ofs + dst.nBits ≤ i → i < sf.field.nBits → getBit sf.mask i = false := by
  intro i hi hlt
  have hstart : dst.ofs + dst.nBits < sf.field.nBits := by omega
  obtain ⟨-, hstop, hskipped, -⟩ := bitwiseScan_spec sf.mask true (Nat.le_of_lt hstart)
  rw [nextLoadSegment] at h
  dsimp only at h
  rw [if_pos hstart] at h
  split at h
  · cases h
  · simpa using hskipped i hi (by omega)

def putRegLoad (field : MfField) (dst : Subfield) (value : BitVec 64) : NxActionRegLoad :=
  ⟨nxmEncodeOfsNbits dst.ofs dst.nBits, field.nxmHeader, value⟩

/-- The loop of `set_field_to_nxast`. -/
def loadSegments (sf : SetField) (dst : Subfield) : List (Subfield × BitVec 64) :=
  match h : nextLoadSegment sf dst with
  | none => []
  | some (dst', value) => (dst', value) :: loadSegments sf dst'
termination_by sf.field.nBits - (dst.ofs + dst.nBits)
decreasing_by
  have hsegment := nextLoadSegment_some h
  have hpos := hsegment.pos
  have hfits := hsegment.fits
  have hle := hsegment.start_le
  omega

def setFieldToNxast (sf : SetField) : List NxAction :=
  if sf.isRegLoad2 || sf.field.nxmHeader == 0 || sf.field.variableLen then
    [.regLoad2 sf.field sf.value sf.mask]
  else
    (loadSegments sf ⟨0, 0⟩).map fun (dst, value) => .regLoad (putRegLoad sf.field dst value)

/-! ## 3. Decoding and applying -/

inductive RegLoadError where
  | badSetType
  | badSetLen
  | badSetArgument
  | badArgument
  | invalidTlvField
deriving DecidableEq

/-- `mf_check_dst` without a match. -/
def mfCheckDst (field : MfField) (sf : Subfield) : Option RegLoadError :=
  if sf.nBits = 0 then some .badSetLen
  else if sf.ofs ≥ field.nBits then some .badSetLen
  else if sf.ofs + sf.nBits > field.nBits then some .badSetLen
  else if field.writable then none
  else some .badSetArgument

variable {field : MfField}

theorem mfCheckDst_eq_none {sf : Subfield} : mfCheckDst field sf = none ↔
      0 < sf.nBits ∧ sf.ofs + sf.nBits ≤ field.nBits ∧ field.writable = true := by
  have hbounds : 0 < sf.nBits → sf.ofs + sf.nBits ≤ field.nBits → sf.ofs < field.nBits := by omega
  grind [mfCheckDst]

def zeros (field : MfField) : List (BitVec 8) := List.replicate field.nBytes 0

theorem length_put_zeros {dst : Subfield} (h : dst.ofs + dst.nBits ≤ field.nBits) :
    (bitwisePut value (zeros field) dst.ofs dst.nBits).length = field.nBytes := by
  have hle := field.nBits_le
  have hlength : (zeros field).length = field.nBytes := length_replicate
  rw [length_bitwisePut (by omega), hlength]

def decodeRegLoad (fieldOf : BitVec 32 → Except RegLoadError MfField) (narl : NxActionRegLoad) :
    Except RegLoadError SetField :=
  let dst : Subfield := ⟨nxmDecodeOfs narl.ofsNbits, nxmDecodeNBits narl.ofsNbits⟩
  match fieldOf narl.dst with
  | .error error => .error error
  | .ok field =>
    match h : mfCheckDst field dst with
    | some error => .error error
    | none =>
      -- Bits above the subfield must be 0.
      if dst.nBits < 64 ∧ narl.value >>> dst.nBits ≠ 0 then .error .badArgument
      else
        have hfits := (mfCheckDst_eq_none.mp h).2.1
        .ok
          { field
            isRegLoad2 := false
            value := bitwisePut narl.value (zeros field) dst.ofs dst.nBits
            mask := bitwisePut (BitVec.allOnes 64) (zeros field) dst.ofs dst.nBits
            writable := (mfCheckDst_eq_none.mp h).2.2
            length_value := length_put_zeros hfits
            length_mask := length_put_zeros hfits }

def applyMask (src mask dst : List (BitVec 8)) : List (BitVec 8) :=
  List.zipWith (fun sm d => (sm.1 &&& sm.2) ||| (d &&& ~~~sm.2)) (src.zip mask) dst

/-- The bytes of a field after a set-field action (`mf_set_flow_value_masked`). -/
def SetField.apply (dst : List (BitVec 8)) (sf : SetField) : List (BitVec 8) :=
  applyMask sf.value sf.mask dst

variable {src mask dst : List (BitVec 8)}

theorem length_applyMask (hsrc : src.length = dst.length)
    (hmask : mask.length = dst.length) : (applyMask src mask dst).length = dst.length := by
  simp [applyMask, hsrc, hmask]

theorem getBit_applyMask {i : Nat}
    (hsrc : src.length = dst.length) (hmask : mask.length = dst.length) (hi : i < 8 * dst.length) :
    getBit (applyMask src mask dst) i = if getBit mask i then getBit src i else getBit dst i := by
  have hindex : dst.length - (i / 8 + 1) < dst.length := by omega
  have hi8 : i % 8 < 8 := Nat.mod_lt _ (by decide)
  simp only [getBit, byteAt, length_applyMask hsrc hmask, hsrc, hmask, getD_eq_getElem?_getD]
  rw [getElem?_eq_getElem (by rw [length_applyMask hsrc hmask]; exact hindex),
    getElem?_eq_getElem (by omega), getElem?_eq_getElem (by omega),
    getElem?_eq_getElem hindex]
  simp only [applyMask, getElem_zipWith, getElem_zip, Option.getD_some,
    BitVec.getLsbD_or, BitVec.getLsbD_and, BitVec.getLsbD_not, hi8, decide_true, Bool.true_and]
  cases (mask[dst.length - (i / 8 + 1)]).getLsbD (i % 8) <;> simp

/-! ## 4. The loads write what the action writes -/

section
variable {sf : SetField} {fieldOf : BitVec 32 → Except RegLoadError MfField} {start : Nat}
  {dst : Subfield} {value : BitVec 64}

theorem getBit_zeros {i : Nat} : getBit (zeros field) i = false := by
  have hbyte : ∀ k, byteAt (zeros field) k = 0 := by
    intro k
    rw [byteAt, zeros, getD_eq_getElem?_getD, getElem?_replicate]
    split <;> rfl
  rw [getBit, hbyte]
  exact BitVec.getLsbD_zero

theorem IsSegment.decode (h : IsSegment sf start dst value)
    (hfield : fieldOf sf.field.nxmHeader = .ok sf.field) :
    ∃ load, decodeRegLoad fieldOf (putRegLoad sf.field dst value) = .ok load ∧
      load.field = sf.field ∧ ∀ i < 8 * sf.field.nBytes,
        getBit load.mask i = decide (dst.ofs ≤ i ∧ i < dst.ofs + dst.nBits) ∧
        (dst.ofs ≤ i → i < dst.ofs + dst.nBits → getBit load.value i = getBit sf.value i) := by
  have hpos := h.pos
  have hle := h.le
  have hfits := h.fits
  have hbits := sf.field.nBits_le
  have hbytes := sf.field.nBytes_le
  obtain ⟨hofs, hn⟩ := nxm_decode_encode (show dst.ofs < 1024 by omega) hpos hle
  have hhigh : value >>> dst.nBits = 0#64 := by
    apply BitVec.eq_of_getLsbD_eq
    intro j hj
    rw [h.value, BitVec.getLsbD_ushiftRight, BitVec.getLsbD_zero]
    by_cases hlt : dst.nBits + j < 64
    · rw [getLsbD_bitwiseGet hle hlt]
      simp
    · exact BitVec.getLsbD_of_ge _ _ (by omega)
  rw [decodeRegLoad, putRegLoad]
  dsimp only
  simp only [hofs, hn, hhigh]
  split
  · next error herror =>
    rw [hfield] at herror
    cases herror
  · next field hfound =>
    rw [hfield] at hfound
    cases hfound
    split
    · next error herror =>
      rw [hofs, hn, mfCheckDst_eq_none.mpr ⟨hpos, hfits, sf.writable⟩] at herror
      cases herror
    · rw [if_neg (by simp)]
      refine ⟨_, rfl, rfl, ?_⟩
      intro i hi
      have hzeros : (zeros sf.field).length = sf.field.nBytes := length_replicate
      have hroom : dst.ofs + dst.nBits ≤ 8 * (zeros sf.field).length := by omega
      have hi' : i < 8 * (zeros sf.field).length := by omega
      dsimp only
      rw [getBit_bitwisePut hle hroom hi', getBit_bitwisePut hle hroom hi', getBit_zeros]
      constructor
      · split
        · next hin =>
          rw [BitVec.getLsbD_allOnes]
          simp [hin]
          omega
        · next hout => simp [hout]
      · intro hge hlt
        rw [if_pos ⟨hge, hlt⟩, h.value, getLsbD_bitwiseGet hle (by omega), Nat.add_sub_cancel' hge]
        simp
        omega

def Subfield.Has (dst : Subfield) (i : Nat) : Prop := dst.ofs ≤ i ∧ i < dst.ofs + dst.nBits

/-- The segments are runs of 1-bits, one after the other, and leave none out. -/
structure Segments (sf : SetField) (start : Nat) (segments : List (Subfield × BitVec 64)) :
    Prop where
  each : ∀ s ∈ segments, start ≤ s.1.ofs ∧ 0 < s.1.nBits ∧ s.1.nBits ≤ 64
  ordered : segments.Pairwise fun s t => s.1.ofs + s.1.nBits ≤ t.1.ofs
  union : ∀ i, start ≤ i →
    ((∃ s ∈ segments, s.1.Has i) ↔ i < sf.field.nBits ∧ getBit sf.mask i = true)

theorem loadSegments_segments (sf : SetField) (dst : Subfield) :
    Segments sf (dst.ofs + dst.nBits) (loadSegments sf dst) := by
  fun_induction loadSegments sf dst with
  | case1 dst hnone =>
    refine ⟨by simp, .nil, ?_⟩
    intro i hi
    simp only [not_mem_nil, false_and, exists_false, false_iff, not_and, Bool.not_eq_true]
    exact fun hlt => nextLoadSegment_none hnone i hi hlt
  | case2 dst dst' value hsome ih =>
    have h := nextLoadSegment_some hsome
    have hstart := h.start_le
    have hfits := h.fits
    refine ⟨?_, ?_, ?_⟩
    · rintro s hs
      rcases mem_cons.mp hs with rfl | hs
      · exact ⟨hstart, h.pos, h.le⟩
      · obtain ⟨hle, hpos, hle64⟩ := ih.each s hs
        exact ⟨by omega, hpos, hle64⟩
    · refine pairwise_cons.mpr ⟨?_, ih.ordered⟩
      exact fun s hs => (ih.each s hs).1
    · intro i hi
      simp only [mem_cons, exists_eq_or_imp]
      rcases Nat.lt_or_ge i (dst'.ofs + dst'.nBits) with hlt | hge
      · have hlater : ¬ ∃ s ∈ loadSegments sf dst', s.1.Has i := by
          rintro ⟨s, hs, hhas⟩
          have hle := (ih.each s hs).1
          exact absurd hhas.1 (by omega)
        rw [or_iff_left hlater]
        rcases Nat.lt_or_ge i dst'.ofs with hskip | hin
        · have hzero := h.skipped i hi hskip
          simp [hzero, Subfield.Has]
          omega
        · have hone := h.ones i hin hlt
          simp [hone, Subfield.Has, hin, hlt]
          omega
      · rw [or_iff_right (fun hhas => absurd hhas.2 (Nat.not_lt.mpr hge)), ih.union i hge]

theorem loadSegments_apply (hfield : fieldOf sf.field.nxmHeader = .ok sf.field) (dst : Subfield)
    (old : List (BitVec 8)) (hold : old.length = sf.field.nBytes) :
    ∃ loads, ((loadSegments sf dst).map fun s => putRegLoad sf.field s.1 s.2).mapM
        (decodeRegLoad fieldOf) = .ok loads ∧
      ∀ i < 8 * sf.field.nBytes, getBit (loads.foldl SetField.apply old) i =
        if dst.ofs + dst.nBits ≤ i ∧ i < sf.field.nBits ∧ getBit sf.mask i = true then
          getBit sf.value i
        else getBit old i := by
  fun_induction loadSegments sf dst generalizing old with
  | case1 dst hnone =>
    refine ⟨[], rfl, ?_⟩
    intro i hi
    rw [if_neg]
    · rfl
    · rintro ⟨hge, hlt, hone⟩
      rw [nextLoadSegment_none hnone i hge hlt] at hone
      cases hone
  | case2 dst dst' value hsome ih =>
    have h := nextLoadSegment_some hsome
    have hstart := h.start_le
    have hfits := h.fits
    obtain ⟨load, hload, hsame, hbits⟩ := h.decode hfield
    have hvalue : load.value.length = old.length := by rw [load.length_value, hsame, hold]
    have hmask : load.mask.length = old.length := by rw [load.length_mask, hsame, hold]
    obtain ⟨loads, hloads, hrest⟩ := ih (load.apply old)
      ((length_applyMask hvalue hmask).trans hold)
    refine ⟨load :: loads, ?_, ?_⟩
    · rw [map_cons, mapM_cons, hload, hloads]
      rfl
    · intro i hi
      rw [foldl_cons, hrest i hi, SetField.apply, getBit_applyMask hvalue hmask (by omega)]
      obtain ⟨hloadMask, hloadValue⟩ := hbits i hi
      rw [hloadMask]
      by_cases hin : dst'.ofs ≤ i ∧ i < dst'.ofs + dst'.nBits
      · rw [if_neg (by omega), if_pos (decide_eq_true hin), hloadValue hin.1 hin.2,
          if_pos ⟨by omega, by omega, h.ones i hin.1 hin.2⟩]
      · rw [decide_eq_false hin, if_neg Bool.false_ne_true]
        rcases Nat.lt_or_ge i dst'.ofs with hless | hmore
        · rw [if_neg (by omega), if_neg]
          rintro ⟨hge, -, hone⟩
          rw [h.skipped i hge hless] at hone
          cases hone
        · have hlater : dst'.ofs + dst'.nBits ≤ i ↔ dst.ofs + dst.nBits ≤ i := by omega
          simp only [hlater]

/-- The loads that a set-field action becomes cover the 1-bits of its mask without overlap, are
    decoded, and write what the action writes. -/
theorem setFieldToNxast_eq_loads (sf : SetField) (fieldOf : BitVec 32 → Except RegLoadError MfField)
    (hload : (sf.isRegLoad2 || sf.field.nxmHeader == 0 || sf.field.variableLen) = false)
    (hfield : fieldOf sf.field.nxmHeader = .ok sf.field)
    (old : List (BitVec 8)) (hold : old.length = sf.field.nBytes) :
    ∃ (segments : List (Subfield × BitVec 64)) (loads : List SetField),
      setFieldToNxast sf =
        segments.map (fun s => .regLoad (putRegLoad sf.field s.1 s.2)) ∧
      (∀ s ∈ segments, 1 ≤ s.1.nBits ∧ s.1.nBits ≤ 64) ∧
      segments.Pairwise (fun s t => ∀ i, ¬ (s.1.Has i ∧ t.1.Has i)) ∧
      (∀ i, (∃ s ∈ segments, s.1.Has i) ↔ i < sf.field.nBits ∧ getBit sf.mask i = true) ∧
      (segments.map fun s => putRegLoad sf.field s.1 s.2).mapM (decodeRegLoad fieldOf) =
        .ok loads ∧
      (∀ i < sf.field.nBits, getBit (loads.foldl SetField.apply old) i = getBit (sf.apply old) i) ∧
      ∀ i, sf.field.nBits ≤ i → i < 8 * sf.field.nBytes →
        getBit (loads.foldl SetField.apply old) i = getBit old i := by
  have hsegments := loadSegments_segments sf ⟨0, 0⟩
  obtain ⟨loads, hloads, hbits⟩ := loadSegments_apply hfield ⟨0, 0⟩ old hold
  have hfits := sf.field.nBits_le
  refine ⟨loadSegments sf ⟨0, 0⟩, loads, ?_, ?_, ?_, ?_, hloads, ?_, ?_⟩
  · rw [setFieldToNxast, hload]
    rfl
  · intro s hs
    exact (hsegments.each s hs).2
  · refine hsegments.ordered.imp ?_
    rintro s t hle i ⟨hs, ht⟩
    exact absurd (hs.2.trans_le hle) (Nat.not_lt.mpr ht.1)
  · exact fun i => hsegments.union i (Nat.zero_le i)
  · intro i hi
    rw [hbits i (by omega), SetField.apply, getBit_applyMask (sf.length_value.trans hold.symm)
      (sf.length_mask.trans hold.symm) (by omega)]
    simp [hi]
  · intro i hge hi
    rw [hbits i hi, if_neg (by omega)]

/-- A mask with three runs of bits. -/
def threeRuns : SetField :=
  { field :=
      { nBytes := 2, nBits := 16, variableLen := false, writable := true, nxmHeader := 0x80000004
        nBits_pos := by decide, nBits_le := by decide, nBytes_le := by decide }
    isRegLoad2 := false
    value := [0x0a, 0xb2]
    mask := [0x4f, 0xf6]
    writable := rfl
    length_value := rfl
    length_mask := rfl }

theorem setFieldToNxast_eq_loads_sample :
    ∃ (segments : List (Subfield × BitVec 64)) (loads : List SetField),
      setFieldToNxast threeRuns =
        segments.map (fun s => .regLoad (putRegLoad threeRuns.field s.1 s.2)) ∧
      ∀ i < 16, getBit (loads.foldl SetField.apply [0x12, 0x34]) i =
        getBit (threeRuns.apply [0x12, 0x34]) i := by
  obtain ⟨segments, loads, hsegments, -, -, -, -, hbits, -⟩ :=
    setFieldToNxast_eq_loads threeRuns (fun _ => .ok threeRuns.field) rfl rfl [0x12, 0x34] rfl
  exact ⟨segments, loads, hsegments, hbits⟩

end

end Ovsgw.RegLoad
