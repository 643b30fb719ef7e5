/-
  **Hashes of a flow, and the masks for them** (`flow_hash_fields` and `flow_mask_hash_fields` in
  `lib/flow.c`).

  A flow that is cached with the masks stands for all flows with the same bits under them, so
  these must have the same hash.  They do, except where the hash of the network and transport
  headers falls back on the Ethernet header, which the masks leave out, and where `dl_type` and
  the packet type do not say the same.  There a bit that is not masked changes a word of what is
  hashed, and then the hash.  What `jhash_bytes` makes of the bytes is left open.
-/
import Ovsgw.Hash
import Ovsgw.Flow.Csum

namespace Ovsgw.Headers

open BitVec (allOnes)
open Lib (Byte)

/-! ## 1. The hashes -/

inductive NxHashFields where
  | ethSrc | symmetricL4 | symmetricL3L4 | symmetricL3L4Udp | nwSrc | nwDst | symmetricL3
deriving DecidableEq

def dlTypeIsIpAny (dlType : BitVec 16) : Bool := dlType = ethTypeIp || dlType = ethTypeIpv6

/-- `get_dl_type`: the packet type has it, unless it is the one for Ethernet. -/
def getDlType (flow : Flow) : BitVec 16 :=
  if flow.packetType = 0 then flow.dlType
  else if flow.packetType.extractLsb' 16 16 = 1 then flow.packetType.setWidth 16
  else 0x5ff

def isIpAny (flow : Flow) : Bool := dlTypeIsIpAny (getDlType flow)

/-- `flow->nw_frag & FLOW_NW_FRAG_MASK`. -/
def isFragment (flow : Flow) : Bool := flow.nwFrag &&& 3 ≠ 0

def isTcpOrSctp (flow : Flow) : Bool := flow.nwProto = ipprotoTcp || flow.nwProto = ipprotoSctp

def vlanTci (flow : Flow) (i : Nat) : BitVec 16 := (flow.vlans.getD i {}).tci

def vlanVids (flow : Flow) : BitVec 16 :=
  (List.range flowMaxVlanHeaders).foldl (fun vids i => vids ^^^ (vlanTci flow i &&& 0x0fff)) 0

/-- The bytes of an address for the type of the flow, if that is IP. -/
def nwBytes (flow : Flow) (ipv4 : BitVec 32) (ipv6 : BitVec 128) : Option (List Byte) :=
  if flow.dlType = ethTypeIp then some (be32Bytes ipv4)
  else if flow.dlType = ethTypeIpv6 then some (be128Bytes ipv6)
  else none

def xorBytes (flow : Flow) : Option (List Byte) :=
  nwBytes flow (flow.nwSrc ^^^ flow.nwDst) (flow.ipv6Src ^^^ flow.ipv6Dst)

/-- The union of the addresses that two of the functions begin with. -/
def addressUnion (flow : Flow) : List Byte :=
  let bytes := (xorBytes flow).getD []
  bytes ++ zeros (16 - bytes.length)

/-- `hash_add` for the words that the bytes are in memory. -/
def hashAddBytes (hash : BitVec 32) (bytes : List Byte) : BitVec 32 :=
  hashBytesLoop hash (bytes.map BitVec.toNat)

def flowHashSymmetricL2 (flow : Flow) (basis : BitVec 32) : BitVec 32 :=
  if flow.packetType ≠ 0 then 0
  else
    hashFinish (hashAddBytes basis (be16Bytes flow.dlType ++ be16Bytes (vlanVids flow)
      ++ be48Bytes (flow.dlSrc ^^^ flow.dlDst) ++ zeros 2)) basis

def flowHashSymmetricL3L4 (flow : Flow) (basis : BitVec 32) (incUdpPorts : Bool) : BitVec 32 :=
  match xorBytes flow with
  | none => flowHashSymmetricL2 flow basis
  | some bytes =>
    let hash := hashAddBytes (hashAddBytes basis bytes) [flow.nwProto]
    if !isFragment flow && (isTcpOrSctp flow || (incUdpPorts && flow.nwProto = ipprotoUdp)) then
      hashFinish (hashAddBytes hash (be16Bytes (flow.tpSrc ^^^ flow.tpDst))) basis
    else hashFinish hash basis

/-- The struct that `flow_hash_symmetric_l4` fills in. -/
def fieldsL4 (flow : Flow) : List Byte :=
  let ip := dlTypeIsIpAny flow.dlType
  addressUnion flow ++ be16Bytes flow.dlType ++ be16Bytes (vlanVids flow)
    ++ be16Bytes (if ip && isTcpOrSctp flow then flow.tpSrc ^^^ flow.tpDst else 0)
    ++ be48Bytes (flow.dlSrc ^^^ flow.dlDst) ++ [if ip then flow.nwProto else 0] ++ zeros 3

section
variable (jhashBytes : List Byte → BitVec 32 → BitVec 32)

def flowHashSymmetricL4 (flow : Flow) (basis : BitVec 32) : BitVec 32 :=
  jhashBytes (fieldsL4 flow) basis

def flowHashSymmetricL3 (flow : Flow) (basis : BitVec 32) : BitVec 32 :=
  jhashBytes (addressUnion flow ++ be16Bytes flow.dlType ++ zeros 2) basis

def flowHashFields (flow : Flow) (fields : NxHashFields) (basis : BitVec 16) : BitVec 32 :=
  let basis := basis.setWidth 32
  match fields with
  | .ethSrc => jhashBytes (be48Bytes flow.dlSrc) basis
  | .symmetricL4 => flowHashSymmetricL4 jhashBytes flow basis
  | .symmetricL3L4 => flowHashSymmetricL3L4 flow basis false
  | .symmetricL3L4Udp => flowHashSymmetricL3L4 flow basis true
  | .nwSrc => (nwBytes flow flow.nwSrc flow.ipv6Src).elim basis (jhashBytes · basis)
  | .nwDst => (nwBytes flow flow.nwDst flow.ipv6Dst).elim basis (jhashBytes · basis)
  | .symmetricL3 => flowHashSymmetricL3 jhashBytes flow basis

end

/-! ## 2. The masks -/

/-- A field of the masks, set to all ones under a condition. -/
def setIf {w : Nat} (p : Bool) (mask : BitVec w) : BitVec w := if p then allOnes w else mask

def maskNwSrc (flow wc : Flow) : Flow :=
  { wc with
    nwSrc := setIf (flow.dlType = ethTypeIp) wc.nwSrc
    ipv6Src := setIf (flow.dlType = ethTypeIpv6) wc.ipv6Src }

def maskNwDst (flow wc : Flow) : Flow :=
  { wc with
    nwDst := setIf (flow.dlType = ethTypeIp) wc.nwDst
    ipv6Dst := setIf (flow.dlType = ethTypeIpv6) wc.ipv6Dst }

def maskPorts (p : Bool) (wc : Flow) : Flow :=
  { wc with tpSrc := setIf p wc.tpSrc, tpDst := setIf p wc.tpDst }

def flowUnwildcardTpPorts (flow wc : Flow) : Flow :=
  if flow.nwProto ≠ ipprotoIcmp then maskPorts true wc else { wc with tpSrc := 0xff, tpDst := 0xff }

def maskSymmetricL4 (flow wc : Flow) : Flow :=
  let ip := isIpAny flow
  let wc := if ip && flow.nwProto ≠ ipprotoUdp then flowUnwildcardTpPorts flow wc else wc
  { maskNwSrc flow (maskNwDst flow wc) with
    dlSrc := allOnes 48
    dlDst := allOnes 48
    nwProto := setIf ip wc.nwProto
    vlans := (List.range flowMaxVlanHeaders).map fun i =>
      { wc.vlans.getD i {} with tci := vlanTci wc i ||| 0x1fff } }

def maskSymmetricL3L4 (flow wc : Flow) : Flow :=
  if dlTypeIsIpAny flow.dlType then
    maskPorts (isTcpOrSctp flow && !isFragment flow)
      { maskNwSrc flow (maskNwDst flow wc) with nwProto := allOnes 8 }
  else wc

def flowMaskHashFields (flow wc : Flow) (fields : NxHashFields) : Flow :=
  match fields with
  | .ethSrc => { wc with dlSrc := allOnes 48 }
  | .symmetricL4 => maskSymmetricL4 flow wc
  | .symmetricL3L4Udp =>
    let udp := isIpAny flow && flow.nwProto = ipprotoUdp && !isFragment flow
    maskSymmetricL3L4 flow (maskPorts udp wc)
  | .symmetricL3L4 => maskSymmetricL3L4 flow wc
  | .nwSrc => maskNwSrc flow wc
  | .nwDst => maskNwDst flow wc
  | .symmetricL3 => maskNwSrc flow (maskNwDst flow wc)

/-! ## 3. Flows with the same bits under the masks -/

def SameBits {w : Nat} (mask a b : BitVec w) : Prop := a &&& mask = b &&& mask

/-- The flows have the same bits under the masks, in the fields that the hashes may use. -/
structure SameUnder (masks f g : Flow) : Prop where
  packetType : SameBits masks.packetType f.packetType g.packetType
  dlDst : SameBits masks.dlDst f.dlDst g.dlDst
  dlSrc : SameBits masks.dlSrc f.dlSrc g.dlSrc
  dlType : SameBits masks.dlType f.dlType g.dlType
  vlans : ∀ i < flowMaxVlanHeaders, SameBits (vlanTci masks i) (vlanTci f i) (vlanTci g i)
  nwSrc : SameBits masks.nwSrc f.nwSrc g.nwSrc
  nwDst : SameBits masks.nwDst f.nwDst g.nwDst
  ipv6Src : SameBits masks.ipv6Src f.ipv6Src g.ipv6Src
  ipv6Dst : SameBits masks.ipv6Dst f.ipv6Dst g.ipv6Dst
  nwFrag : SameBits masks.nwFrag f.nwFrag g.nwFrag
  nwProto : SameBits masks.nwProto f.nwProto g.nwProto
  tpSrc : SameBits masks.tpSrc f.tpSrc g.tpSrc
  tpDst : SameBits masks.tpDst f.tpDst g.tpDst

section
variable {w : Nat} {mask a b : BitVec w} {p q : Bool} {f g wc : Flow} {basis : BitVec 32}
  {jhashBytes : List Byte → BitVec 32 → BitVec 32}

theorem SameBits.eq (h : SameBits (allOnes w) a b) : b = a := by
  rw [SameBits, BitVec.and_allOnes, BitVec.and_allOnes] at h
  exact h.symm

theorem SameBits.eq_of_set (h : SameBits (setIf p mask) a b) (hp : p = true) : b = a := by
  rw [setIf, if_pos hp] at h
  exact h.eq

theorem SameBits.eq_of_any (h : SameBits (setIf p (setIf q mask)) a b)
    (hmask : p = true ∨ q = true ∨ mask = allOnes w) : b = a := by
  rcases hmask with hp | hq | hmask
  · exact h.eq_of_set hp
  · rw [setIf, setIf, if_pos hq, ite_self] at h
    exact h.eq
  · rw [setIf, setIf, hmask, ite_self, ite_self] at h
    exact h.eq

theorem vid_masked (tci : BitVec 16) : (tci ||| 0x1fff) &&& 0x0fff = 0x0fff := by
  rw [BitVec.and_or_distrib_right]
  exact BitVec.eq_of_getLsbD_eq fun i hi => by simp [Bool.or_eq_right_iff_imp]

theorem SameBits.vid {mask a b : BitVec 16} (h : SameBits mask a b)
    (hmask : mask &&& 0x0fff = 0x0fff) : b &&& 0x0fff = a &&& 0x0fff := by
  rw [← hmask, ← BitVec.and_assoc, ← BitVec.and_assoc, ← h]

theorem vlanVids_eq : vlanVids f = (vlanTci f 0 &&& 0x0fff) ^^^ (vlanTci f 1 &&& 0x0fff) :=
  congrArg (· ^^^ (vlanTci f 1 &&& 0x0fff)) BitVec.zero_xor

theorem nwBytes_eq {a b : BitVec 32} {a' b' : BitVec 128} (hdl : g.dlType = f.dlType)
    (h : decide (f.dlType = ethTypeIp) = true → b = a)
    (h' : decide (f.dlType = ethTypeIpv6) = true → b' = a') : nwBytes g b b' = nwBytes f a a' := by
  unfold nwBytes
  rw [hdl]
  split
  next hip => rw [h (decide_eq_true hip)]
  · split
    next hip => rw [h' (decide_eq_true hip)]
    · rfl

theorem xorBytes_eq_none : xorBytes f = none ↔ dlTypeIsIpAny f.dlType = false := by
  simp only [xorBytes, nwBytes, dlTypeIsIpAny]
  grind

theorem xorBytes_eq {m1 m2 : BitVec 32} {m3 m4 : BitVec 128} (hdl : g.dlType = f.dlType)
    (hsrc : SameBits (setIf (f.dlType = ethTypeIp) m1) f.nwSrc g.nwSrc)
    (hdst : SameBits (setIf (f.dlType = ethTypeIp) m2) f.nwDst g.nwDst)
    (hsrc6 : SameBits (setIf (f.dlType = ethTypeIpv6) m3) f.ipv6Src g.ipv6Src)
    (hdst6 : SameBits (setIf (f.dlType = ethTypeIpv6) m4) f.ipv6Dst g.ipv6Dst) :
    xorBytes g = xorBytes f := by
  apply nwBytes_eq hdl
  · intro hip
    rw [hsrc.eq_of_set hip, hdst.eq_of_set hip]
  · intro hip
    rw [hsrc6.eq_of_set hip, hdst6.eq_of_set hip]

theorem flowHashSymmetricL2_eq (hdl : g.dlType = f.dlType) (hpt : g.packetType = f.packetType)
    (hvids : vlanVids g = vlanVids f) (hsrc : g.dlSrc = f.dlSrc) (hdst : g.dlDst = f.dlDst) :
    flowHashSymmetricL2 g basis = flowHashSymmetricL2 f basis := by
  unfold flowHashSymmetricL2
  rw [hdl, hpt, hvids, hsrc, hdst]

/-! ## 4. What the masks must have already -/

def PortsMasked (wc : Flow) : Prop := wc.tpSrc = allOnes 16 ∧ wc.tpDst = allOnes 16

/-- The masks have what the hash of the Ethernet header uses. -/
structure L2Masked (wc : Flow) : Prop where
  dlSrc : wc.dlSrc = allOnes 48
  dlDst : wc.dlDst = allOnes 48
  vids : ∀ i < flowMaxVlanHeaders, vlanTci wc i &&& 0x0fff = 0x0fff

/-- The masks have already what is hashed and not masked: the Ethernet header, where a hash of
    the network and transport headers falls back on it, and the protocol and its ports, where
    `dl_type` is that of IP but the packet type is not. -/
def Covered (f wc : Flow) : NxHashFields → Prop
  | .symmetricL4 => dlTypeIsIpAny f.dlType = true → isIpAny f = false →
      wc.nwProto = allOnes 8 ∧ (isTcpOrSctp f = true → PortsMasked wc)
  | .symmetricL3L4 => dlTypeIsIpAny f.dlType = false → f.packetType = 0 → L2Masked wc
  | .symmetricL3L4Udp => (dlTypeIsIpAny f.dlType = false → f.packetType = 0 → L2Masked wc) ∧
      (dlTypeIsIpAny f.dlType = true → isIpAny f = false → f.nwProto = ipprotoUdp →
        isFragment f = false → PortsMasked wc)
  | .ethSrc | .nwSrc | .nwDst | .symmetricL3 => True

theorem maskSymmetricL4_covers (hdlType : dlTypeIsIpAny f.dlType = true)
    (hcovered : Covered f wc .symmetricL4) : (maskSymmetricL4 f wc).nwProto = allOnes 8 ∧
      (isTcpOrSctp f = true → PortsMasked (maskSymmetricL4 f wc)) := by
  cases hip : isIpAny f with
  | false =>
    obtain ⟨hproto, hports⟩ := hcovered hdlType hip
    refine ⟨?_, fun h => ?_⟩
    · simp [maskSymmetricL4, hip, setIf, hproto]
    · simpa [PortsMasked, maskSymmetricL4, hip, maskNwSrc, maskNwDst] using hports h
  | true =>
    refine ⟨by simp [maskSymmetricL4, hip, setIf], fun h => ?_⟩
    have hnot : f.nwProto ≠ ipprotoUdp ∧ f.nwProto ≠ ipprotoIcmp := by
      rw [isTcpOrSctp, Bool.or_eq_true, decide_eq_true_eq, decide_eq_true_eq] at h
      rcases h with h | h <;> rw [h] <;> decide
    simp [PortsMasked, maskSymmetricL4, hip, maskNwSrc, maskNwDst, flowUnwildcardTpPorts, hnot,
      maskPorts, setIf]

theorem fieldsL4_eq (h : SameUnder (maskSymmetricL4 f wc) f g) (hdl : g.dlType = f.dlType)
    (hcovered : Covered f wc .symmetricL4) : fieldsL4 g = fieldsL4 f := by
  have hvids : vlanVids g = vlanVids f := by
    rw [vlanVids_eq, vlanVids_eq, (h.vlans 0 (by decide)).vid (vid_masked _),
      (h.vlans 1 (by decide)).vid (vid_masked _)]
  unfold fieldsL4 addressUnion
  rw [xorBytes_eq hdl h.nwSrc h.nwDst h.ipv6Src h.ipv6Dst, hdl, hvids, h.dlSrc.eq, h.dlDst.eq]
  cases hdlType : dlTypeIsIpAny f.dlType with
  | false => rfl
  | true =>
    obtain ⟨hmask, hmasks⟩ := maskSymmetricL4_covers hdlType hcovered
    have hproto : g.nwProto = f.nwProto := SameBits.eq (hmask ▸ h.nwProto)
    rw [isTcpOrSctp, hproto, ← isTcpOrSctp]
    cases hports : isTcpOrSctp f with
    | false => rfl
    | true =>
      have hsrc : g.tpSrc = f.tpSrc := SameBits.eq ((hmasks hports).1 ▸ h.tpSrc)
      have hdst : g.tpDst = f.tpDst := SameBits.eq ((hmasks hports).2 ▸ h.tpDst)
      rw [hsrc, hdst]

/-- `udp` is whether the ports of UDP count, and then they are under the masks already. -/
theorem flowHashSymmetricL3L4_eq {udp : Bool}
    (h : SameUnder (maskSymmetricL3L4 f (maskPorts q wc)) f g) (hdl : g.dlType = f.dlType)
    (hfrag : g.nwFrag = f.nwFrag) (hpt : g.packetType = f.packetType)
    (hl2 : dlTypeIsIpAny f.dlType = false → f.packetType = 0 → L2Masked wc)
    (hudp : dlTypeIsIpAny f.dlType = true → isFragment f = false → udp = true →
      f.nwProto = ipprotoUdp → q = true ∨ PortsMasked wc) :
    flowHashSymmetricL3L4 g basis udp = flowHashSymmetricL3L4 f basis udp := by
  unfold maskSymmetricL3L4 at h
  unfold flowHashSymmetricL3L4
  split at h
  next hip =>
    rw [xorBytes_eq hdl h.nwSrc h.nwDst h.ipv6Src h.ipv6Dst]
    split
    next hnone => exact absurd (xorBytes_eq_none.mp hnone) (by simp [hip])
    · unfold isFragment isTcpOrSctp
      rw [h.nwProto.eq, hfrag, ← isFragment, ← isTcpOrSctp]
      by_cases hports : (!isFragment f && (isTcpOrSctp f || (udp && f.nwProto = ipprotoUdp))) = true
      · have hset : (isTcpOrSctp f && !isFragment f) = true ∨ q = true ∨ PortsMasked wc := by
          simp only [Bool.and_eq_true, Bool.or_eq_true, Bool.not_eq_true',
            decide_eq_true_eq] at hports ⊢
          obtain ⟨hfragment, hports | ⟨hinc, hproto⟩⟩ := hports
          · exact .inl ⟨hports, hfragment⟩
          · exact .inr (hudp hip hfragment hinc hproto)
        rw [h.tpSrc.eq_of_any (hset.imp_right (.imp_right And.left)),
          h.tpDst.eq_of_any (hset.imp_right (.imp_right And.right))]
      · rw [if_neg hports, if_neg hports]
  next hip =>
    have hnot : dlTypeIsIpAny f.dlType = false := Bool.eq_false_of_not_eq_true hip
    rw [xorBytes_eq_none.mpr hnot, xorBytes_eq_none.mpr (by rw [hdl]; exact hnot)]
    by_cases hpt0 : f.packetType = 0
    · have hmasked := hl2 hnot hpt0
      refine flowHashSymmetricL2_eq hdl hpt ?_ (SameBits.eq (hmasked.dlSrc ▸ h.dlSrc))
        (SameBits.eq (hmasked.dlDst ▸ h.dlDst))
      rw [vlanVids_eq, vlanVids_eq, (h.vlans 0 (by decide)).vid (hmasked.vids 0 (by decide)),
        (h.vlans 1 (by decide)).vid (hmasked.vids 1 (by decide))]
    · -- Without an Ethernet header there is nothing to fall back on.
      simp only [flowHashSymmetricL2, hpt]
      rw [if_pos hpt0, if_pos hpt0]

theorem flowHashFields_eq_of_covered (hdl : g.dlType = f.dlType) (hfrag : g.nwFrag = f.nwFrag)
    (hpt : g.packetType = f.packetType) {fields : NxHashFields} {basis : BitVec 16}
    (h : SameUnder (flowMaskHashFields f wc fields) f g) (hcovered : Covered f wc fields) :
    flowHashFields jhashBytes g fields basis = flowHashFields jhashBytes f fields basis := by
  unfold flowHashFields
  cases fields with
  | ethSrc => rw [h.dlSrc.eq]
  | symmetricL4 => exact congrArg (jhashBytes · _) (fieldsL4_eq h hdl hcovered)
  | symmetricL3L4 =>
    exact flowHashSymmetricL3L4_eq (q := false) h hdl hfrag hpt hcovered (by rintro _ _ ⟨⟩)
  | symmetricL3L4Udp =>
    refine flowHashSymmetricL3L4_eq h hdl hfrag hpt hcovered.1 ?_
    intro hdlType hfragment _ hproto
    cases hip : isIpAny f with
    | true => simp [hproto, hfragment]
    | false => exact .inr (hcovered.2 hdlType hip hproto hfragment)
  | nwSrc => rw [nwBytes_eq hdl h.nwSrc.eq_of_set h.ipv6Src.eq_of_set]
  | nwDst => rw [nwBytes_eq hdl h.nwDst.eq_of_set h.ipv6Dst.eq_of_set]
  | symmetricL3 =>
    show flowHashSymmetricL3 jhashBytes g _ = flowHashSymmetricL3 jhashBytes f _
    unfold flowHashSymmetricL3 addressUnion
    rw [xorBytes_eq hdl h.nwSrc h.nwDst h.ipv6Src h.ipv6Dst, hdl]

end

/-! ## 5. Bits that are hashed and not masked -/

section
variable {w : Nat} {mask a b : BitVec w} {f masks : Flow} {i : Nat}

theorem SameBits.flip (hi : mask.getLsbD i = false) : SameBits mask a (a ^^^ BitVec.twoPow w i) := by
  apply BitVec.eq_of_getLsbD_eq
  intro j hj
  by_cases hij : i = j
  · subst hij
    simp [hi]
  · simp [hij]

theorem getLsbD_flip (hi : i < w) : (a ^^^ BitVec.twoPow w i).getLsbD i = !a.getLsbD i := by
  simp [hi]

theorem flip_ne (hi : i < w) : a ^^^ BitVec.twoPow w i ≠ a := by
  intro h
  have hbit := getLsbD_flip (a := a) hi
  simp [h] at hbit

theorem eq_allOnes_of_flip (h : ∀ i < w, mask.getLsbD i = false → False) : mask = allOnes w := by
  apply BitVec.eq_of_getLsbD_eq
  intro i hi
  cases hbit : mask.getLsbD i with
  | true => simp [hi]
  | false => exact (h i hi hbit).elim

/-- Two numbers in network byte order as a word of the hash. -/
def pairWord (a b : BitVec 16) : BitVec 32 := word ((be16Bytes a ++ be16Bytes b).map BitVec.toNat)

theorem toNat_word (a b c d : BitVec 8) : (word [a.toNat, b.toNat, c.toNat, d.toNat]).toNat =
    a.toNat + 256 * (b.toNat + 256 * (c.toNat + 256 * d.toNat)) := by
  have hlt : a.toNat + 256 * (b.toNat + 256 * (c.toNat + 256 * d.toNat)) < 2 ^ 32 := by omega
  exact (BitVec.toNat_ofNat _ 32).trans (Nat.mod_eq_of_lt hlt)

theorem eq_of_be16Bytes_eq {a b : BitVec 16} (h : be16Bytes a = be16Bytes b) : a = b := by
  simp only [be16Bytes, List.cons.injEq, and_true] at h
  apply BitVec.eq_of_getLsbD_eq
  intro i hi
  by_cases hlow : i < 8
  · have hbit := congrArg (·.getLsbD i) h.2
    simpa [hlow] using hbit
  · have hbit := congrArg (·.getLsbD (i - 8)) h.1
    simpa [show i - 8 < 8 by omega, show 8 + (i - 8) = i by omega] using hbit

theorem pairWord_injective {a b a' b' : BitVec 16} (h : pairWord a b = pairWord a' b') :
    a = a' ∧ b = b' := by
  have hnat := (toNat_word _ _ _ _).symm.trans ((congrArg BitVec.toNat h).trans (toNat_word _ _ _ _))
  constructor
  all_goals
    apply eq_of_be16Bytes_eq
    simp only [be16Bytes, List.cons.injEq, and_true]
    constructor <;> apply BitVec.eq_of_toNat_eq <;> omega

theorem SameUnder.refl (masks f : Flow) : SameUnder masks f f := by
  constructor <;> first | rfl | exact fun _ _ => rfl

theorem portsMasked_of_flips
    (h : ∀ tpSrc tpDst, SameBits masks.tpSrc f.tpSrc tpSrc → SameBits masks.tpDst f.tpDst tpDst →
      tpSrc ^^^ tpDst = f.tpSrc ^^^ f.tpDst) : PortsMasked masks := by
  constructor
  · refine eq_allOnes_of_flip fun i hi hbit => ?_
    have hxor := h _ f.tpDst (.flip hbit) rfl
    exact flip_ne hi ((BitVec.xor_left_inj _).mp hxor)
  · refine eq_allOnes_of_flip fun i hi hbit => ?_
    have hxor := h f.tpSrc _ rfl (.flip hbit)
    exact flip_ne hi ((BitVec.xor_right_inj _).mp hxor)

theorem getLsbD_vidMask (j : Nat) : (0x0fff : BitVec 16).getLsbD j = decide (j < 12) := by
  show ((allOnes 12).setWidth 16).getLsbD j = _
  rw [BitVec.getLsbD_setWidth, BitVec.getLsbD_allOnes]
  by_cases hj : j < 12
  · simp [hj, show j < 16 by omega]
  · simp [hj]

theorem vid_masked_of_flip {mask : BitVec 16} (h : ∀ j < 12, mask.getLsbD j = false → False) :
    mask &&& 0x0fff = 0x0fff := by
  apply BitVec.eq_of_getLsbD_eq
  intro j hj
  rw [BitVec.getLsbD_and, getLsbD_vidMask]
  by_cases hlow : j < 12
  · cases hbit : mask.getLsbD j with
    | true => rfl
    | false => exact (h j hlow hbit).elim
  · rw [decide_eq_false hlow, Bool.and_false]

theorem vid_flip_ne {tci : BitVec 16} (hi : i < 12) :
    (tci ^^^ BitVec.twoPow 16 i) &&& 0x0fff ≠ tci &&& 0x0fff := by
  intro h
  have hbit := congrArg (·.getLsbD i) h
  rw [BitVec.getLsbD_and, BitVec.getLsbD_and, getLsbD_vidMask, decide_eq_true hi, Bool.and_true,
    Bool.and_true, getLsbD_flip (by omega)] at hbit
  cases htci : tci.getLsbD i <;> simp [htci] at hbit

theorem vids_masked_of_flips
    (h : ∀ tci0 tci1, SameBits (vlanTci masks 0) (vlanTci f 0) tci0 →
      SameBits (vlanTci masks 1) (vlanTci f 1) tci1 →
      (tci0 &&& 0x0fff) ^^^ (tci1 &&& 0x0fff) = vlanVids f) (k : Nat) (hk : k < flowMaxVlanHeaders) :
    vlanTci masks k &&& 0x0fff = 0x0fff := by
  rw [vlanVids_eq] at h
  refine vid_masked_of_flip fun i hi hbit => ?_
  have hcases : k = 0 ∨ k = 1 := by
    have : k < 2 := hk
    omega
  rcases hcases with rfl | rfl
  · exact vid_flip_ne hi ((BitVec.xor_left_inj _).mp (h _ _ (.flip hbit) rfl))
  · exact vid_flip_ne hi ((BitVec.xor_right_inj _).mp (h _ _ rfl (.flip hbit)))

theorem extractLsb'_flip {s n : Nat} (h : i < s ∨ s + n ≤ i) :
    (a ^^^ BitVec.twoPow w i).extractLsb' s n = a.extractLsb' s n := by
  apply BitVec.eq_of_getLsbD_eq
  intro j hj
  simp [hj, show i ≠ s + j by omega]

theorem extractLsb'_flip_ne {s n : Nat} (hi : i < w) (hs : s ≤ i) (hn : i < s + n) :
    (a ^^^ BitVec.twoPow w i).extractLsb' s n ≠ a.extractLsb' s n := by
  intro h
  have hbit := congrArg (·.getLsbD (i - s)) h
  simp [show i - s < n by omega, show s + (i - s) = i by omega, hi] at hbit

/-- The words in which the address is hashed. -/
def highWord (address : BitVec 48) : BitVec 32 :=
  pairWord (address.extractLsb' 32 16) (address.extractLsb' 16 16)

def lowWord (address : BitVec 48) : BitVec 32 := pairWord (address.extractLsb' 0 16) 0

def l2Words (hash : BitVec 32) (dlType vids : BitVec 16) (address : BitVec 48) : BitVec 32 :=
  hashAdd (hashAdd (hashAdd hash (pairWord dlType vids)) (highWord address)) (lowWord address)

theorem flowHashSymmetricL2_words (hpt : f.packetType = 0) (basis : BitVec 32) :
    flowHashSymmetricL2 f basis =
      hashFinish (l2Words basis f.dlType (vlanVids f) (f.dlSrc ^^^ f.dlDst)) basis := by
  have hmiddle (x : BitVec 48) : (x.extractLsb' 0 32).extractLsb' 16 16 = x.extractLsb' 16 16 := by
    apply BitVec.eq_of_getLsbD_eq
    intro i hi
    simp [hi]
  have hlow (x : BitVec 48) : (x.extractLsb' 0 32).extractLsb' 0 16 = x.extractLsb' 0 16 := by
    apply BitVec.eq_of_getLsbD_eq
    intro i hi
    simp [hi]
  rw [flowHashSymmetricL2, if_neg (not_not_intro hpt), l2Words, highWord, lowWord, ← hmiddle,
    ← hlow]
  rfl

/-- A bit of the address changes only one word. -/
theorem l2Words_flip_ne {hash : BitVec 32} {dlType vids : BitVec 16} {x : BitVec 48} (hi : i < 48) :
    l2Words hash dlType vids (x ^^^ BitVec.twoPow 48 i) ≠ l2Words hash dlType vids x := by
  intro h
  unfold l2Words at h
  by_cases hlow : i < 16
  · have hhigh : highWord (x ^^^ BitVec.twoPow 48 i) = highWord x := by
      rw [highWord, extractLsb'_flip (by omega), extractLsb'_flip (by omega), highWord]
    rw [hhigh] at h
    have hword := pairWord_injective (hashAdd_right_injective h)
    exact extractLsb'_flip_ne hi (by omega) (by omega) hword.1
  · have hsame : lowWord (x ^^^ BitVec.twoPow 48 i) = lowWord x := by
      rw [lowWord, extractLsb'_flip (by omega), lowWord]
    rw [hsame] at h
    have hword := pairWord_injective (hashAdd_right_injective (hashAdd_left_injective h))
    by_cases hmiddle : i < 32
    · exact extractLsb'_flip_ne hi (by omega) (by omega) hword.2
    · exact extractLsb'_flip_ne hi (by omega) (by omega) hword.1

theorem l2Masked_of_hash_eq (basis : BitVec 32) (hpt : f.packetType = 0)
    (h : ∀ g, g.dlType = f.dlType → SameUnder masks f g →
      flowHashSymmetricL2 g basis = flowHashSymmetricL2 f basis) : L2Masked masks := by
  have hwords (g : Flow) (hg : SameUnder masks f g) (hpt' : g.packetType = 0)
      (hdl : g.dlType = f.dlType) : l2Words basis f.dlType (vlanVids g) (g.dlSrc ^^^ g.dlDst) =
        l2Words basis f.dlType (vlanVids f) (f.dlSrc ^^^ f.dlDst) := by
    have hsame := h g hdl hg
    rw [flowHashSymmetricL2_words hpt', flowHashSymmetricL2_words hpt, hdl] at hsame
    exact hashFinish_injective hsame
  constructor
  · refine eq_allOnes_of_flip fun i hi hbit => ?_
    apply l2Words_flip_ne hi (x := f.dlSrc ^^^ f.dlDst)
    rw [BitVec.xor_assoc, BitVec.xor_comm f.dlDst, ← BitVec.xor_assoc]
    exact hwords { f with dlSrc := f.dlSrc ^^^ BitVec.twoPow 48 i }
      { SameUnder.refl masks f with dlSrc := .flip hbit } hpt rfl
  · refine eq_allOnes_of_flip fun i hi hbit => ?_
    apply l2Words_flip_ne hi (x := f.dlSrc ^^^ f.dlDst)
    rw [BitVec.xor_assoc]
    exact hwords { f with dlDst := f.dlDst ^^^ BitVec.twoPow 48 i }
      { SameUnder.refl masks f with dlDst := .flip hbit } hpt rfl
  · refine vids_masked_of_flips (f := f) fun tci0 tci1 h0 h1 => ?_
    have hg : SameUnder masks f { f with vlans := [{ tci := tci0 }, { tci := tci1 }] } := by
      refine { SameUnder.refl masks f with vlans := fun i hi => ?_ }
      have hcases : i = 0 ∨ i = 1 := by
        have : i < 2 := hi
        omega
      rcases hcases with rfl | rfl
      · exact h0
      · exact h1
    have hsame := hashAdd_left_injective (hashAdd_left_injective
      (hwords { f with vlans := [{ tci := tci0 }, { tci := tci1 }] } hg hpt rfl))
    exact vlanVids_eq.symm.trans (pairWord_injective (hashAdd_right_injective hsame)).2

theorem fields_of_fieldsL4_eq {g : Flow} (h : fieldsL4 g = fieldsL4 f) :
    (if dlTypeIsIpAny g.dlType && isTcpOrSctp g then g.tpSrc ^^^ g.tpDst else 0) =
        (if dlTypeIsIpAny f.dlType && isTcpOrSctp f then f.tpSrc ^^^ f.tpDst else 0) ∧
      (if dlTypeIsIpAny g.dlType then g.nwProto else 0) =
        if dlTypeIsIpAny f.dlType then f.nwProto else 0 := by
  obtain ⟨h1, -⟩ := List.append_inj' h rfl
  obtain ⟨h2, hproto⟩ := List.append_inj' h1 rfl
  obtain ⟨h3, -⟩ := List.append_inj' h2 rfl
  obtain ⟨-, hports⟩ := List.append_inj' h3 rfl
  exact ⟨eq_of_be16Bytes_eq hports, List.singleton_inj.mp hproto⟩

theorem covered_of_fieldsL4_eq {wc : Flow}
    (h : ∀ g, SameUnder (maskSymmetricL4 f wc) f g → fieldsL4 g = fieldsL4 f) :
    Covered f wc .symmetricL4 := by
  intro hdlType hip
  have hproto : (maskSymmetricL4 f wc).nwProto = wc.nwProto := by
    simp [maskSymmetricL4, hip, setIf]
  have hsrc : (maskSymmetricL4 f wc).tpSrc = wc.tpSrc := by
    simp [maskSymmetricL4, hip, maskNwSrc, maskNwDst]
  have hdst : (maskSymmetricL4 f wc).tpDst = wc.tpDst := by
    simp [maskSymmetricL4, hip, maskNwSrc, maskNwDst]
  constructor
  · rw [← hproto]
    refine eq_allOnes_of_flip fun i hi hbit => ?_
    have hsame := (fields_of_fieldsL4_eq (h { f with nwProto := f.nwProto ^^^ BitVec.twoPow 8 i }
      { SameUnder.refl _ f with nwProto := .flip hbit })).2
    simp only [hdlType, if_true] at hsame
    exact flip_ne hi hsame
  · intro htcp
    rw [PortsMasked, ← hsrc, ← hdst]
    refine portsMasked_of_flips (f := f) fun tpSrc tpDst h1 h2 => ?_
    have hsame := (fields_of_fieldsL4_eq (h { f with tpSrc, tpDst }
      { SameUnder.refl _ f with tpSrc := h1, tpDst := h2 })).1
    have htcp' : isTcpOrSctp { f with tpSrc, tpDst } = true := htcp
    simpa only [hdlType, htcp, htcp', Bool.and_self, if_true] using hsame

theorem flowHashSymmetricL3L4_udp {basis : BitVec 32} {bytes : List Byte}
    (hbytes : xorBytes f = some bytes) (hproto : f.nwProto = ipprotoUdp)
    (hfragment : isFragment f = false) : flowHashSymmetricL3L4 f basis true =
      hashFinish (hashAdd (hashAddBytes (hashAddBytes basis bytes) [ipprotoUdp])
        (pairWord (f.tpSrc ^^^ f.tpDst) 0)) basis := by
  simp only [flowHashSymmetricL3L4, hbytes, hfragment, hproto, Bool.not_false, decide_true,
    Bool.and_self, Bool.or_true, if_true]
  rfl

theorem portsMasked_of_hash_eq {basis : BitVec 32} (hdlType : dlTypeIsIpAny f.dlType = true)
    (hproto : f.nwProto = ipprotoUdp) (hfragment : isFragment f = false)
    (h : ∀ g, SameUnder masks f g →
      flowHashSymmetricL3L4 g basis true = flowHashSymmetricL3L4 f basis true) :
    PortsMasked masks := by
  refine portsMasked_of_flips (f := f) fun tpSrc tpDst hsrc hdst => ?_
  have hsame := h { f with tpSrc, tpDst }
    { SameUnder.refl _ f with tpSrc := hsrc, tpDst := hdst }
  cases hbytes : xorBytes f with
  | none => exact absurd (xorBytes_eq_none.mp hbytes) (by simp [hdlType])
  | some bytes =>
    rw [flowHashSymmetricL3L4_udp hbytes hproto hfragment,
      flowHashSymmetricL3L4_udp (f := { f with tpSrc, tpDst }) hbytes hproto hfragment] at hsame
    exact (pairWord_injective (hashAdd_right_injective (hashFinish_injective hsame))).1

theorem l2Masked_of_fallback {basis : BitVec 32} {udp : Bool}
    (hnot : dlTypeIsIpAny f.dlType = false) (hpt : f.packetType = 0)
    (h : ∀ g, SameUnder masks f g →
      flowHashSymmetricL3L4 g basis udp = flowHashSymmetricL3L4 f basis udp) : L2Masked masks := by
  refine l2Masked_of_hash_eq basis hpt fun g hdl hg => ?_
  have hsame := h g hg
  rwa [flowHashSymmetricL3L4, flowHashSymmetricL3L4, xorBytes_eq_none.mpr hnot,
    xorBytes_eq_none.mpr (by rw [hdl]; exact hnot)] at hsame

end

/-- Flows with the same bits under the masks have the same hash, whatever `jhash_bytes` makes of
    the bytes, just if the masks have already what is hashed and not masked. -/
theorem flowHashFields_eq (f wc : Flow) (fields : NxHashFields)
    (hdlType : (flowMaskHashFields f wc fields).dlType = allOnes 16)
    (hnwFrag : (flowMaskHashFields f wc fields).nwFrag = allOnes 8)
    (hpacketType : (flowMaskHashFields f wc fields).packetType = allOnes 32) :
    (∀ jhashBytes g basis, SameUnder (flowMaskHashFields f wc fields) f g →
      flowHashFields jhashBytes g fields basis = flowHashFields jhashBytes f fields basis) ↔
      Covered f wc fields := by
  refine ⟨fun hall => ?_, fun hcovered jhashBytes g basis h => ?_⟩
  · cases fields with
    | ethSrc | nwSrc | nwDst | symmetricL3 => trivial
    | symmetricL4 =>
      refine covered_of_fieldsL4_eq fun g hg => ?_
      -- A function that tells the bytes of `f` from all others.
      have hsame := hall (fun bytes _ => if bytes = fieldsL4 f then 0 else 1) g 0 hg
      by_contra hne
      simp [flowHashFields, flowHashSymmetricL4, hne] at hsame
    | symmetricL3L4 =>
      intro hnot hpt
      have hmask : maskSymmetricL3L4 f wc = wc := if_neg (by simp [hnot])
      rw [flowMaskHashFields, hmask] at hall
      exact l2Masked_of_fallback hnot hpt fun g hg => hall (fun _ basis => basis) g 0 hg
    | symmetricL3L4Udp =>
      constructor
      · intro hnot hpt
        have hmask (p : Bool) : maskSymmetricL3L4 f (maskPorts p wc) = maskPorts p wc :=
          if_neg (by simp [hnot])
        rw [flowMaskHashFields, hmask] at hall
        obtain ⟨hsrc, hdst, hvids⟩ :=
          l2Masked_of_fallback hnot hpt fun g hg => hall (fun _ basis => basis) g 0 hg
        exact ⟨hsrc, hdst, hvids⟩
      · intro hip hnotAny hproto hfragment
        have hports := portsMasked_of_hash_eq hip hproto hfragment fun g hg =>
          hall (fun _ basis => basis) g 0 hg
        have htcp : isTcpOrSctp f = false := by
          rw [isTcpOrSctp, hproto]
          rfl
        simpa [PortsMasked, flowMaskHashFields, maskSymmetricL3L4, hip, hnotAny, htcp, maskPorts,
          setIf, maskNwSrc, maskNwDst] using hports
  · exact flowHashFields_eq_of_covered (SameBits.eq (hdlType ▸ h.dlType))
      (SameBits.eq (hnwFrag ▸ h.nwFrag)) (SameBits.eq (hpacketType ▸ h.packetType)) h hcovered

def ipMasks : Flow :=
  { dlType := allOnes 16, nwFrag := allOnes 8, packetType := allOnes 32 }

def tcpFrom (dlSrc : BitVec 48) : Flow :=
  { dlType := ethTypeIp, nwProto := ipprotoTcp, nwSrc := 1, nwDst := 2, tpSrc := 3, dlSrc }


/-- Masks with an Ethernet header. -/
def l2Masks : Flow :=
  { ipMasks with
    dlSrc := allOnes 48, dlDst := allOnes 48, vlans := List.replicate 2 { tci := 0x0fff } }

def arpFor (nwDst : BitVec 32) : Flow := { dlType := 0x806, dlSrc := 1, nwDst }

/-- The addresses do not count for segments of TCP, and a frame that is not of IP has the same
    hash if the Ethernet header was masked before. -/
theorem flowHashFields_eq_tcp_arp :
    flowHashFields (fun _ basis => basis) (tcpFrom 2) .symmetricL3L4 0 =
        flowHashFields (fun _ basis => basis) (tcpFrom 1) .symmetricL3L4 0 ∧
      flowHashFields (fun _ basis => basis) (arpFor 2) .symmetricL3L4 0 =
        flowHashFields (fun _ basis => basis) (arpFor 1) .symmetricL3L4 0 := by
  constructor
  · refine (flowHashFields_eq (tcpFrom 1) ipMasks _ rfl rfl rfl).mpr ?_ _ _ _ ?_
    · rintro ⟨⟩
    · constructor <;> first | rfl | exact fun _ _ => rfl
  · refine (flowHashFields_eq (arpFor 1) l2Masks _ rfl rfl rfl).mpr ?_ _ _ _ ?_
    · exact fun _ _ => ⟨rfl, rfl, by decide⟩
    · constructor <;> first | rfl | exact fun _ _ => rfl

/-- Two frames that are not of IP, from different hosts: nothing more is masked, and the hash tells
    them apart. -/
theorem flowHashFields_arp : let f : Flow := { dlType := 0x806, dlSrc := 1 }
    let g : Flow := { dlType := 0x806, dlSrc := 2 }
    flowMaskHashFields f ipMasks .symmetricL3L4 = ipMasks ∧ SameUnder ipMasks f g ∧
      flowHashFields (fun _ basis => basis) g .symmetricL3L4 0 ≠
        flowHashFields (fun _ basis => basis) f .symmetricL3L4 0 := by
  refine ⟨rfl, ?_, by decide⟩
  constructor <;> first | rfl | exact fun _ _ => rfl

end Ovsgw.Headers
