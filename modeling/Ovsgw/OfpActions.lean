/-
  **Bitmaps of supported actions** (`lib/ofp-actions.c`).

  A switch describes the actions it supports by a bitmap whose bits are the
  action numbers of an OpenFlow version; inside, the bits are `OFPACT_*`
  values.  `get_ofpact_map` is the table between the two numberings.

  The table gives the gateway actions the numbers 51 and 52, and the code computes `1u << 51` and
  `1u << 52` in 32 bits.  C leaves the result of such a shift undefined, so the model is relative to
  a `ShiftUnit`, which says what the compiled code makes of it.
-/
import Ovsgw.Lib.Bitmap
import Ovsgw.Lib.Bytes

namespace Ovsgw

open Bitmap
open Lib (ByteOrder htonl htonl_and htonl_ne_zero)

/-! ## 1. Action types and versions -/

inductive OfpactType where
  | output
  | group
  | controller
  | enqueue
  | outputReg
  | bundle
  | configGw
  | handleGw
  | setField
  | setVlanVid
  | setVlanPcp
  | stripVlan
  | pushVlan
  | setEthSrc
  | setEthDst
  | setIpv4Src
  | setIpv4Dst
  | setIpDscp
  | setIpEcn
  | setIpTtl
  | setL4SrcPort
  | setL4DstPort
  | regMove
  | stackPush
  | stackPop
  | decTtl
  | setMplsLabel
  | setMplsTc
  | setMplsTtl
  | decMplsTtl
  | pushMpls
  | popMpls
  | decNshTtl
  | deleteField
  | encap
  | decap
  | setTunnel
  | setQueue
  | popQueue
  | finTimeout
  | resubmit
  | learn
  | conjunction
  | multipath
  | note
  | exit
  | sample
  | unrollXlate
  | ct
  | ctClear
  | nat
  | outputTrunc
  | clone
  | checkPktLarger
  | debugRecirc
  | debugSlow
  | meter
  | clearActions
  | writeActions
  | writeMetadata
  | gotoTable
deriving DecidableEq, Repr

def OfpactType.value (t : OfpactType) : Nat := t.ctorIdx

inductive OfpVersion where
  | ofp10
  | ofp11
  | ofp12
  | ofp13
  | ofp14
  | ofp15
deriving DecidableEq, Repr

/-! ## 2. The tables -/

structure OfpactMap where
  ofpact : OfpactType
  ofpat : Nat
deriving DecidableEq, Repr

/-- OpenFlow 1.0 actions.  The row with a negative `ofpat` that ends a table in
    C is the end of the list. -/
def of10 : List OfpactMap :=
  [⟨.output, 0⟩, ⟨.setVlanVid, 1⟩, ⟨.setVlanPcp, 2⟩, ⟨.stripVlan, 3⟩, ⟨.setEthSrc, 4⟩,
   ⟨.setEthDst, 5⟩, ⟨.setIpv4Src, 6⟩, ⟨.setIpv4Dst, 7⟩, ⟨.setIpDscp, 8⟩, ⟨.setL4SrcPort, 9⟩,
   ⟨.setL4DstPort, 10⟩, ⟨.enqueue, 11⟩, ⟨.configGw, 51⟩, ⟨.handleGw, 52⟩]

def of11 : List OfpactMap :=
  [⟨.output, 0⟩, ⟨.setVlanVid, 1⟩, ⟨.setVlanPcp, 2⟩, ⟨.setEthSrc, 3⟩, ⟨.setEthDst, 4⟩,
   ⟨.setIpv4Src, 5⟩, ⟨.setIpv4Dst, 6⟩, ⟨.setIpDscp, 7⟩, ⟨.setIpEcn, 8⟩, ⟨.setL4SrcPort, 9⟩,
   ⟨.setL4DstPort, 10⟩, ⟨.setMplsLabel, 13⟩, ⟨.setMplsTc, 14⟩, ⟨.setMplsTtl, 15⟩,
   ⟨.decMplsTtl, 16⟩, ⟨.pushVlan, 17⟩, ⟨.stripVlan, 18⟩, ⟨.pushMpls, 19⟩, ⟨.popMpls, 20⟩,
   ⟨.setQueue, 21⟩, ⟨.group, 22⟩, ⟨.setIpTtl, 23⟩, ⟨.decTtl, 24⟩, ⟨.configGw, 51⟩,
   ⟨.handleGw, 52⟩]

def of12 : List OfpactMap :=
  [⟨.output, 0⟩, ⟨.setMplsTtl, 15⟩, ⟨.decMplsTtl, 16⟩, ⟨.pushVlan, 17⟩, ⟨.stripVlan, 18⟩,
   ⟨.pushMpls, 19⟩, ⟨.popMpls, 20⟩, ⟨.setQueue, 21⟩, ⟨.group, 22⟩, ⟨.setIpTtl, 23⟩,
   ⟨.decTtl, 24⟩, ⟨.setField, 25⟩, ⟨.configGw, 51⟩, ⟨.handleGw, 52⟩]

def getOfpactMap : OfpVersion → List OfpactMap
  | .ofp10 => of10
  | .ofp11 => of11
  | _ => of12

/-! ## 3. The conversions -/

/-- What the compiled code yields for `1u << n` when `n` is 32 or more. -/
structure ShiftUnit where
  beyond : Nat → BitVec 32

def ShiftUnit.one (m : ShiftUnit) (n : Nat) : BitVec 32 :=
  if n < 32 then (1 : BitVec 32) <<< n else m.beyond n

/-- The shift instruction of x86, which takes the count modulo 32. -/
def ShiftUnit.x86 : ShiftUnit := ⟨fun n => (1 : BitVec 32) <<< (n % 32)⟩

/-- A shift that moves the bit out of the word, as AArch64 compilers fold it. -/
def ShiftUnit.out : ShiftUnit := ⟨fun _ => 0⟩

def ofpactBit (t : OfpactType) : BitVec 64 := (1 : BitVec 64) <<< t.value

/-- The loop of `ofpact_bitmap_to_openflow`, before the conversion to network byte order. -/
def openflowBitmap (m : ShiftUnit) (ofpacts : BitVec 64) (map : List OfpactMap) : BitVec 32 :=
  orOver map (fun x => ofpacts &&& ofpactBit x.ofpact != 0) (fun x => m.one x.ofpat)

def ofpactBitmapToOpenflow (order : ByteOrder) (m : ShiftUnit) (ofpacts : BitVec 64)
    (version : OfpVersion) : BitVec 32 :=
  htonl order (openflowBitmap m ofpacts (getOfpactMap version))

def ofpactBitmapFromOpenflow (order : ByteOrder) (m : ShiftUnit) (ofpats : BitVec 32)
    (version : OfpVersion) : BitVec 64 :=
  orOver (getOfpactMap version) (fun x => ofpats &&& htonl order (m.one x.ofpat) != 0)
    (fun x => ofpactBit x.ofpact)

def listedTypes (version : OfpVersion) : BitVec 64 :=
  orOver (getOfpactMap version) (fun _ => true) (fun x => ofpactBit x.ofpact)

/-! ## 4. The tables as maps -/

variable {order : ByteOrder} {t : OfpactType} {version : OfpVersion} {ofpacts : BitVec 64}
  {m : ShiftUnit} {n i : Nat}

theorem value_lt : t.value < 64 := by
  cases t <;> decide

theorem value_inj {u : OfpactType} (h : t.value = u.value) : t = u := by
  rw [← OfpactType.ofNat_ctorIdx t, ← OfpactType.ofNat_ctorIdx u]
  exact congrArg OfpactType.ofNat h

theorem eq_of_ofpact_eq :
    ∀ x ∈ getOfpactMap version, ∀ y ∈ getOfpactMap version, x.ofpact = y.ofpact → x = y := by
  cases version <;> decide

theorem eq_of_ofpat_eq :
    ∀ x ∈ getOfpactMap version, ∀ y ∈ getOfpactMap version, x.ofpat = y.ofpat → x = y := by
  cases version <;> decide

theorem ofpat_ge_iff :
    ∀ x ∈ getOfpactMap version, 32 ≤ x.ofpat ↔ x.ofpact = .configGw ∨ x.ofpact = .handleGw := by
  cases version <;> decide

/-! ## 5. The round trip -/

def HasType (ofpacts : BitVec 64) (t : OfpactType) : Prop := ofpacts.getLsbD t.value = true

theorem and_ofpactBit_bne : (ofpacts &&& ofpactBit t != 0) = true ↔ HasType ofpacts t := by
  rw [bne_iff_ne]
  exact and_one_shiftLeft_ne_zero value_lt

theorem getLsbD_ofpactBit : (ofpactBit t).getLsbD i = decide (i = t.value) := by
  rw [ofpactBit, getLsbD_one_shiftLeft]
  by_cases h : i = t.value
  · simp [h, value_lt]
  · simp [h]

theorem hasType_round_trip {x : OfpactMap} (hx : x ∈ getOfpactMap version) :
    HasType (ofpactBitmapFromOpenflow order m (ofpactBitmapToOpenflow order m ofpacts version)
        version) x.ofpact ↔
      ∃ y ∈ getOfpactMap version, HasType ofpacts y.ofpact ∧ m.one y.ofpat &&& m.one x.ofpat ≠ 0 := by
  have hmeets : ∀ z : OfpactMap,
      (ofpactBitmapToOpenflow order m ofpacts version &&& htonl order (m.one z.ofpat) != 0) = true ↔
        ∃ y ∈ getOfpactMap version, HasType ofpacts y.ofpact ∧
          m.one y.ofpat &&& m.one z.ofpat ≠ 0 := by
    intro z
    rw [bne_iff_ne, ofpactBitmapToOpenflow, htonl_and, htonl_ne_zero, openflowBitmap,
      orOver_and_ne_zero]
    simp only [and_ofpactBit_bne]
  rw [HasType, ofpactBitmapFromOpenflow, getLsbD_orOver, List.any_eq_true]
  constructor
  · rintro ⟨z, hz, hbit⟩
    rw [Bool.and_eq_true, getLsbD_ofpactBit, decide_eq_true_eq] at hbit
    have hzx : x = z := eq_of_ofpact_eq x hx z hz (value_inj hbit.2)
    rw [hzx]
    exact (hmeets z).mp hbit.1
  · intro h
    refine ⟨x, hx, ?_⟩
    rw [Bool.and_eq_true, getLsbD_ofpactBit]
    exact ⟨(hmeets x).mpr h, by simp⟩

theorem eq_and_listedTypes_iff {ofpats : BitVec 32} :
    ofpactBitmapFromOpenflow order m ofpats version = ofpacts &&& listedTypes version ↔
      ∀ x ∈ getOfpactMap version,
        (HasType (ofpactBitmapFromOpenflow order m ofpats version) x.ofpact ↔
          HasType ofpacts x.ofpact) := by
  have hlisted : ∀ i, (listedTypes version).getLsbD i = true ↔
      ∃ x ∈ getOfpactMap version, i = x.ofpact.value := by
    intro i
    simp [listedTypes, getLsbD_orOver, getLsbD_ofpactBit]
  constructor
  · intro h x hx
    rw [h, HasType, BitVec.getLsbD_and, Bool.and_eq_true, hlisted]
    exact and_iff_left ⟨x, hx, rfl⟩
  · intro h
    apply BitVec.eq_of_getLsbD_eq
    intro i _
    rw [Bool.eq_iff_iff, BitVec.getLsbD_and, Bool.and_eq_true, hlisted]
    constructor
    · intro hi
      have hfrom := hi
      rw [ofpactBitmapFromOpenflow, getLsbD_orOver, List.any_eq_true] at hfrom
      obtain ⟨x, hx, hbit⟩ := hfrom
      rw [Bool.and_eq_true, getLsbD_ofpactBit, decide_eq_true_eq] at hbit
      rw [hbit.2] at hi ⊢
      exact ⟨(h x hx).mp hi, x, hx, rfl⟩
    · rintro ⟨hi, x, hx, rfl⟩
      exact (h x hx).mpr hi

theorem one_and_one_of_lt (m : ShiftUnit) {k : Nat} (hn : n < 32) (hk : k < 32) :
    m.one n &&& m.one k ≠ 0 ↔ n = k := by
  rw [ShiftUnit.one, ShiftUnit.one, if_pos hn, if_pos hk, and_one_shiftLeft_ne_zero hk,
    getLsbD_one_shiftLeft]
  simp [hk, eq_comm]

theorem one_ne_zero_of_lt (m : ShiftUnit) (hn : n < 32) : m.one n ≠ 0 := by
  have h := (one_and_one_of_lt m hn hn).mpr rfl
  rwa [BitVec.and_self] at h

/-- The words for the numbers that do not fit do no harm: none of an action in the set is empty, and
    none makes an action outside the set share a bit with one in it. -/
structure GatewayHarmless (m : ShiftUnit) (ofpacts : BitVec 64) (version : OfpVersion) : Prop where
  kept : ∀ x ∈ getOfpactMap version, 32 ≤ x.ofpat → HasType ofpacts x.ofpact → m.one x.ofpat ≠ 0
  apart : ∀ x ∈ getOfpactMap version, ∀ y ∈ getOfpactMap version, 32 ≤ x.ofpat ∨ 32 ≤ y.ofpat →
    ¬ HasType ofpacts x.ofpact → HasType ofpacts y.ofpact → m.one y.ofpat &&& m.one x.ofpat = 0

theorem round_trip_iff :
    ofpactBitmapFromOpenflow order m (ofpactBitmapToOpenflow order m ofpacts version) version =
      ofpacts &&& listedTypes version ↔ GatewayHarmless m ofpacts version := by
  rw [eq_and_listedTypes_iff]
  constructor
  · intro h
    constructor
    · intro x hx _ hhas hzero
      obtain ⟨y, _, _, hmeet⟩ := (hasType_round_trip hx).mp ((h x hx).mpr hhas)
      exact hmeet (by simp [hzero])
    · intro x hx y hy _ hnot hhas
      apply Decidable.byContradiction
      intro hmeet
      exact hnot ((h x hx).mp ((hasType_round_trip hx).mpr ⟨y, hy, hhas, hmeet⟩))
  · intro hok x hx
    rw [hasType_round_trip hx]
    constructor
    · rintro ⟨y, hy, hhas, hmeet⟩
      apply Classical.byContradiction
      intro hnot
      by_cases hfit : 32 ≤ x.ofpat ∨ 32 ≤ y.ofpat
      · exact hmeet (hok.apart x hx y hy hfit hnot hhas)
      · have heq := (one_and_one_of_lt m (by omega) (by omega)).mp hmeet
        rw [← eq_of_ofpat_eq y hy x hx heq] at hnot
        exact hnot hhas
    · intro hhas
      refine ⟨x, hx, hhas, ?_⟩
      rw [BitVec.and_self]
      by_cases hfit : 32 ≤ x.ofpat
      · exact hok.kept x hx hfit hhas
      · exact one_ne_zero_of_lt m (by omega)

/-- The numbers of a version are distinct; the gateway actions, and only they, have numbers that
    reach the width of the result; and the round trip gives back the listed part of a set of actions
    exactly if the words for those two numbers do no harm. -/
theorem ofpact_bitmap_round_trip (version : OfpVersion) :
    (∀ x ∈ getOfpactMap version, ∀ y ∈ getOfpactMap version, x.ofpat = y.ofpat → x = y) ∧
      (∀ x ∈ getOfpactMap version, 32 ≤ x.ofpat ↔ x.ofpact = .configGw ∨ x.ofpact = .handleGw) ∧
      ∀ order m ofpacts,
        (ofpactBitmapFromOpenflow order m (ofpactBitmapToOpenflow order m ofpacts version) version =
          ofpacts &&& listedTypes version ↔ GatewayHarmless m ofpacts version) :=
  ⟨eq_of_ofpat_eq, ofpat_ge_iff, fun _ _ _ => round_trip_iff⟩

/-- Where the count is taken modulo 32, the round trip is right except that the gateway actions
    share their bits with `PUSH_MPLS` and `POP_MPLS`, which OpenFlow 1.0 does not list. -/
theorem round_trip_x86_iff :
    ofpactBitmapFromOpenflow order .x86 (ofpactBitmapToOpenflow order .x86 ofpacts version) version =
      ofpacts &&& listedTypes version ↔
    version = .ofp10 ∨ ((HasType ofpacts .configGw ↔ HasType ofpacts .pushMpls) ∧
      (HasType ofpacts .handleGw ↔ HasType ofpacts .popMpls)) := by
  have hone : ∀ n, ShiftUnit.x86.one n = (1 : BitVec 32) <<< (n % 32) := by
    intro n
    simp only [ShiftUnit.one, ShiftUnit.x86, ite_eq_right_iff]
    exact fun h => by rw [Nat.mod_eq_of_lt h]
  have hmeet : ∀ n k, ShiftUnit.x86.one n &&& ShiftUnit.x86.one k ≠ 0 ↔ n % 32 = k % 32 := by
    intro n k
    have hlt : k % 32 < 32 := Nat.mod_lt k (by decide)
    rw [hone, hone, and_one_shiftLeft_ne_zero hlt, getLsbD_one_shiftLeft]
    simp [hlt, eq_comm]
  let pairs : List (OfpactType × OfpactType) := [(.configGw, .pushMpls), (.pushMpls, .configGw),
    (.handleGw, .popMpls), (.popMpls, .handleGw)]
  have hclash : ∀ x ∈ getOfpactMap version, ∀ y ∈ getOfpactMap version,
      y.ofpat % 32 = x.ofpat % 32 →
        x = y ∨ version ≠ .ofp10 ∧ (x.ofpact, y.ofpact) ∈ pairs := by
    cases version <;> decide
  have hpairs : version ≠ .ofp10 → ∀ p ∈ pairs, ∃ x ∈ getOfpactMap version,
      ∃ y ∈ getOfpactMap version, x.ofpact = p.1 ∧ y.ofpact = p.2 ∧
        y.ofpat % 32 = x.ofpat % 32 := by
    cases version <;> decide
  have hswap : (∀ p ∈ pairs, HasType ofpacts p.2 → HasType ofpacts p.1) ↔
      (HasType ofpacts .configGw ↔ HasType ofpacts .pushMpls) ∧
        (HasType ofpacts .handleGw ↔ HasType ofpacts .popMpls) := by
    simp only [pairs, List.forall_mem_cons, List.not_mem_nil]
    tauto
  rw [eq_and_listedTypes_iff, ← hswap]
  constructor
  · refine fun h => or_iff_not_imp_left.mpr fun hv p hp hhas => ?_
    obtain ⟨x, hx, y, hy, hxp, hyp, heq⟩ := hpairs hv p hp
    rw [← hxp, ← h x hx, hasType_round_trip hx]
    exact ⟨y, hy, hyp ▸ hhas, (hmeet _ _).mpr heq⟩
  · intro h x hx
    rw [hasType_round_trip hx]
    constructor
    · rintro ⟨y, hy, hhas, hbit⟩
      rcases hclash x hx y hy ((hmeet _ _).mp hbit) with rfl | ⟨hv, hpair⟩
      · exact hhas
      · exact h.resolve_left hv _ hpair hhas
    · exact fun hhas => ⟨x, hx, hhas, (hmeet _ _).mpr rfl⟩

/-- Every table asks for a shift by 51.  Where the count is taken modulo 32, the
    set with just `PUSH_MPLS` comes back with `CONFIG_GW` in it; where the bit
    is shifted out, `CONFIG_GW` is lost. -/
theorem ofpact_bitmap_no_round_trip : (∀ version, ∃ x ∈ getOfpactMap version, 32 ≤ x.ofpat) ∧
      ofpactBitmapFromOpenflow .little .x86
          (ofpactBitmapToOpenflow .little .x86 (ofpactBit .pushMpls) .ofp13) .ofp13 =
        ofpactBit .pushMpls ||| ofpactBit .configGw ∧
      ofpactBit .pushMpls &&& listedTypes .ofp13 = ofpactBit .pushMpls ∧
      ofpactBitmapFromOpenflow .little .out
          (ofpactBitmapToOpenflow .little .out (ofpactBit .configGw) .ofp13) .ofp13 = 0 ∧
      ofpactBit .configGw &&& listedTypes .ofp13 = ofpactBit .configGw := by
  refine ⟨?_, by decide, by decide, by decide, by decide⟩
  intro version
  cases version <;> decide

end Ovsgw
