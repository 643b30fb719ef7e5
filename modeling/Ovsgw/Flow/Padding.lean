/-
  **Padding after an IP packet** does not change the miniflow that `miniflow_extract` extracts,
  as long as there are at most 255 bytes of it or the packet is not looked at anyway.

  From the network header on, no parser looks at more bytes than it has been told there are:
  two cursors that *agree* on these bytes give the same fields.  With more padding the IP header
  is taken for an invalid one, and then the miniflow lacks the words for the addresses.
-/
import Ovsgw.Flow.Extract

namespace Ovsgw.Headers

open List
open Lib (Byte)

/-! ## 1. What the parsers look at -/

/-- Two cursors that have the same bytes in front of them, as far as their size goes. -/
structure Agree (c c' : Cursor) : Prop where
  size : c.size = c'.size
  bytes : ∀ i < c.size, u8 c.data i = u8 c'.data i

variable {nwProto : BitVec 8} {ct : CtPorts} {layers layers' : Layers} {ofs ofs' limit : Nat}

section
variable {c c' : Cursor} {i n : Nat} {data : List Byte}

theorem u8_drop : u8 (data.drop n) i = u8 data (n + i) := by
  simp [u8, getD_eq_getElem?_getD]

section

variable (h : Agree c c')
include h

theorem Agree.pull (n : Nat) : Agree (c.pull n) (c'.pull n) := by
  constructor
  · simp only [Cursor.pull, h.size]
  · intro i hi
    simp only [Cursor.pull] at hi
    simp only [Cursor.pull, u8_drop]
    exact h.bytes _ (by omega)

theorem Agree.be16 (hi : i + 2 ≤ c.size) : be16 c.data i = be16 c'.data i := by
  rw [Headers.be16, Headers.be16, h.bytes i (by omega), h.bytes (i + 1) (by omega)]

theorem Agree.be32 (hi : i + 4 ≤ c.size) : be32 c.data i = be32 c'.data i := by
  rw [Headers.be32, Headers.be32, h.be16 (by omega), h.be16 (by omega)]

theorem Agree.be48 (hi : i + 6 ≤ c.size) : be48 c.data i = be48 c'.data i := by
  rw [Headers.be48, Headers.be48, h.be16 (by omega), h.be32 (by omega)]

theorem Agree.be64 (hi : i + 8 ≤ c.size) : be64 c.data i = be64 c'.data i := by
  rw [Headers.be64, Headers.be64, h.be32 (by omega), h.be32 (by omega)]

theorem Agree.be128 (hi : i + 16 ≤ c.size) : be128 c.data i = be128 c'.data i := by
  rw [Headers.be128, Headers.be128, h.be64 (by omega), h.be64 (by omega)]

theorem Agree.extHdrLen (hsize : 8 ≤ c.size) (nwProto : BitVec 8) :
    extHdrLen c nwProto = extHdrLen c' nwProto := by
  rw [Headers.extHdrLen, Headers.extHdrLen, h.bytes 1 (by omega)]

end

/-- Two parsers that both fail, or that end with the same result before the same bytes. -/
def AgreeResult {α : Type} (x x' : Option (Cursor × α)) : Prop :=
  (x = none ∧ x' = none) ∨
    ∃ rest rest' a, Agree rest rest' ∧ x = some (rest, a) ∧ x' = some (rest', a)

theorem Agree.parseIpv6ExtHdrs (h : Agree c c') (nwProto nwFrag : BitVec 8) :
    AgreeResult (parseIpv6ExtHdrs c nwProto nwFrag) (parseIpv6ExtHdrs c' nwProto nwFrag) := by
  induction hn : c.size using Nat.strong_induction_on generalizing c c' nwProto nwFrag with
  | _ n ih =>
    rw [Headers.parseIpv6ExtHdrs.eq_1 c, Headers.parseIpv6ExtHdrs.eq_1 c', ← h.size]
    split
    · exact .inr ⟨c, c', _, h, rfl, rfl⟩
    split
    · exact .inl ⟨rfl, rfl⟩
    rw [← h.extHdrLen (by omega)]
    split
    · exact .inl ⟨rfl, rfl⟩
    have hlen := extHdrLen_pos c nwProto
    have hpull : ∀ nwProto' nwFrag,
        AgreeResult (Headers.parseIpv6ExtHdrs (c.pull (Headers.extHdrLen c nwProto)) nwProto' nwFrag)
          (Headers.parseIpv6ExtHdrs (c'.pull (Headers.extHdrLen c nwProto)) nwProto' nwFrag) := by
      intro nwProto' nwFrag
      apply ih _ _ (h.pull _) nwProto' nwFrag rfl
      simp only [Cursor.pull]
      omega
    simp only [← h.bytes 0 (show 0 < c.size by omega), ← h.be16 (show 2 + 2 ≤ c.size by omega)]
    split_ifs
    · exact .inr ⟨_, _, _, h.pull _, rfl, rfl⟩
    all_goals exact hpull _ _

theorem Agree.parseNdOptions (h : Agree c c') (found : NdOptions) :
    parseNdOptions c found = parseNdOptions c' found := by
  induction hn : c.size using Nat.strong_induction_on generalizing c c' found with
  | _ n ih =>
    rw [Headers.parseNdOptions.eq_1 c, Headers.parseNdOptions.eq_1 c', ← h.size]
    by_cases hsize : c.size ≥ 8
    · simp only [if_pos hsize, ← h.bytes 0 (show 0 < c.size by omega),
        ← h.bytes 1 (show 1 < c.size by omega), ← h.be48 (show 2 + 6 ≤ c.size by omega)]
      split
      · rfl
      next hlen =>
        have hpull : ∀ found, Headers.parseNdOptions (c.pull ((u8 c.data 1).toNat * 8)) found =
            Headers.parseNdOptions (c'.pull ((u8 c.data 1).toNat * 8)) found := by
          intro found
          apply ih _ _ (h.pull _) found rfl
          simp only [Cursor.pull]
          omega
        simp only [hpull]
    · simp only [if_neg hsize]

theorem Agree.parseIcmpv6 (h : Agree c c') (hsize : 8 ≤ c.size) :
    parseIcmpv6 (c.pull 8) c.data = parseIcmpv6 (c'.pull 8) c'.data := by
  have hpull := h.pull 8
  unfold Headers.parseIcmpv6
  simp only [← h.bytes 0 (show 0 < c.size by omega), ← h.bytes 1 (show 1 < c.size by omega),
    ← h.be32 (show 4 + 4 ≤ c.size by omega), Cursor.tryPull, ← hpull.size]
  by_cases htarget : (c.pull 8).size ≥ 16
  · simp only [if_pos htarget, ← (hpull.pull 16).parseNdOptions,
      ← hpull.be128 (show 0 + 16 ≤ (c.pull 8).size by omega)]
  · simp only [if_neg htarget]

theorem Agree.extractTransport (h : Agree c c') {mf : Miniflow} :
    extractTransport mf c nwProto ct = extractTransport mf c' nwProto ct := by
  unfold Headers.extractTransport
  rw [← h.size]
  by_cases h8 : c.size ≥ 8
  · simp only [← h.bytes 0 (show 0 < c.size by omega), ← h.bytes 1 (show 1 < c.size by omega),
      ← h.be16 (show 0 + 2 ≤ c.size by omega), ← h.be16 (show 2 + 2 ≤ c.size by omega),
      ← h.be32 (show 4 + 4 ≤ c.size by omega), ← h.parseIcmpv6 h8]
    by_cases h20 : c.size ≥ 20
    · simp only [← h.be16 (show 12 + 2 ≤ c.size by omega)]
    · simp only [if_neg h20]
  · simp only [if_neg h8, if_neg (show ¬ c.size ≥ 12 by omega),
      if_neg (show ¬ c.size ≥ 20 by omega)]

theorem Agree.extractIp (h : Agree c c') {mf : Miniflow} {label : BitVec 32}
    {nwFrag nwTos nwTtl : BitVec 8} : extractIp mf c label nwFrag nwTos nwTtl nwProto ct =
      extractIp mf c' label nwFrag nwTos nwTtl nwProto ct := by
  simp only [Headers.extractIp, h.extractTransport]

/-! ## 2. Padding -/

variable {md : PktMetadata} {mf : Miniflow} {ip pad : List Byte}

theorem u8_append (h : i < ip.length) : u8 (ip ++ pad) i = u8 ip i := by
  simp only [u8, getD_eq_getElem?_getD, getElem?_append_left h]

theorem agree_append (ip pad : List Byte) : Agree ⟨ip, ip.length⟩ ⟨ip ++ pad, ip.length⟩ :=
  ⟨rfl, fun _ hi => (u8_append hi).symm⟩

theorem be16_append (h : i + 2 ≤ ip.length) : be16 (ip ++ pad) i = be16 ip i :=
  ((agree_append ip pad).be16 h).symm

theorem be32_append (h : i + 4 ≤ ip.length) : be32 (ip ++ pad) i = be32 ip i :=
  ((agree_append ip pad).be32 h).symm

theorem be48_append (h : i + 6 ≤ ip.length) : be48 (ip ++ pad) i = be48 ip i :=
  ((agree_append ip pad).be48 h).symm

theorem be128_append (h : i + 16 ≤ ip.length) : be128 (ip ++ pad) i = be128 ip i :=
  ((agree_append ip pad).be128 h).symm

theorem ipv4SanityCheck_append (hip : 4 ≤ ip.length) (hlen : (be16 ip 2).toNat = ip.length)
    (hpad : pad.length ≤ 255) :
    ipv4SanityCheck ⟨ip ++ pad, (ip ++ pad).length⟩ = ipv4SanityCheck ⟨ip, ip.length⟩ := by
  simp (disch := omega) only [ipv4SanityCheck, u8_append, be16_append, hlen, length_append,
    Bool.or_eq_true, decide_eq_true_eq]
  split_ifs <;> first | rfl | omega

theorem ipv4SanityCheck_some {ipLen totLen : Nat} (h : ipv4SanityCheck c = some (ipLen, totLen)) :
    20 ≤ ipLen ∧ ipLen ≤ totLen ∧ totLen = (be16 c.data 2).toNat := by
  simp only [ipv4SanityCheck, Bool.or_eq_true, decide_eq_true_eq] at h
  split_ifs at h
  simp only [Option.some.injEq, Prod.mk.injEq] at h
  omega

theorem extractIpv4_append (hip : 4 ≤ ip.length) (hlen : (be16 ip 2).toNat = ip.length)
    (hpad : pad.length ≤ 255) : (extractIpv4 md mf layers ofs ⟨ip ++ pad, (ip ++ pad).length⟩).1 =
      (extractIpv4 md mf layers' ofs' ⟨ip, ip.length⟩).1 := by
  unfold extractIpv4
  rw [ipv4SanityCheck_append hip hlen hpad]
  split
  · rfl
  next ipLen totLen hsome =>
    obtain ⟨h20, hle, htot⟩ := ipv4SanityCheck_some hsome
    obtain rfl : totLen = ip.length := htot.trans hlen
    simp (disch := omega) only [ipv4GetNwFrag, u8_append, be16_append, be32_append,
      ((agree_append ip pad).pull ipLen).extractIp]

section

variable (hip : 40 ≤ ip.length) (hlen : (be16 ip 4).toNat + 40 = ip.length)
  (hpad : pad.length ≤ 255)
include hip hlen hpad

theorem ipv6SanityCheck_append : ipv6SanityCheck ⟨ip ++ pad, (ip ++ pad).length⟩ = true ∧
      ipv6SanityCheck ⟨ip, ip.length⟩ = true := by
  simp (disch := omega) only [ipv6SanityCheck, be16_append, length_append]
  constructor <;> split_ifs <;> first | rfl | omega

theorem extractIpv6_append : (extractIpv6 md mf layers ofs ⟨ip ++ pad, (ip ++ pad).length⟩).1 =
      (extractIpv6 md mf layers' ofs' ⟨ip, ip.length⟩).1 := by
  obtain ⟨hcheck, hcheck'⟩ := ipv6SanityCheck_append hip hlen hpad
  have hrest : Agree { ((⟨ip, ip.length⟩ : Cursor).pull 40) with size := (be16 ip 4).toNat }
      { ((⟨ip ++ pad, (ip ++ pad).length⟩ : Cursor).pull 40) with size := (be16 ip 4).toNat } := by
    have hpull := (agree_append ip pad).pull 40
    refine ⟨rfl, fun i hi => hpull.bytes i ?_⟩
    simp only [Cursor.pull]
    dsimp only at hi
    omega
  unfold extractIpv6
  rw [hcheck, hcheck']
  simp (disch := omega) only [Bool.not_true, Bool.false_eq_true, if_false, u8_append, be16_append,
    be32_append, be128_append]
  rcases hrest.parseIpv6ExtHdrs (u8 ip 6) 0 with ⟨hnone, hnone'⟩ |
    ⟨rest, rest', next, hagree, hsome, hsome'⟩
  · rw [hnone, hnone']
  · rw [hsome, hsome']
    simp only [hagree.extractIp]

end

/-! ## 3. Too much padding -/

theorem length_le_extractTransport :
    mf.map.length ≤ (extractTransport mf c nwProto ct).map.length := by
  unfold extractTransport
  split_ifs <;> try simp [pushPorts, Miniflow.push]
  cases parseIcmpv6 (c.pull 8) c.data with
  | none => simp
  | some nd =>
    cases htarget : nd.ndTarget <;> simp [pushNd, Miniflow.push, htarget]

theorem length_lt_extractIp {label : BitVec 32} {nwFrag nwTos nwTtl : BitVec 8} :
    mf.map.length < (extractIp mf c label nwFrag nwTos nwTtl nwProto ct).map.length := by
  unfold extractIp
  dsimp only
  split_ifs
  · refine Nat.lt_of_lt_of_le ?_ length_le_extractTransport
    simp [Miniflow.push]
  · simp [Miniflow.push]

theorem length_le_pushCtTuple {ipv6 : Bool} :
    mf.map.length ≤ (pushCtTuple mf md ipv6).1.map.length := by
  unfold pushCtTuple
  split_ifs
  · exact Nat.le_refl _
  split
  · split_ifs <;> simp [Miniflow.push]
  · split_ifs <;> simp [Miniflow.push]
  · exact Nat.le_refl _

theorem length_lt_extractIpv4 (h : ipv4SanityCheck c ≠ none) :
    mf.map.length < (extractIpv4 md mf layers ofs c).1.map.length := by
  unfold extractIpv4
  split
  next hnone => exact absurd hnone h
  · refine Nat.lt_of_lt_of_le ?_ (length_le_pushCtTuple.trans length_lt_extractIp.le)
    simp [Miniflow.push]

theorem length_lt_extractIpv6 (h : ipv6SanityCheck c = true) :
    mf.map.length < (extractIpv6 md mf layers ofs c).1.map.length := by
  unfold extractIpv6
  rw [h]
  dsimp only
  rw [if_neg (by decide)]
  have hct : mf.map.length < (pushCtTuple (mf.push [.ipv6Src] fun flow => { flow with
      ipv6Src := be128 c.data 8, ipv6Dst := be128 c.data 24 }) md true).1.map.length := by
    refine Nat.lt_of_lt_of_le ?_ length_le_pushCtTuple
    simp [Miniflow.push]
  split
  · exact hct
  · exact hct.trans length_lt_extractIp

theorem ipv4SanityCheck_long (hip : 4 ≤ ip.length) (hlen : (be16 ip 2).toNat = ip.length)
    (hpad : 255 < pad.length) : ipv4SanityCheck ⟨ip ++ pad, (ip ++ pad).length⟩ = none := by
  simp (disch := omega) only [ipv4SanityCheck, be16_append, hlen, length_append,
    Bool.or_eq_true, decide_eq_true_eq]
  split_ifs <;> first | rfl | omega

theorem ipv6SanityCheck_long (hip : 40 ≤ ip.length) (hlen : (be16 ip 4).toNat + 40 = ip.length)
    (hpad : 255 < pad.length) : ipv6SanityCheck ⟨ip ++ pad, (ip ++ pad).length⟩ = false := by
  simp (disch := omega) only [ipv6SanityCheck, be16_append, length_append]
  split_ifs <;> first | rfl | omega

theorem extractIpv4_padding (hip : 4 ≤ ip.length) (hlen : (be16 ip 2).toNat = ip.length) :
    (extractIpv4 md mf layers ofs ⟨ip ++ pad, (ip ++ pad).length⟩).1 =
      (extractIpv4 md mf layers' ofs' ⟨ip, ip.length⟩).1 ↔
      pad.length ≤ 255 ∨ ipv4SanityCheck ⟨ip, ip.length⟩ = none := by
  by_cases hpad : pad.length ≤ 255
  · exact iff_of_true (extractIpv4_append hip hlen hpad) (.inl hpad)
  rw [or_iff_right hpad, extractIpv4, ipv4SanityCheck_long hip hlen (Nat.lt_of_not_le hpad)]
  by_cases hbad : ipv4SanityCheck ⟨ip, ip.length⟩ = none
  · refine iff_of_true ?_ hbad
    rw [extractIpv4, hbad]
  · exact iff_of_false (fun h => (length_lt_extractIpv4 hbad).ne (congrArg (·.map.length) h)) hbad

theorem extractIpv6_padding (hip : 40 ≤ ip.length) (hlen : (be16 ip 4).toNat + 40 = ip.length) :
    (extractIpv6 md mf layers ofs ⟨ip ++ pad, (ip ++ pad).length⟩).1 =
      (extractIpv6 md mf layers' ofs' ⟨ip, ip.length⟩).1 ↔ pad.length ≤ 255 := by
  by_cases hpad : pad.length ≤ 255
  · exact iff_of_true (extractIpv6_append hip hlen hpad) hpad
  have hcheck := (ipv6SanityCheck_append hip hlen (show ([] : List Byte).length ≤ 255 by decide)).2
  rw [extractIpv6, ipv6SanityCheck_long hip hlen (Nat.lt_of_not_le hpad)]
  exact iff_of_false (fun h => (length_lt_extractIpv6 hcheck).ne (congrArg (·.map.length) h)) hpad

/-! ## 4. Frames -/

/-- The bytes between the addresses of an Ethernet frame and its payload, of the Ethernet type
    `dlType`: VLAN tags, and then the type itself or a length with an LLC SNAP header. -/
inductive LinkHeader (dlType : BitVec 16) : (tags : Nat) → List Byte → Prop
  | ethertype {a b : Byte} (h : a ++ b = dlType) : LinkHeader dlType 0 [a, b]
  | snap {l l' a b : Byte} (hlen : l ++ l' < ethTypeMin) (h : a ++ b = dlType) :
      LinkHeader dlType 0 [l, l', 0xaa, 0xaa, 0x03, 0, 0, 0, a, b]
  | tag {a b tci tci' : Byte} {tags : Nat} {header : List Byte} (h : ethTypeVlan (a ++ b) = true)
      (rest : LinkHeader dlType tags header) :
      LinkHeader dlType (tags + 1) (a :: b :: tci :: tci' :: header)

variable {dlType : BitVec 16} {header addresses : List Byte} {size tags : Nat}

theorem LinkHeader.two_le (h : LinkHeader dlType tags header) : 2 ≤ header.length := by
  cases h <;> simp only [length_cons, length_nil] <;> omega

theorem ethTypeMin_le_of_vlan {ethType : BitVec 16} (h : ethTypeVlan ethType = true) :
    ethTypeMin ≤ ethType := by
  simp only [ethTypeVlan, Bool.or_eq_true, decide_eq_true_eq] at h
  rcases h with rfl | rfl <;> decide

/-- The parts of `miniflow_extract` for the VLAN tags and the Ethernet type. -/
def parseLink (limit : Nat) (c : Cursor) : Cursor × List VlanHdr × BitVec 16 :=
  let (rest, vlans) := vlanLoop limit c
  let (rest, dlType) := parseEthertype rest
  (rest, vlans, dlType)

theorem vlanLoop_of_not_vlan (h : ethTypeVlan (be16 data 0) = false)
    : vlanLoop limit ⟨data, size⟩ = (⟨data, size⟩, []) := by
  cases limit with
  | zero => rfl
  | succ limit => simp [vlanLoop, h]

theorem parseLink_type (hmin : ethTypeMin ≤ dlType) (h : be16 data 0 = dlType)
    (hloop : vlanLoop limit ⟨data, size⟩ = (⟨data, size⟩, [])) :
    parseLink limit ⟨data, size⟩ = (⟨data.drop 2, size - 2⟩, [], dlType) := by
  rw [parseLink, hloop]
  simp [parseEthertype, h, hmin, Cursor.pull]

/-- A header is parsed without a look at the payload.  Either all of it is parsed, or it has too
    many VLAN tags. -/
theorem parseLink_header (hmin : ethTypeMin ≤ dlType)
    (hvlan : ethTypeVlan dlType = false) (h : LinkHeader dlType tags header)
    (limit : Nat) : ∃ vlans found, ∀ payload : List Byte, ∃ rest,
      parseLink limit ⟨header ++ payload, (header ++ payload).length⟩ = (rest, vlans, found) ∧
      ((tags ≤ limit ∧ found = dlType ∧ rest = ⟨payload, payload.length⟩) ∨
        (limit < tags ∧ ethTypeVlan found = true)) := by
  induction h generalizing limit with
  | @ethertype a b h =>
    refine ⟨[], dlType, fun payload => ⟨⟨payload, payload.length⟩, ?_,
      .inl ⟨Nat.zero_le _, rfl, rfl⟩⟩⟩
    have htype : be16 ([a, b] ++ payload) 0 = dlType := h
    exact parseLink_type hmin htype (vlanLoop_of_not_vlan (by rw [htype, hvlan]))
  | @snap l l' a b hlen h =>
    refine ⟨[], dlType, fun payload => ⟨⟨payload, payload.length⟩, ?_,
      .inl ⟨Nat.zero_le _, rfl, rfl⟩⟩⟩
    have hnot : ethTypeVlan (l ++ l') = false := by
      rw [← Bool.not_eq_true]
      intro hvlan
      exact absurd (ethTypeMin_le_of_vlan hvlan) (BitVec.not_le.mpr hlen)
    have hlow : ¬ ethTypeMin ≤ l ++ l' := BitVec.not_le.mpr hlen
    have htype : be16 ([l, l', 0xaa, 0xaa, 0x03, 0, 0, 0, a, b] ++ payload) 0 = l ++ l' := rfl
    rw [← htype] at hnot
    rw [parseLink, vlanLoop_of_not_vlan hnot]
    have hsize : ¬ payload.length + 8 < 8 := by omega
    simp [parseEthertype, be16, u8, hlow, Cursor.pull, h, hmin, hsize]
  | @tag a b tci tci' tags header h rest ih =>
    have htype : ∀ payload, be16 (a :: b :: tci :: tci' :: header ++ payload) 0 = a ++ b :=
      fun _ => rfl
    cases limit with
    | zero =>
      exact ⟨[], a ++ b, fun payload =>
        ⟨_, parseLink_type (ethTypeMin_le_of_vlan h) (htype payload) rfl,
          .inr ⟨Nat.succ_pos _, h⟩⟩⟩
    | succ limit =>
      obtain ⟨vlans, found, hfound⟩ := ih limit
      refine ⟨⟨a ++ b, (tci ++ tci') ||| vlanCfi⟩ :: vlans, found, fun payload => ?_⟩
      obtain ⟨last, heq, hor⟩ := hfound payload
      refine ⟨last, ?_, hor.imp (fun h => ⟨Nat.succ_le_succ h.1, h.2⟩)
        fun h => ⟨Nat.succ_lt_succ h.1, h.2⟩⟩
      have hsize : 6 ≤ (a :: b :: tci :: tci' :: header ++ payload).length := by
        have := rest.two_le
        simp only [cons_append, length_cons, length_append]
        omega
      have hpull : (⟨a :: b :: tci :: tci' :: header ++ payload,
          (a :: b :: tci :: tci' :: header ++ payload).length⟩ : Cursor).pull 4 =
          ⟨header ++ payload, (header ++ payload).length⟩ := rfl
      have htci : be16 (a :: b :: tci :: tci' :: header ++ payload) 2 = tci ++ tci' := rfl
      rw [parseLink] at heq
      rw [parseLink, vlanLoop]
      simp only [htype, htci, h, Bool.true_and, decide_eq_true_eq, ge_iff_le, if_pos hsize, hpull]
      generalize vlanLoop limit ⟨header ++ payload, (header ++ payload).length⟩ = loop at heq ⊢
      obtain ⟨c, vlans'⟩ := loop
      simp only [Prod.mk.injEq] at heq ⊢
      exact ⟨heq.1, congrArg _ heq.2.1, heq.2.2⟩

/-- An IP packet that ends where its own length field says. -/
inductive IpPacket : BitVec 16 → List Byte → Prop
  | ipv4 {ip : List Byte} (h : 4 ≤ ip.length) (hlen : (be16 ip 2).toNat = ip.length) :
      IpPacket ethTypeIp ip
  | ipv6 {ip : List Byte} (h : 40 ≤ ip.length) (hlen : (be16 ip 4).toNat + 40 = ip.length) :
      IpPacket ethTypeIpv6 ip

theorem extractNetwork_vlan (h : ethTypeVlan dlType = true)
    : (extractNetwork md mf ofs c dlType).1 = mf := by
  simp only [ethTypeVlan, Bool.or_eq_true, decide_eq_true_eq] at h
  rcases h with rfl | rfl <;> rfl

/-- An IPv4 header that, by its own length, is too short or ends after the packet. -/
def BadHeader (dlType : BitVec 16) (ip : List Byte) : Prop :=
  let ipLen := (u8 ip 0 &&& 15).toNat * 4
  dlType = ethTypeIp ∧ (ipLen < 20 ∨ ip.length < ipLen)

theorem badHeader_iff (hlen : (be16 ip 2).toNat = ip.length) :
    BadHeader ethTypeIp ip ↔ ipv4SanityCheck ⟨ip, ip.length⟩ = none := by
  rw [BadHeader, and_iff_right rfl]
  simp only [ipv4SanityCheck, hlen, Bool.or_eq_true, decide_eq_true_eq]
  generalize (u8 ip 0 &&& 15).toNat * 4 = ipLen
  split_ifs <;> simp <;> omega

theorem extractNetwork_padding (hip : IpPacket dlType ip) :
    (extractNetwork md mf ofs ⟨ip ++ pad, (ip ++ pad).length⟩ dlType).1 =
      (extractNetwork md mf ofs' ⟨ip, ip.length⟩ dlType).1 ↔
      pad.length ≤ 255 ∨ BadHeader dlType ip := by
  cases hip with
  | ipv4 h hlen =>
    rw [badHeader_iff hlen]
    exact extractIpv4_padding h hlen
  | ipv6 h hlen =>
    exact (extractIpv6_padding h hlen).trans (by simp [BadHeader, ethTypeIp, ethTypeIpv6])

theorem miniflowExtract_link (haddr : addresses.length = 12)
    (hdata : 2 ≤ data.length) {rest : Cursor} {vlans : List VlanHdr}
    (h : parseLink limit ⟨data, data.length⟩ = (rest, vlans, dlType)) :
    miniflowExtract limit md 0 (addresses ++ data) =
      extractNetwork md (pushEthernet (extractMetadata md 0) addresses dlType vlans)
        ((addresses ++ data).length - rest.size) rest dlType := by
  have hpull : (⟨addresses ++ data, (addresses ++ data).length⟩ : Cursor).pull 12 =
      ⟨data, data.length⟩ := by
    simp [Cursor.pull, ← haddr]
  have hsize : ¬ (addresses ++ data).length < 14 := by
    rw [length_append]
    omega
  rw [miniflowExtract]
  simp (disch := omega) only [if_neg hsize, parseVlan, hpull, pushEthernet, be48_append]
  rw [parseLink] at h
  generalize vlanLoop limit ⟨data, data.length⟩ = loop at h ⊢
  obtain ⟨c, vlans'⟩ := loop
  simp only [Prod.mk.injEq] at h ⊢
  obtain ⟨rfl, rfl, rfl⟩ := h
  rfl

theorem miniflowExtract_frame (hmin : ethTypeMin ≤ dlType) (hvlan : ethTypeVlan dlType = false)
    (haddr : addresses.length = 12) (hheader : LinkHeader dlType tags header) :
    ∃ mf found, ∀ payload : List Byte, ∃ ofs rest,
      miniflowExtract limit md 0 (addresses ++ header ++ payload) =
        extractNetwork md mf ofs rest found ∧
      ((tags ≤ limit ∧ found = dlType ∧ rest = ⟨payload, payload.length⟩) ∨
        (limit < tags ∧ ethTypeVlan found = true)) := by
  obtain ⟨vlans, found, hparse⟩ := parseLink_header hmin hvlan hheader limit
  refine ⟨pushEthernet (extractMetadata md 0) addresses found vlans, found, fun payload => ?_⟩
  obtain ⟨rest, heq, hor⟩ := hparse payload
  refine ⟨(addresses ++ (header ++ payload)).length - rest.size, rest, ?_, hor⟩
  rw [append_assoc]
  exact miniflowExtract_link haddr (by simpa using hheader.two_le.trans (Nat.le_add_right ..)) heq

/-- Padding does not change the miniflow exactly if there are up to 255 bytes of it, or more VLAN
    tags than are parsed, or an IPv4 header that is not valid. -/
theorem miniflowExtract_padding (limit tags : Nat) (md : PktMetadata) (dlType : BitVec 16)
    (addresses header ip pad : List Byte) (haddr : addresses.length = 12)
    (hheader : LinkHeader dlType tags header) (hip : IpPacket dlType ip) :
    (miniflowExtract limit md 0 (addresses ++ header ++ ip ++ pad)).1 =
      (miniflowExtract limit md 0 (addresses ++ header ++ ip)).1 ↔
      pad.length ≤ 255 ∨ limit < tags ∨ BadHeader dlType ip := by
  have hmin : ethTypeMin ≤ dlType := by
    cases hip <;> decide
  have hvlan : ethTypeVlan dlType = false := by
    cases hip <;> rfl
  obtain ⟨mf, found, hframe⟩ := miniflowExtract_frame hmin hvlan haddr hheader
  obtain ⟨ofs, rest, heq, hor⟩ := hframe ip
  obtain ⟨ofs', rest', heq', hor'⟩ := hframe (ip ++ pad)
  rw [append_assoc, heq, heq']
  rcases hor with ⟨hle, rfl, rfl⟩ | ⟨hlt, hfound⟩
  · obtain ⟨-, -, rfl⟩ := hor'.resolve_right fun h => absurd h.1 (Nat.not_lt.mpr hle)
    rw [extractNetwork_padding hip, or_iff_right (a := limit < tags) (Nat.not_lt.mpr hle)]
  · rw [extractNetwork_vlan hfound, extractNetwork_vlan hfound]
    exact iff_of_true rfl (.inr (.inl hlt))

end

/-! ## 5. A UDP packet of 28 bytes -/

def udpAddresses : List Byte := [2, 0, 0, 0, 0, 2, 2, 0, 0, 0, 0, 1]

def udpHeader : List Byte := [0x08, 0x00]

def udpPacket : List Byte :=
  [0x45, 0, 0, 28, 0, 0, 0, 0, 64, 17, 0, 0, 10, 0, 0, 1, 10, 0, 0, 2]
    ++ [0, 53, 0, 53, 0, 8, 0, 0]

theorem miniflowExtract_padding_udp :
    (miniflowExtract 2 {} 0 (udpAddresses ++ udpHeader ++ udpPacket ++ List.replicate 18 0)).1 =
      (miniflowExtract 2 {} 0 (udpAddresses ++ udpHeader ++ udpPacket)).1 :=
  (miniflowExtract_padding 2 0 {} ethTypeIp udpAddresses udpHeader udpPacket
    (List.replicate 18 0) rfl (.ethertype rfl) (.ipv4 (by decide) rfl)).mpr (.inl (by decide))

/-- With 256 bytes of padding there is nothing of the packet in the miniflow. -/
theorem miniflowExtract_padding_256 :
    (miniflowExtract 2 {} 0 (udpAddresses ++ udpHeader ++ udpPacket)).1.flow.tpDst = 53 ∧
    (miniflowExtract 2 {} 0
      (udpAddresses ++ udpHeader ++ udpPacket ++ List.replicate 256 0)).1.flow.tpDst = 0 := by
  decide +kernel

end Ovsgw.Headers
