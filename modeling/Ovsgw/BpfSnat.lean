/-
  **SNAT of ICMP errors** (`bpf_snat.c`).

  A router that drops a packet after SNAT quotes it in an ICMP error.  The program at ingress
  translates the addresses of the error and of the quoted packet back.  It computes the
  checksums of both IP headers anew, and changes that of ICMP by the change of the port alone:
  an IP header with its checksum adds nothing to the sum.

  The fields of headers are as the machine loads them.  Packets of TCP and UDP are translated
  with the functions of `l4.h` and `csum.h`, which are parameters here.
-/
import Ovsgw.Flow.Csum
import Ovsgw.Lib.Checksum

namespace Ovsgw.Snat

open Headers (ipprotoIcmp ipprotoTcp ipprotoUdp raw16 wordSum)
open Lib (Byte ByteOrder foldCarries)

/-! ## 1. Checksums -/

def bpfCsumFold (csum : BitVec 32) : BitVec 16 :=
  let sum := (csum &&& 0xffff#32) + (csum >>> 16)
  let sum := (sum &&& 0xffff#32) + (sum >>> 16)
  (~~~ sum).setWidth 16

def csumAdd (csum addend : BitVec 32) : BitVec 32 :=
  let res := csum + addend
  if res < addend then res + 1#32 else res

def csumSub (csum addend : BitVec 32) : BitVec 32 := csumAdd csum (~~~ addend)

def csumReplace4 (sum : BitVec 16) (old new : BitVec 32) : BitVec 16 :=
  bpfCsumFold (csumAdd (csumSub (~~~ sum.setWidth 32) old) new)

theorem toNat_fold (v : BitVec 32) :
    ((v &&& 0xffff#32) + (v >>> 16)).toNat = v.toNat % 65536 + v.toNat / 65536 := by
  have hlow : (v &&& 0xffff#32).toNat = v.toNat % 65536 :=
    Nat.and_two_pow_sub_one_eq_mod v.toNat 16
  have hhigh : (v >>> 16).toNat = v.toNat / 65536 := Nat.shiftRight_eq_div_pow v.toNat 16
  rw [BitVec.toNat_add]
  omega

theorem bpfCsumFold_mod (csum : BitVec 32) :
    ((bpfCsumFold csum).toNat + csum.toNat) % 65535 = 0 := by
  rw [bpfCsumFold, BitVec.toNat_setWidth, BitVec.toNat_not, toNat_fold, toNat_fold]
  generalize hsum : csum.toNat % 65536 + csum.toNat / 65536 = sum
  generalize hlast : sum % 65536 + sum / 65536 = last
  have hle : last ≤ 65535 := by omega
  have hnot : (2 ^ 32 - 1 - last) % 2 ^ 16 = 65535 - last := by omega
  omega

theorem csumAdd_mod (a b : BitVec 32) :
    (csumAdd a b).toNat % 65535 = (a.toNat + b.toNat) % 65535 := by
  simp only [csumAdd, BitVec.lt_def]
  split <;> simp only [BitVec.toNat_add, BitVec.toNat_ofNat] at * <;> omega

theorem csumReplace4_mod (sum old new : BitVec 16) :
    ((csumReplace4 sum (old.setWidth 32) (new.setWidth 32)).toNat + new.toNat) % 65535 =
      (sum.toNat + old.toNat) % 65535 := by
  have hsub := csumAdd_mod (~~~ sum.setWidth 32) (~~~ old.setWidth 32)
  rw [← csumSub] at hsub
  generalize hdiff : csumSub (~~~ sum.setWidth 32) (old.setWidth 32) = diff at hsub
  have hadd := csumAdd_mod diff (new.setWidth 32)
  have hfold := bpfCsumFold_mod (csumAdd diff (new.setWidth 32))
  rw [csumReplace4, hdiff]
  simp only [BitVec.toNat_not, BitVec.toNat_setWidth] at hadd hsub
  omega

/-! ## 2. Headers -/

structure Iphdr where
  version : Byte
  tos : Byte
  totLen : BitVec 16
  id : BitVec 16
  fragOff : BitVec 16
  ttl : Byte
  protocol : Byte
  check : BitVec 16
  saddr : BitVec 32
  daddr : BitVec 32

structure IcmpErrHdr where
  type : Byte
  code : Byte
  checksum : BitVec 16
  un : BitVec 32
  ip : Iphdr
  source : BitVec 16
  dst : BitVec 16

/-- A packet that is long enough for the headers; a shorter one is passed on as it is. -/
structure Skb where
  mark : BitVec 32
  vlanProto : BitVec 16
  ethertype : BitVec 16
  ip : Iphdr
  inside : IcmpErrHdr
  payload : List Byte

variable (order : ByteOrder)

def halves (v : BitVec 32) : Nat := (v.extractLsb' 0 16).toNat + (v.extractLsb' 16 16).toNat

/-- The sum of the words of a header. -/
def Iphdr.sum (ip : Iphdr) : Nat :=
  (raw16 order ip.version ip.tos).toNat + ip.totLen.toNat + ip.id.toNat + ip.fragOff.toNat +
    (raw16 order ip.ttl ip.protocol).toNat + ip.check.toNat + halves ip.saddr + halves ip.daddr

/-- The sum of the words of the ICMP message. -/
def Skb.icmpSum (skb : Skb) : Nat :=
  let icmp := skb.inside
  (raw16 order icmp.type icmp.code).toNat + icmp.checksum.toNat + halves icmp.un +
    icmp.ip.sum order + icmp.source.toNat + icmp.dst.toNat + wordSum order skb.payload

/-- What a receiver checks of the sum of all words, the checksum among them. -/
def Valid (sum : Nat) : Prop := foldCarries sum = 0xffff

theorem Iphdr.sum_pos {ip : Iphdr} (h : 0 < ip.protocol.toNat) : 0 < ip.sum order := by
  have hle : ip.protocol.toNat ≤ (raw16 order ip.ttl ip.protocol).toNat := by
    cases order with
    | little =>
      rw [raw16, BitVec.toNat_append, Nat.shiftLeft_eq]
      exact (Nat.le_mul_of_pos_right _ (by decide)).trans Nat.left_le_or
    | big =>
      rw [raw16, BitVec.toNat_append]
      exact Nat.right_le_or
  unfold Iphdr.sum
  omega

/-! ## 3. Translation -/

structure ConnKey where
  sip : BitVec 32
  dip : BitVec 32
  vip : BitVec 32
  sport : BitVec 16
  dport : BitVec 16
  vport : BitVec 16
  proto : Byte

structure ConnValue where
  sip : BitVec 32
  dip : BitVec 32
  sport : BitVec 16
  dport : BitVec 16

def ethPIp : BitVec 16 := 0x0800

/-- `ICMP_DEST_UNREACH`, `ICMP_SOURCE_QUENCH` and `ICMP_TIME_EXCEEDED`. -/
def icmpErrors : List Byte := [3, 4, 11]

inductive TcAct where
  | ok
  | shot

section
variable (csumDiff : Iphdr → BitVec 32) (conntrack : ConnKey → Option ConnValue)

/-- A header with the checksum that is computed by `bpf_csum_diff`. -/
def Iphdr.checked (ip : Iphdr) : Iphdr :=
  { ip with check := bpfCsumFold (csumDiff { ip with check := 0#16 }) }

def nfNatIcmpReplyTranslation (skb : Skb) (egress : Bool) : Skb :=
  if skb.ethertype ≠ ethPIp ∨ skb.ip.protocol ≠ ipprotoIcmp ∨ skb.inside.type ∉ icmpErrors then
    skb
  else
    let inside := skb.inside
    -- An error goes the other way than the packet that it quotes.
    let key : ConnKey :=
      { sip := inside.ip.daddr, dip := inside.ip.saddr, sport := inside.dst
        dport := inside.source, proto := inside.ip.protocol
        vip := if egress then skb.mark else 0, vport := if egress then skb.vlanProto else 0 }
    let skb := if egress then { skb with mark := 0 } else skb
    if key.proto ≠ ipprotoTcp ∧ key.proto ≠ ipprotoUdp then skb
    else
      match conntrack key with
      | none => skb
      | some value =>
        let (quoting, old, new) :=
          if egress then
            ({ inside with ip.daddr := value.sip, dst := value.sport }, inside.dst, value.sport)
          else
            ({ inside with ip.saddr := value.dip, source := value.dport }, inside.source,
              value.dport)
        { skb with
          ip := Iphdr.checked csumDiff
            (if egress then { skb.ip with saddr := value.sip }
            else { skb.ip with daddr := value.dip })
          inside :=
            { quoting with
              ip := Iphdr.checked csumDiff quoting.ip
              checksum := csumReplace4 inside.checksum (old.setWidth 32) (new.setWidth 32) } }

/-- The helpers that change and read packets of TCP and UDP, at an offset in the packet; those
    that can fail return an option. -/
structure Helpers where
  l4LoadPort : Skb → Nat → Option (BitVec 16)
  skbStoreBytes : Skb → Nat → BitVec 32 → Option Skb
  csumDiff4 : BitVec 32 → BitVec 32 → BitVec 32 → BitVec 32
  l3CsumReplace : Skb → Nat → BitVec 32 → Option Skb
  csumOffset : Byte → Nat
  csumL4Replace : Skb → Nat → Nat → BitVec 32 → Option Skb
  l4ModifyPort : Skb → Nat → Nat → Nat → BitVec 16 → BitVec 16 → Option Skb

variable (helpers : Helpers)

def tcpSportOff : Nat := 0
def tcpDportOff : Nat := 2

/-- The destination and the source port.  Of TCP, the flags are read too. -/
def extractL4Info (skb : Skb) (l4proto : Byte) (l4Off : Nat) : Option (BitVec 16 × BitVec 16) := do
  if l4proto = ipprotoTcp then
    let _ ← helpers.l4LoadPort skb (l4Off + 12)
  let dport ← helpers.l4LoadPort skb (l4Off + tcpDportOff)
  let sport ← helpers.l4LoadPort skb (l4Off + tcpSportOff)
  return (dport, sport)

/-- An address at an offset, with the change of the checksum. -/
def storeAddr (skb : Skb) (off : Nat) (new old sum : BitVec 32) : Option (Skb × BitVec 32) :=
  if new = old then some (skb, sum)
  else (helpers.skbStoreBytes skb off new).map fun skb => (skb, helpers.csumDiff4 old new sum)

def storePort (skb : Skb) (l4Off off csumOff : Nat) (new old : BitVec 16) : Option Skb :=
  if new = old then some skb else helpers.l4ModifyPort skb l4Off off csumOff new old

def nfNatManipPkt (skb : Skb) (new old : ConnValue) (l4proto : Byte) (l3Off l4Off : Nat) :
    Option Skb := do
  guard (l4proto = ipprotoUdp ∨ l4proto = ipprotoTcp)
  let csumOff := helpers.csumOffset l4proto
  let (skb, sum) ← storeAddr helpers skb (l3Off + 16) new.dip old.dip 0
  let (skb, sum) ← storeAddr helpers skb (l3Off + 12) new.sip old.sip sum
  let skb ← helpers.l3CsumReplace skb (l3Off + 10) sum
  let skb ← if csumOff ≠ 0 then helpers.csumL4Replace skb l4Off csumOff sum else some skb
  let skb ← storePort helpers skb l4Off tcpDportOff csumOff new.dport old.dport
  storePort helpers skb l4Off tcpSportOff csumOff new.sport old.sport

/-- What `nf_nat_ipv4_fn` does with a packet of TCP or UDP.  What is left of a packet that is
    dropped does not matter. -/
def natTransport (skb : Skb) (egress : Bool) : Skb × TcAct :=
  let l4proto := skb.ip.protocol
  let l4Off := 14 + (skb.ip.version.toNat % 16) * 4
  match extractL4Info helpers skb l4proto l4Off with
  | none => (skb, .shot)
  | some (dport, sport) =>
    let key : ConnKey :=
      { sip := skb.ip.saddr, dip := skb.ip.daddr, sport, dport, proto := l4proto
        vip := if egress then skb.mark else 0, vport := if egress then skb.vlanProto else 0 }
    let skb := if egress then { skb with mark := 0 } else skb
    match conntrack key with
    | none => (skb, .ok)
    | some value =>
      let old : ConnValue := ⟨key.sip, key.dip, key.sport, key.dport⟩
      let new : ConnValue :=
        if egress then { old with sip := value.sip, sport := value.sport }
        else { old with dip := value.dip, dport := value.dport }
      match nfNatManipPkt helpers skb new old l4proto 14 l4Off with
      | none => (skb, .shot)
      | some skb => (skb, .ok)

def nfNatIpv4Fn (skb : Skb) (egress : Bool) : Skb × TcAct :=
  if skb.ethertype ≠ ethPIp then (skb, .ok)
  else if skb.ip.protocol ∉ [ipprotoTcp, ipprotoUdp, ipprotoIcmp] then (skb, .ok)
  else if skb.ip.protocol = ipprotoIcmp then
    (nfNatIcmpReplyTranslation csumDiff conntrack skb egress, .ok)
  else natTransport conntrack helpers skb egress

def tcIngress (skb : Skb) : Skb × TcAct := nfNatIpv4Fn csumDiff conntrack helpers skb false

end

/-- `bpf_csum_diff` gives the one's complement sum of a header. -/
def SumsUp (csumDiff : Iphdr → BitVec 32) : Prop :=
  ∀ ip, (csumDiff ip).toNat % 65535 = ip.sum order % 65535

theorem checked_mod {csumDiff : Iphdr → BitVec 32} (hdiff : SumsUp order csumDiff) (ip : Iphdr) :
    (ip.checked csumDiff).sum order % 65535 = 0 := by
  have hfold := bpfCsumFold_mod (csumDiff { ip with check := 0#16 })
  have hsum := hdiff { ip with check := 0#16 }
  simp only [Iphdr.sum, Iphdr.checked, BitVec.toNat_ofNat] at hsum ⊢
  omega

/-- **Errors are translated like the packets they quote.**  The quoted packet left from `lip`
    and `lport`, and the entry for replies to it leads back to `cip` and `cport`.  The error
    goes to `cip` and quotes a packet from there; apart from checksums nothing else changes,
    and checksums that were right still are. -/
theorem tcIngress_icmpError (csumDiff : Iphdr → BitVec 32)
    (conntrack : ConnKey → Option ConnValue) (helpers : Helpers) (skb : Skb)
    (cip lip : BitVec 32) (cport lport : BitVec 16) (value : ConnValue)
    (hdiff : SumsUp order csumDiff) (hip : skb.ethertype = ethPIp)
    (hicmp : skb.ip.protocol = ipprotoIcmp) (htype : skb.inside.type ∈ icmpErrors)
    (hproto : skb.inside.ip.protocol = ipprotoTcp ∨ skb.inside.ip.protocol = ipprotoUdp)
    (hquoted : skb.inside.ip.saddr = lip ∧ skb.inside.source = lport)
    (hreply : conntrack ⟨skb.inside.ip.daddr, lip, 0, skb.inside.dst, lport, 0,
      skb.inside.ip.protocol⟩ = some value) (hvalue : value.dip = cip ∧ value.dport = cport) :
    ∃ r, tcIngress csumDiff conntrack helpers skb = (r, .ok) ∧
      r = { skb with
        ip := { skb.ip with daddr := cip, check := r.ip.check }
        inside :=
          { skb.inside with
            ip := { skb.inside.ip with saddr := cip, check := r.inside.ip.check }
            source := cport
            checksum := r.inside.checksum } } ∧
      (Valid (skb.ip.sum order) → Valid (skb.inside.ip.sum order) → Valid (skb.icmpSum order) →
        Valid (r.ip.sum order) ∧ Valid (r.inside.ip.sum order) ∧ Valid (r.icmpSum order)) := by
  obtain ⟨rfl, rfl⟩ := hquoted
  obtain ⟨rfl, rfl⟩ := hvalue
  have hpass : ¬ (skb.ethertype ≠ ethPIp ∨ skb.ip.protocol ≠ ipprotoIcmp ∨
      skb.inside.type ∉ icmpErrors) := by
    simp [hip, hicmp, htype]
  have htransport : ¬ (skb.inside.ip.protocol ≠ ipprotoTcp ∧
      skb.inside.ip.protocol ≠ ipprotoUdp) := by
    simpa [or_iff_not_imp_left] using hproto
  refine ⟨{ skb with
    ip := Iphdr.checked csumDiff { skb.ip with daddr := value.dip }
    inside :=
      { skb.inside with
        ip := Iphdr.checked csumDiff { skb.inside.ip with saddr := value.dip }
        source := value.dport
        checksum := csumReplace4 skb.inside.checksum (skb.inside.source.setWidth 32)
          (value.dport.setWidth 32) } }, ?_, rfl, fun _ hinner hmessage => ?_⟩
  · rw [tcIngress, nfNatIpv4Fn, if_neg (not_not.mpr hip), if_neg (by simp [hicmp]),
      if_pos hicmp, nfNatIcmpReplyTranslation, if_neg hpass]
    simp only [Bool.false_eq_true, if_false, if_neg htransport, hreply]
  · have hprotocol : 0 < skb.inside.ip.protocol.toNat := by
      rcases hproto with h | h <;> rw [h] <;> decide
    have houter := checked_mod order hdiff { skb.ip with daddr := value.dip }
    have hquoted := checked_mod order hdiff { skb.inside.ip with saddr := value.dip }
    have hport := csumReplace4_mod skb.inside.checksum skb.inside.source value.dport
    have hpos := @Iphdr.sum_pos order
      (Iphdr.checked csumDiff { skb.inside.ip with saddr := value.dip }) hprotocol
    have hzero := Lib.foldCarries_mod (skb.inside.ip.sum order)
    have hsum := Lib.foldCarries_mod (skb.icmpSum order)
    rw [Valid] at hinner hmessage
    rw [hinner] at hzero
    rw [hmessage, Skb.icmpSum] at hsum
    refine ⟨Lib.foldCarries_eq_ones (Iphdr.sum_pos order ?_) houter,
      Lib.foldCarries_eq_ones hpos hquoted, Lib.foldCarries_eq_ones ?_ ?_⟩
    · show 0 < skb.ip.protocol.toNat
      rw [hicmp]
      decide
    all_goals
      dsimp only [Skb.icmpSum] at hpos hquoted ⊢
      omega

/-- An unreachable host, reported to a little-endian machine about a UDP packet that left from
    port 5000 of 10.0.0.1. -/
def unreachable : Skb where
  mark := 0
  vlanProto := 0
  ethertype := ethPIp
  ip := ⟨0x45, 0, 0x3800, 0x3412, 0, 64, ipprotoIcmp, 0x9353, 0xfe00000a, 0x0100000a⟩
  inside :=
    { type := 3, code := 1, checksum := 0x4a2a, un := 0, source := 0x8813, dst := 0x3500
      ip := ⟨0x45, 0, 0x1c00, 0x7856, 0x40, 63, ipprotoUdp, 0x48cb, 0x0100000a, 0x08080808⟩ }
  payload := [0x00, 0x08, 0xbe, 0xef]

def noHelpers : Helpers :=
  ⟨fun _ _ => none, fun _ _ _ => none, fun _ _ sum => sum, fun _ _ _ => none, fun _ => 0,
    fun _ _ _ _ => none, fun _ _ _ _ _ _ => none⟩

theorem tcIngress_unreachable :
    ∃ r, tcIngress (fun ip => BitVec.ofNat 32 (ip.sum .little % 65535))
        (fun _ => some ⟨0x0100000a, 0x0200000a, 0x8813, 0xa00f⟩) noHelpers unreachable = (r, .ok) ∧
      r.ip.daddr = 0x0200000a ∧ r.inside.ip.saddr = 0x0200000a ∧ r.inside.source = 0xa00f ∧
      Valid (r.ip.sum .little) ∧ Valid (r.inside.ip.sum .little) ∧ Valid (r.icmpSum .little) := by
  obtain ⟨r, hr, heq, hvalid⟩ := tcIngress_icmpError .little
    (fun ip => BitVec.ofNat 32 (ip.sum .little % 65535))
    (fun _ => some ⟨0x0100000a, 0x0200000a, 0x8813, 0xa00f⟩) noHelpers unreachable
    0x0200000a 0x0100000a 0xa00f 0x8813 _ (fun ip => by rw [BitVec.toNat_ofNat]; omega) rfl rfl
    (by decide) (.inr rfl) ⟨rfl, rfl⟩ rfl ⟨rfl, rfl⟩
  have hok : ∀ sum, 0 < sum ∧ sum % 65535 = 0 → Valid sum :=
    fun _ h => Lib.foldCarries_eq_ones h.1 h.2
  refine ⟨r, hr, by rw [heq], by rw [heq], by rw [heq], hvalid ?_ ?_ ?_⟩
  · exact hok _ (by decide)
  · exact hok _ (by decide)
  · exact hok _ (by decide)

end Ovsgw.Snat
