/-
  **The protocol trackers of the connection tracker**: TCP (`lib/conntrack-tcp.c`), ICMP
  (`lib/conntrack-icmp.c`) and everything else (`lib/conntrack-other.c`).

  A tracker takes the state of a connection and a packet in one of the two directions, and
  says what the packet is to the connection.  It also says which timeout the connection gets
  from then on, if the packet changes that.  A TCP packet that is invalid leaves the connection
  as it was, with one exception.
-/
import Mathlib.Data.BitVec

namespace Ovsgw.Conntrack

open BitVec (ofNat)

inductive UpdateRes where
  | invalid | valid | new | validNew
deriving DecidableEq

inductive Timeout where
  | tcpFirstPacket | tcpOpening | tcpEstablished | tcpClosing | tcpFinWait | tcpClosed
  | otherFirst | otherMultiple | otherBidir
  | icmpFirst | icmpReply
deriving DecidableEq

/-! ## 1. TCP -/

structure TcpFlags where
  fin : Bool := false
  syn : Bool := false
  rst : Bool := false
  psh : Bool := false
  ack : Bool := false
  urg : Bool := false
deriving DecidableEq

/-- `struct tcp_header` with its options, and the length of the payload. -/
structure TcpHeader where
  flags : TcpFlags
  seq : BitVec 32 := 0
  ack : BitVec 32 := 0
  winsz : BitVec 16 := 0
  options : List (BitVec 8) := []
  payloadLength : BitVec 32 := 0
deriving DecidableEq

inductive TcpState where
  | closed | listen | synSent | synRecv | established | closeWait | finWait1 | closing | lastAck
  | finWait2 | timeWait
deriving DecidableEq

def TcpState.rank : TcpState → Nat
  | .closed => 0
  | .listen => 1
  | .synSent => 2
  | .synRecv => 3
  | .established => 4
  | .closeWait => 5
  | .finWait1 => 6
  | .closing => 7
  | .lastAck => 8
  | .finWait2 => 9
  | .timeWait => 10

instance : LT TcpState where
  lt a b := a.rank < b.rank

instance : LE TcpState where
  le a b := a.rank ≤ b.rank

instance (a b : TcpState) : Decidable (a < b) := inferInstanceAs (Decidable (a.rank < b.rank))

instance (a b : TcpState) : Decidable (a ≤ b) := inferInstanceAs (Decidable (a.rank ≤ b.rank))

structure TcpPeer where
  seqlo : BitVec 32 := 0
  seqhi : BitVec 32 := 0
  maxWin : BitVec 16 := 0
  wscale : BitVec 8 := 0
  state : TcpState := .closed
deriving DecidableEq

def tcpInvalidFlags (flags : TcpFlags) : Bool :=
  if flags.syn && (flags.rst || flags.fin) then true
  else if !flags.syn && !(flags.ack || flags.rst) then true
  else !flags.ack && (flags.fin || flags.psh || flags.urg)

def tcpMaxWscale : Nat := 14

def ctWscaleFlag : BitVec 8 := 0x80

def ctWscaleUnknown : BitVec 8 := 0x40

def ctWscaleMask : BitVec 8 := 0xf

def wscaleLoop : Nat → List (BitVec 8) → BitVec 8 → BitVec 8
  | fuel + 1, kind :: optlen :: third :: options, wscale =>
    if kind = 0 then wscale
    else if kind = 1 then wscaleLoop fuel (optlen :: third :: options) wscale
    else
      let wscale :=
        if kind = 3 then ofNat 8 (min third.toNat tcpMaxWscale) ||| ctWscaleFlag
        else wscale
      wscaleLoop fuel ((kind :: optlen :: third :: options).drop (max optlen.toNat 2)) wscale
  | _, _, wscale => wscale

def tcpGetWscale (tcp : TcpHeader) : BitVec 8 :=
  wscaleLoop tcp.options.length tcp.options 0

def seqGeq (a b : BitVec 32) : Bool := (a - b).toInt ≥ 0

def seqGt (a b : BitVec 32) : Bool := (a - b).toInt > 0

/-- `x & CT_WSCALE_MASK`. -/
def scaleOf (wscale : BitVec 8) : Nat := (wscale &&& ctWscaleMask).toNat

def scaled (win : BitVec 16) (scale : Nat) : Nat := win.toNat * 2 ^ scale

def unscaled (win : BitVec 16) (scale : Nat) : BitVec 16 :=
  ofNat 16 ((win.toNat + 2 ^ scale - 1) / 2 ^ scale)

/-- The values that `tcp_conn_update` works with after it has looked at whether this is the
    first packet from its end. -/
structure Tracking where
  src : TcpPeer
  dst : TcpPeer
  sws : Nat
  dws : Nat
  win : BitVec 16
  checkAckskew : Bool

def TcpHeader.segEnd (tcp : TcpHeader) : BitVec 32 :=
  tcp.seq + tcp.payloadLength + (if tcp.flags.syn then 1 else 0) +
    (if tcp.flags.fin then 1 else 0)

def scales (src dst : TcpPeer) (syn : Bool) : Nat × Nat :=
  if src.wscale &&& ctWscaleFlag ≠ 0 ∧ dst.wscale &&& ctWscaleFlag ≠ 0 ∧ !syn then
    (scaleOf src.wscale, scaleOf dst.wscale)
  else if src.wscale &&& ctWscaleUnknown ≠ 0 ∧ dst.wscale &&& ctWscaleUnknown ≠ 0 ∧ !syn then
    (tcpMaxWscale, tcpMaxWscale)
  else (0, 0)

/-- The window scale of an end is in its first packet. -/
def firstScale (t : Tracking) (tcp : TcpHeader) : Tracking :=
  if tcp.flags.syn ∧ t.dst.wscale &&& ctWscaleFlag ≠ 0 then
    let wscale := tcpGetWscale tcp
    if wscale &&& ctWscaleFlag ≠ 0 then
      { t with
        src := { t.src with wscale }
        sws := scaleOf wscale
        win := unscaled t.win (scaleOf wscale)
        dws := scaleOf t.dst.wscale }
    else
      { t with
        src := { t.src with wscale }
        dst := { t.dst with
          maxWin := ofNat 16 (scaled t.dst.maxWin (scaleOf t.dst.wscale)), wscale := 0 } }
  else t

def firstPacket (t : Tracking) (tcp : TcpHeader) : Tracking :=
  let t := firstScale t tcp
  let src := { t.src with seqlo := tcp.seq, state := .synSent }
  let seqhi := tcp.segEnd + ofNat 32 (max 1 (scaled t.dst.maxWin t.dws))
  let slide : Bool := src.seqhi = 1 || seqGeq seqhi src.seqhi
  let src := if slide then { src with seqhi } else src
  { t with
    src := if t.win > src.maxWin then { src with maxWin := t.win } else src
    checkAckskew := !slide }

def maxAckWindow : Nat := 0xffff + 1500

/-- The updates of the windows that both ways of accepting a packet make. -/
def slideWindows (t : Tracking) (ack segEnd : BitVec 32) : Tracking :=
  let src := if t.src.maxWin < t.win then { t.src with maxWin := t.win } else t.src
  let src := if seqGt segEnd src.seqlo then { src with seqlo := segEnd } else src
  let dst :=
    if seqGeq (ack + ofNat 32 (scaled t.win t.sws)) t.dst.seqhi then
      { t.dst with seqhi := ack + ofNat 32 (max (scaled t.win t.sws) 1) }
    else t.dst
  { t with src, dst }

/-- The updates of the states after a packet that is in the window. -/
def nextStates (src dst : TcpState) (flags : TcpFlags) : TcpState × TcpState :=
  let src := if flags.syn ∧ src < .synSent then .synSent else src
  let src := if flags.fin ∧ src < .closing then .closing else src
  let dst :=
    if flags.ack then
      if dst = .synSent then .established else if dst = .closing then .finWait2 else dst
    else dst
  if flags.rst then (.timeWait, .timeWait) else (src, dst)

def tcpTimeout (src dst : TcpState) : Timeout :=
  if src ≥ .finWait2 ∧ dst ≥ .finWait2 then .tcpClosed
  else if src ≥ .closing ∧ dst ≥ .closing then .tcpFinWait
  else if src < .established ∨ dst < .established then .tcpOpening
  else if src ≥ .closing ∨ dst ≥ .closing then .tcpClosing
  else .tcpEstablished

/-- What a tracker makes of a packet: the ends, the result and the timeout. -/
structure TcpOutcome where
  src : TcpPeer
  dst : TcpPeer
  res : UpdateRes
  timeout : Option Timeout := none

/-- The values after the part about the first packet of an end. -/
def trackingOf (src dst : TcpPeer) (tcp : TcpHeader) : Tracking :=
  let (sws, dws) := scales src dst tcp.flags.syn
  let t : Tracking := { src, dst, sws, dws, win := tcp.winsz, checkAckskew := true }
  if src.state < .synSent then firstPacket t tcp else t

def Tracking.ack (t : Tracking) (tcp : TcpHeader) : BitVec 32 :=
  if !tcp.flags.ack || (tcp.ack = 0 && tcp.flags.rst) then t.dst.seqlo else tcp.ack

/-- The sequence numbers that are checked.  The restrictions are eased for packets without data. -/
def Tracking.range (t : Tracking) (tcp : TcpHeader) : BitVec 32 × BitVec 32 :=
  if tcp.seq = tcp.segEnd then (t.src.seqlo, t.src.seqlo) else (tcp.seq, tcp.segEnd)

def Tracking.inWindow (t : Tracking) (tcp : TcpHeader) : Bool :=
  let (seq, segEnd) := t.range tcp
  let ackskew : Int := if t.checkAckskew then (t.dst.seqlo - t.ack tcp).toInt else 0
  seqGeq t.src.seqhi segEnd &&
    seqGeq seq (t.src.seqlo - ofNat 32 (scaled t.dst.maxWin t.dws)) &&
    ackskew ≥ -(maxAckWindow : Int) && ackskew ≤ (maxAckWindow * 2 ^ t.sws : Nat) &&
    (!tcp.flags.rst || tcp.seq = t.src.seqlo || tcp.seq = t.src.seqlo + 1 ||
      tcp.seq + 1 = t.src.seqlo)

/-- The packet is near the window, before the other end has sent anything or after the
    connection was closed. -/
def Tracking.nearWindow (t : Tracking) (tcp : TcpHeader) : Bool :=
  let (seq, segEnd) := t.range tcp
  (t.dst.state < .synSent || t.dst.state ≥ .finWait2 || t.src.state ≥ .finWait2) &&
    seqGeq (t.src.seqhi + ofNat 32 maxAckWindow) segEnd &&
    seqGeq seq (t.src.seqlo - ofNat 32 maxAckWindow)

/-- The last part of `tcp_conn_update`.  `seqChk` says whether sequence numbers are checked. -/
def tcpAccept (seqChk : Bool) (t : Tracking) (tcp : TcpHeader) : TcpOutcome :=
  let slid := slideWindows t (t.ack tcp) (t.range tcp).2
  if t.inWindow tcp || !seqChk then
    let (srcState, dstState) := nextStates t.src.state t.dst.state tcp.flags
    { src := { slid.src with state := srcState }
      dst := { slid.dst with state := dstState }
      res := .valid
      timeout := some (tcpTimeout srcState dstState) }
  else if t.nearWindow tcp then
    let srcState :=
      if tcp.flags.fin ∧ t.src.state < .closing then .closing else t.src.state
    { src := { slid.src with state := if tcp.flags.rst then .timeWait else srcState }
      dst := { slid.dst with state := if tcp.flags.rst then .timeWait else t.dst.state }
      res := .valid }
  else { src := t.src, dst := t.dst, res := .invalid }

/-- `tcp_conn_update`, from the end that sent the packet and the other one. -/
def tcpConnUpdate (seqChk : Bool) (src dst : TcpPeer) (tcp : TcpHeader) : TcpOutcome :=
  let onlySyn := tcp.flags.syn && !tcp.flags.ack
  if tcpInvalidFlags tcp.flags then { src, dst, res := .invalid }
  else if onlySyn ∧ dst.state ≥ .finWait2 ∧ src.state ≥ .finWait2 then
    { src := { src with state := .closed }, dst := { dst with state := .closed }, res := .new }
  else if onlySyn ∧ src.state ≤ .synSent then
    { src := { src with state := .synSent }, dst, res := .validNew
      timeout := some .tcpFirstPacket }
  else tcpAccept seqChk (trackingOf src dst tcp) tcp

def tcpValidNew (tcp : TcpHeader) : Bool :=
  !tcpInvalidFlags tcp.flags && !(tcp.flags.syn && tcp.flags.ack)

def tcpNewConn (tcp : TcpHeader) : TcpPeer × TcpPeer :=
  let wscale := if tcp.flags.syn then tcpGetWscale tcp else ctWscaleUnknown
  let maxWin : BitVec 16 := if tcp.winsz = 0 then 1 else tcp.winsz
  ({ seqlo := tcp.seq
     seqhi := tcp.seq + tcp.payloadLength + 1 + (if tcp.flags.syn then 1 else 0) +
       (if tcp.flags.fin then 1 else 0)
     wscale
     maxWin := if wscale &&& ctWscaleMask ≠ 0 then unscaled maxWin (scaleOf wscale) else maxWin
     state := .synSent },
    { seqhi := 1
      maxWin := 1
      wscale := if tcp.flags.syn then 0 else ctWscaleUnknown
      state := .closed })

/-! ## 2. ICMP and other protocols -/

inductive IcmpState where
  | first | reply
deriving DecidableEq

def icmpConnUpdate (state : IcmpState) (reply : Bool) : IcmpState × UpdateRes × Timeout :=
  let state := if reply && state = .first then .reply else state
  (state, .valid, match state with
    | .first => .icmpFirst
    | .reply => .icmpReply)

inductive OtherState where
  | first | multiple | bidir
deriving DecidableEq

def otherTimeout : OtherState → Timeout
  | .first => .otherFirst
  | .multiple => .otherMultiple
  | .bidir => .otherBidir

def otherConnUpdate (state : OtherState) (reply : Bool) : OtherState × UpdateRes × Timeout :=
  if reply && state ≠ .bidir then (.bidir, .valid, otherTimeout .bidir)
  else if state = .first then (.multiple, .validNew, otherTimeout .multiple)
  else (state, .valid, otherTimeout state)

/-! ## 3. All protocols -/

/-- The protocols that have a tracker of their own, `l4_protos`. -/
inductive Proto where
  | tcp | icmp4 | icmp6 | other
deriving DecidableEq

inductive Tracker where
  | tcp (orig reply : TcpPeer)
  | icmp (state : IcmpState)
  | other (state : OtherState)
deriving DecidableEq

structure L4 where
  tcp : TcpHeader := { flags := {} }
  icmpType : BitVec 8 := 0
deriving DecidableEq

def connUpdate (seqChk : Bool) (tracker : Tracker) (l4 : L4) (reply : Bool) :
    Tracker × UpdateRes × Option Timeout :=
  match tracker with
  | .tcp orig rpl =>
    if reply then
      let out := tcpConnUpdate seqChk rpl orig l4.tcp
      (.tcp out.dst out.src, out.res, out.timeout)
    else
      let out := tcpConnUpdate seqChk orig rpl l4.tcp
      (.tcp out.src out.dst, out.res, out.timeout)
  | .icmp state =>
    let (state, res, timeout) := icmpConnUpdate state reply
    (.icmp state, res, some timeout)
  | .other state =>
    let (state, res, timeout) := otherConnUpdate state reply
    (.other state, res, some timeout)

def validNew (proto : Proto) (l4 : L4) : Bool :=
  match proto with
  | .tcp => tcpValidNew l4.tcp
  -- An echo request, an information request or a timestamp.
  | .icmp4 => l4.icmpType = 8 || l4.icmpType = 15 || l4.icmpType = 13
  | .icmp6 => l4.icmpType = 128
  | .other => true

def newConn (proto : Proto) (l4 : L4) : Tracker × Timeout :=
  match proto with
  | .tcp => (.tcp (tcpNewConn l4.tcp).1 (tcpNewConn l4.tcp).2, .tcpFirstPacket)
  | .icmp4 | .icmp6 => (.icmp .first, .icmpFirst)
  | .other => (.other .first, .otherFirst)

/-! ## 4. Packets that are not valid -/

section
variable {seqChk : Bool} {src dst : TcpPeer} {tcp : TcpHeader} {t : Tracking} {b : BitVec 32}

/-- An invalid packet has invalid flags or is outside the window, and in the second case the
    part about the first packet of an end stays done. -/
theorem tcpConnUpdate_invalid_cases {out : TcpOutcome}
    (hout : tcpConnUpdate seqChk src dst tcp = out) (h : out.res = .invalid) :
    out.src = src ∧ out.dst = dst ∨
      tcpInvalidFlags tcp.flags = false ∧
        ¬ ((tcp.flags.syn && !tcp.flags.ack) = true ∧ src.state ≤ .synSent) ∧ seqChk = true ∧
        (trackingOf src dst tcp).inWindow tcp = false ∧
        (trackingOf src dst tcp).nearWindow tcp = false ∧
        out.src = (trackingOf src dst tcp).src ∧ out.dst = (trackingOf src dst tcp).dst := by
  unfold tcpConnUpdate tcpAccept at hout
  dsimp only at hout
  split at hout
  · subst hout
    exact .inl ⟨rfl, rfl⟩
  next hflags =>
    split at hout
    · subst hout
      cases h
    split at hout
    · subst hout
      cases h
    next hsyn =>
      split at hout
      · subst hout
        cases h
      next hwindow =>
        rw [Bool.or_eq_true, not_or, Bool.not_eq_true, Bool.not_eq_true, Bool.not_eq_false']
          at hwindow
        split at hout
        · subst hout
          cases h
        next hnear =>
          subst hout
          exact .inr ⟨Bool.not_eq_true _ ▸ hflags, hsyn, hwindow.2, hwindow.1,
            Bool.not_eq_true _ ▸ hnear, rfl, rfl⟩

theorem scaleOf_le {wscale : BitVec 8} : scaleOf wscale ≤ 15 :=
  Nat.and_le_right

/-- The window that the other end leaves to the first packet of an end. -/
def firstWindow (src dst : TcpPeer) (tcp : TcpHeader) : Nat :=
  if !tcp.flags.syn then scaled dst.maxWin (scales src dst false).2
  else if dst.wscale &&& ctWscaleFlag = 0 then dst.maxWin.toNat
  else if tcpGetWscale tcp &&& ctWscaleFlag ≠ 0 then scaled dst.maxWin (scaleOf dst.wscale)
  else scaled dst.maxWin (scaleOf dst.wscale) % 2 ^ 16

/-- The scale of the windows of an end that sends its first packet. -/
def ownScale (src dst : TcpPeer) (tcp : TcpHeader) : Nat :=
  if !tcp.flags.syn then (scales src dst false).1
  else if dst.wscale &&& ctWscaleFlag ≠ 0 ∧ tcpGetWscale tcp &&& ctWscaleFlag ≠ 0 then
    scaleOf (tcpGetWscale tcp)
  else 0

/-- The first packet of an end slides its window. -/
def slides (src dst : TcpPeer) (tcp : TcpHeader) : Bool :=
  src.seqhi = 1 ||
    seqGeq (tcp.segEnd + ofNat 32 (max 1 (firstWindow src dst tcp))) src.seqhi

/-- How far the packet acknowledges behind what the other end has sent. -/
def skew (dst : TcpPeer) (tcp : TcpHeader) : Int :=
  if !tcp.flags.ack || (tcp.ack = 0 && tcp.flags.rst) then 0 else (dst.seqlo - tcp.ack).toInt

/-- What the part about the first packet of an end leaves for the checks. -/
structure Tracking.First (t : Tracking) (src dst : TcpPeer) (tcp : TcpHeader) : Prop where
  state : t.src.state = .synSent
  seqlo : t.src.seqlo = tcp.seq
  seqhi : t.src.seqhi =
    if slides src dst tcp then tcp.segEnd + ofNat 32 (max 1 (firstWindow src dst tcp))
    else src.seqhi
  dstSeqlo : t.dst.seqlo = dst.seqlo
  dstState : t.dst.state = dst.state
  window : scaled t.dst.maxWin t.dws = firstWindow src dst tcp
  sws : t.sws = ownScale src dst tcp
  checkAckskew : t.checkAckskew = !slides src dst tcp

theorem scales_syn : scales src dst true = (0, 0) := by
  simp [scales]

theorem firstScale_eq (t : Tracking) (hsrc : t.src = src) (hdst : t.dst = dst)
    (hscales : (t.sws, t.dws) = scales src dst tcp.flags.syn) :
    (firstScale t tcp).src.seqhi = src.seqhi ∧ (firstScale t tcp).dst.seqlo = dst.seqlo ∧
      (firstScale t tcp).dst.state = dst.state ∧
      scaled (firstScale t tcp).dst.maxWin (firstScale t tcp).dws = firstWindow src dst tcp ∧
      (firstScale t tcp).sws = ownScale src dst tcp := by
  subst hsrc hdst
  unfold firstScale firstWindow ownScale
  cases hsyn : tcp.flags.syn with
  | false =>
    rw [hsyn] at hscales
    simp [← hscales]
  | true =>
    rw [hsyn, scales_syn] at hscales
    obtain ⟨hsws, hdws⟩ := Prod.mk.inj hscales
    by_cases hflag : t.dst.wscale &&& ctWscaleFlag = 0#8
    · simp [hflag, hsws, hdws, scaled]
    · by_cases hown : tcpGetWscale tcp &&& ctWscaleFlag = 0#8
      · simp [hflag, hown, hsws, hdws, scaled]
      · simp [hflag, hown]

theorem trackingOf_first (hfirst : src.state < .synSent) :
    (trackingOf src dst tcp).First src dst tcp := by
  unfold trackingOf
  dsimp only
  rw [if_pos hfirst]
  obtain ⟨hseqhi, hseqlo, hstate, hwindow, hsws⟩ := @firstScale_eq _ _ tcp
    { src, dst, sws := (scales src dst tcp.flags.syn).1, dws := (scales src dst tcp.flags.syn).2,
      win := tcp.winsz, checkAckskew := true } rfl rfl rfl
  unfold firstPacket
  dsimp only
  rw [hwindow, hseqhi]
  have hslides : (decide (src.seqhi = 1) ||
      seqGeq (tcp.segEnd + ofNat 32 (max 1 (firstWindow src dst tcp))) src.seqhi) =
      slides src dst tcp := rfl
  rw [hslides]
  refine ⟨?_, ?_, ?_, hseqlo, hstate, hwindow, hsws, rfl⟩
  · split <;> split <;> rfl
  · split <;> split <;> rfl
  · split <;> split <;> rfl

theorem scaled_lt (win : BitVec 16) {scale : Nat} (h : scale ≤ 15) :
    scaled win scale < 2 ^ 31 :=
  calc win.toNat * 2 ^ scale ≤ 65535 * 2 ^ 15 :=
        Nat.mul_le_mul (by omega) (Nat.pow_le_pow_right (by decide) h)
    _ < 2 ^ 31 := by decide

/-- No window is half of the sequence numbers. -/
theorem firstWindow_lt : firstWindow src dst tcp < 2 ^ 31 := by
  unfold firstWindow
  split
  · refine scaled_lt _ ?_
    unfold scales
    split
    · exact scaleOf_le
    · split <;> decide
  · split
    · omega
    split
    · exact scaled_lt _ scaleOf_le
    · omega

theorem toInt_ofNat_nonneg {n : Nat} (h : n < 2 ^ 31) : (ofNat 32 n).toInt ≥ 0 := by
  simp only [BitVec.toInt_eq_toNat_cond, BitVec.toNat_ofNat]
  omega

theorem seqGeq_add (a : BitVec 32) (h : b.toInt ≥ 0) : seqGeq (a + b) a = true := by
  have hsub : a + b - a = b := by
    rw [BitVec.add_comm, BitVec.add_sub_cancel]
  unfold seqGeq
  rw [hsub]
  exact decide_eq_true h

theorem seqGeq_sub (a : BitVec 32) (h : b.toInt ≥ 0) : seqGeq a (a - b) = true := by
  have hadd := seqGeq_add (a - b) h
  rwa [BitVec.sub_add_cancel] at hadd

theorem Tracking.First.range (h : t.First src dst tcp) :
    t.range tcp = (tcp.seq, tcp.segEnd) := by
  unfold Tracking.range
  split
  next hempty => rw [h.seqlo, ← hempty]
  · rfl

theorem Tracking.First.ack (h : t.First src dst tcp) :
    (t.dst.seqlo - t.ack tcp).toInt = skew dst tcp := by
  unfold Tracking.ack skew
  rw [h.dstSeqlo]
  split
  · simp
  · rfl

/-- The first packet of an end is in the window if it slides the window. -/
theorem Tracking.First.inWindow (h : t.First src dst tcp) :
    t.inWindow tcp = (slides src dst tcp || (seqGeq src.seqhi tcp.segEnd &&
      decide (-(maxAckWindow : Int) ≤ skew dst tcp) &&
      decide (skew dst tcp ≤ (maxAckWindow * 2 ^ ownScale src dst tcp : Nat)))) := by
  have hone : max 1 (firstWindow src dst tcp) < 2 ^ 31 := Nat.max_lt.mpr ⟨by decide, firstWindow_lt⟩
  have hback := seqGeq_sub tcp.seq (toInt_ofNat_nonneg (@firstWindow_lt src dst tcp))
  unfold Tracking.inWindow
  rw [h.range, h.checkAckskew, h.seqhi, h.seqlo, h.window, h.sws]
  dsimp only
  cases hslides : slides src dst tcp with
  | true =>
    have hskew : (0 : Int) ≤ maxAckWindow * 2 ^ ownScale src dst tcp := by
      exact_mod_cast Nat.zero_le (maxAckWindow * 2 ^ ownScale src dst tcp)
    simp [seqGeq_add _ (toInt_ofNat_nonneg hone), hback, hskew]
  | false => simp [h.ack, hback]

theorem Tracking.First.nearWindow (h : t.First src dst tcp) (hslides : slides src dst tcp = false) :
    t.nearWindow tcp = (decide (dst.state < .synSent ∨ dst.state ≥ .finWait2) &&
      seqGeq (src.seqhi + ofNat 32 maxAckWindow) tcp.segEnd) := by
  have hback := seqGeq_sub tcp.seq (toInt_ofNat_nonneg (show maxAckWindow < 2 ^ 31 by decide))
  have hstate : ¬ (TcpState.synSent ≥ .finWait2) := by decide
  unfold Tracking.nearWindow
  rw [h.range, h.seqhi, h.seqlo, h.state, h.dstState, hslides]
  simp [hback, hstate]

/-- The first packet of an end is in no window: it does not slide its own, it ends after it or
    acknowledges too much or too little, and it is not let through near the window either. -/
structure Stray (src dst : TcpPeer) (tcp : TcpHeader) : Prop where
  first : src.state < .synSent
  flags : tcpInvalidFlags tcp.flags = false
  syn : tcp.flags.syn = true → tcp.flags.ack = true
  slides : slides src dst tcp = false
  window : seqGeq src.seqhi tcp.segEnd = true → skew dst tcp < -maxAckWindow ∨
    (maxAckWindow * 2 ^ ownScale src dst tcp : Nat) < skew dst tcp
  near : dst.state < .synSent ∨ dst.state ≥ .finWait2 →
    seqGeq (src.seqhi + ofNat 32 maxAckWindow) tcp.segEnd = false

theorem Stray.invalid (h : Stray src dst tcp) : tcpConnUpdate true src dst tcp =
    { src := (trackingOf src dst tcp).src, dst := (trackingOf src dst tcp).dst, res := .invalid } := by
  have hfirst : (trackingOf src dst tcp).First src dst tcp := trackingOf_first h.first
  have hsyn : (tcp.flags.syn && !tcp.flags.ack) = false := by
    cases hs : tcp.flags.syn with
    | false => rfl
    | true => rw [h.syn hs]; rfl
  have hwindow : (trackingOf src dst tcp).inWindow tcp = false := by
    rw [hfirst.inWindow, h.slides]
    cases hend : seqGeq src.seqhi tcp.segEnd with
    | false => rfl
    | true =>
      simp only [Bool.false_or, Bool.true_and, Bool.and_eq_false_iff, decide_eq_false_iff_not]
      exact (h.window hend).imp Int.not_le.mpr Int.not_le.mpr
  have hnear : (trackingOf src dst tcp).nearWindow tcp = false := by
    rw [hfirst.nearWindow h.slides]
    by_cases hstate : dst.state < .synSent ∨ dst.state ≥ .finWait2
    · rw [h.near hstate, Bool.and_false]
    · rw [decide_eq_false hstate, Bool.false_and]
  simp [tcpConnUpdate, tcpAccept, h.flags, hsyn, hwindow, hnear]

/-- An invalid packet leaves both ends as they were, unless it is the first one of its end and
    strays from all windows while sequence numbers are checked. -/
theorem tcpConnUpdate_invalid_unchanged (seqChk : Bool) (src dst : TcpPeer) (tcp : TcpHeader) :
    ((tcpConnUpdate seqChk src dst tcp).res = .invalid →
      (tcpConnUpdate seqChk src dst tcp).src = src ∧
        (tcpConnUpdate seqChk src dst tcp).dst = dst) ↔
      ¬ (seqChk = true ∧ Stray src dst tcp) := by
  constructor
  · rintro hsame ⟨rfl, hstray⟩
    rw [hstray.invalid] at hsame
    have hmoved : (trackingOf src dst tcp).src.state = src.state :=
      congrArg TcpPeer.state (hsame rfl).1
    rw [(trackingOf_first hstray.first).state] at hmoved
    exact absurd hstray.first (hmoved ▸ Nat.lt_irrefl _)
  · intro hno h
    obtain hsame | ⟨hflags, hsyn, hchk, hwindow, hnear, hsrc, hdst⟩ :=
      tcpConnUpdate_invalid_cases rfl h
    · exact hsame
    by_cases hfirst : src.state < .synSent
    · have ht : (trackingOf src dst tcp).First src dst tcp := trackingOf_first hfirst
      rw [ht.inWindow, Bool.or_eq_false_iff] at hwindow
      rw [ht.nearWindow hwindow.1] at hnear
      have hskew := hwindow.2
      simp only [Bool.and_eq_false_iff, decide_eq_false_iff_not, Int.not_le] at hskew
      refine (hno ⟨hchk, hfirst, hflags, fun hs => ?_, hwindow.1, fun hend => ?_,
        fun hstate => ?_⟩).elim
      · cases hack : tcp.flags.ack with
        | true => rfl
        | false => exact absurd ⟨by rw [hs, hack]; rfl, Nat.le_of_lt hfirst⟩ hsyn
      · rw [hend] at hskew
        rcases hskew with (h | h) | h
        · cases h
        · exact .inl h
        · exact .inr h
      · rw [decide_eq_true hstate, Bool.true_and] at hnear
        exact hnear
    · unfold trackingOf at hsrc hdst
      dsimp only at hsrc hdst
      rw [if_neg hfirst] at hsrc hdst
      exact ⟨hsrc, hdst⟩

/-- A packet with an acknowledgment and no data. -/
def ackOnly (seq ack : BitVec 32) : TcpHeader :=
  { flags := { ack := true }, seq, ack, winsz := 1000 }

/-- A connection that is picked up in the middle, after two packets of one end. -/
def pickedUp : TcpOutcome :=
  let (orig, reply) := tcpNewConn (ackOnly 1000 5000)
  tcpConnUpdate true orig reply (ackOnly 1000 5000)

/-- The first packet of the other end acknowledges what was never sent.  It is invalid, and
    still its sequence number is the one that the tracker goes by. -/
theorem tcpConnUpdate_invalid_moves :
    pickedUp.res = .valid ∧ pickedUp.dst.state = .closed ∧ pickedUp.dst.seqlo = 0 ∧
      (tcpConnUpdate true pickedUp.dst pickedUp.src (ackOnly 1 0x40000000)).res = .invalid ∧
      (tcpConnUpdate true pickedUp.dst pickedUp.src (ackOnly 1 0x40000000)).src.state = .synSent ∧
      (tcpConnUpdate true pickedUp.dst pickedUp.src (ackOnly 1 0x40000000)).src.seqlo = 1 := by
  decide

end

end Ovsgw.Conntrack
