/-
  **What `est` says**: when a packet leaves the connection tracker with `est`, which packets
  its connection has seen.

  A connection stays *unreplied* as long as only repetitions of its first packet arrive in the
  original direction.  Every step keeps a log of the packets that were accepted, and the table
  agrees with the log: each connection has its original packet in it, and the reply as well
  unless its tracker is unreplied.
-/
import Ovsgw.Conntrack.Execute

namespace Ovsgw.Conntrack

open List

/-! ## 1. The trackers before a reply -/

/-- No reply has been accepted: the original end of a TCP connection has got no further than
    its first packet. -/
def Unreplied : Tracker → Prop
  | .tcp orig _ => orig.state ≤ .synSent
  | .icmp _ => True
  | .other _ => True

/-- A packet in the original direction that repeats the first one: with TCP a `SYN`, or a packet
    that is invalid by its flags; with other protocols the second packet; never with ICMP. -/
def repeats : Tracker → L4 → Bool
  | .tcp _ _, l4 => tcpInvalidFlags l4.tcp.flags || (l4.tcp.flags.syn && !l4.tcp.flags.ack)
  | .icmp _, _ => false
  | .other state, _ => state = .first

section
variable {seqChk : Bool} {src dst : TcpPeer} {tcp : TcpHeader} {tracker : Tracker} {l4 : L4}

theorem firstScale_dst_state {t : Tracking} : (firstScale t tcp).dst.state = t.dst.state := by
  unfold firstScale
  split
  · dsimp only
    split <;> rfl
  · rfl

theorem trackingOf_dst_state : (trackingOf src dst tcp).dst.state = dst.state := by
  unfold trackingOf
  dsimp only
  split
  · exact firstScale_dst_state
  · rfl

theorem tcpConnUpdate_invalid (h : (tcpConnUpdate seqChk src dst tcp).res = .invalid) :
    (tcpConnUpdate seqChk src dst tcp).dst.state = dst.state := by
  obtain ⟨-, hdst⟩ | ⟨-, -, -, -, -, -, hdst⟩ := tcpConnUpdate_invalid_cases rfl h
  · rw [hdst]
  · rw [hdst, trackingOf_dst_state]

theorem tcpConnUpdate_new (h : (tcpConnUpdate seqChk src dst tcp).res = .new) :
    (tcpConnUpdate seqChk src dst tcp).dst.state = .closed := by
  unfold tcpConnUpdate at h ⊢
  dsimp only at h ⊢
  split
  next hflags =>
    rw [if_pos hflags] at h
    cases h
  split
  · rfl
  next hflags hclosed =>
    rw [if_neg hflags, if_neg hclosed] at h
    split at h
    · cases h
    · unfold tcpAccept at h
      dsimp only at h
      split at h
      · cases h
      · split at h <;> cases h

theorem tcpConnUpdate_repeats (hstate : src.state ≤ .synSent)
    (h : (tcpInvalidFlags tcp.flags || (tcp.flags.syn && !tcp.flags.ack)) = true) :
    (tcpConnUpdate seqChk src dst tcp).res ≠ .valid ∧
      (tcpConnUpdate seqChk src dst tcp).src.state ≤ .synSent := by
  unfold tcpConnUpdate
  dsimp only
  split
  · exact ⟨nofun, hstate⟩
  next hflags =>
    have hsyn : (tcp.flags.syn && !tcp.flags.ack) = true := by
      rw [Bool.not_eq_true] at hflags
      rwa [hflags, Bool.false_or] at h
    split
    · exact ⟨nofun, Nat.zero_le _⟩
    · rw [if_pos ⟨hsyn, hstate⟩]
      exact ⟨nofun, Nat.le_refl _⟩

theorem connUpdate_reply (hunreplied : Unreplied tracker)
    (h : (connUpdate seqChk tracker l4 true).2.1 = .invalid ∨
      (connUpdate seqChk tracker l4 true).2.1 = .new) :
    Unreplied (connUpdate seqChk tracker l4 true).1 := by
  cases tracker with
  | icmp | other => trivial
  | tcp orig rpl =>
    change (tcpConnUpdate seqChk rpl orig l4.tcp).dst.state ≤ .synSent
    rcases h with h | h
    · rw [tcpConnUpdate_invalid h]
      exact hunreplied
    · rw [tcpConnUpdate_new h]
      exact Nat.zero_le _

/-- The tracker after a repeated first packet, which is not valid for an established connection. -/
theorem connUpdate_repeats (hunreplied : Unreplied tracker)
    (h : repeats tracker l4 = true) : (connUpdate seqChk tracker l4 false).2.1 ≠ .valid ∧
      Unreplied (connUpdate seqChk tracker l4 false).1 := by
  cases tracker with
  | icmp => cases h
  | other state =>
    obtain rfl : state = .first := by simpa [repeats] using h
    exact ⟨nofun, trivial⟩
  | tcp orig rpl => exact tcpConnUpdate_repeats hunreplied h

end

/-! ## 2. The table -/

section
variable {K : Type} {ct : Table K} {log : List Seen} {conn : Conn K} {cfg : Config}
  {pkt : Packet K} {args : Args K} {state : CtState} {key : K} {reply : Bool} {now : Int}
  {step : Step K} {report : Report K}

/-- What the packets so far have left in the table: connections with different IDs, which were made
    for packets in the original direction and are unreplied as long as no reply was accepted. -/
structure Tracked (ct : Table K) (log : List Seen) : Prop where
  ids : ∀ c ∈ ct.conns, c.id < ct.nextId
  distinct : (ct.conns.map Conn.id).Nodup
  orig : ∀ c ∈ ct.conns, c.unNat = false → ⟨c.id, false⟩ ∈ log
  unreplied : ∀ c ∈ ct.conns, c.unNat = false → ⟨c.id, true⟩ ∈ log ∨ Unreplied c.tracker

theorem Tracked.empty : Tracked ({} : Table K) [] := by
  constructor <;> simp

theorem newConn_unreplied {proto : Proto} {l4 : L4} : Unreplied (newConn proto l4).1 := by
  cases proto with
  | tcp => exact Nat.le_refl _
  | icmp4 | icmp6 | other => trivial

theorem handleNat_established {ctZone zone : Nat}
    : (handleNat state ctZone zone conn reply).established = state.established := by
  have hbits (state : CtState) (action : NatAction) :
      (natBits state action reply).established = state.established := by
    cases action <;> cases reply <;> rfl
  unfold handleNat
  split
  · rfl
  · split
    · exact hbits _ _
    · split
      · exact hbits _ _
      · rfl

section

variable (h : Tracked ct log) {log' : List Seen} {ct' : Table K} {nextId : Nat}
include h

/-- The connections come from those that are there, and what was seen is kept. -/
theorem Tracked.of_conns (hnext : ct'.nextId = ct.nextId)
    (hdistinct : (ct'.conns.map Conn.id).Nodup) (hlog : log ⊆ log')
    (hconns : ∀ c ∈ ct'.conns, ∃ c' ∈ ct.conns, c.id = c'.id ∧ c.unNat = c'.unNat ∧
      (c = c' ∨ ⟨c.id, true⟩ ∈ log' ∨ Unreplied c.tracker)) : Tracked ct' log' := by
  refine ⟨fun c hc => ?_, hdistinct, fun c hc hun => ?_, fun c hc hun => ?_⟩ <;>
    obtain ⟨c', hc', hid, hun', htracker⟩ := hconns c hc
  · rw [hid, hnext]
    exact h.ids c' hc'
  · rw [hid]
    exact hlog (h.orig c' hc' (hun' ▸ hun))
  · rcases htracker with rfl | htracker
    · exact (h.unreplied c hc' hun).imp_left fun hseen => hlog hseen
    · exact htracker

theorem Tracked.clean (conn : Conn K) : Tracked (ct.clean conn) log := by
  have hsub : (ct.clean conn).conns.Sublist ct.conns := filter_sublist
  exact h.of_conns rfl (h.distinct.sublist (hsub.map _)) (List.Subset.refl log)
    fun c hc => ⟨c, hsub.subset hc, rfl, rfl, .inl rfl⟩

theorem Tracked.seen (seen : List Seen) : Tracked ct (seen ++ log) :=
  h.of_conns rfl h.distinct (subset_append_right seen log) fun c hc => ⟨c, hc, rfl, rfl, .inl rfl⟩

theorem Tracked.update {tracker : Tracker} {expiration : Option Int}
    (htracker : ⟨conn.id, true⟩ ∈ log ∨ Unreplied tracker) :
    Tracked (ct.update conn.id tracker expiration) log := by
  have hids : (ct.update conn.id tracker expiration).conns.map Conn.id = ct.conns.map Conn.id := by
    rw [Table.update, map_map]
    apply map_congr_left
    intro c _
    rw [Function.comp_apply]
    split <;> rfl
  refine h.of_conns rfl (hids ▸ h.distinct) (List.Subset.refl log) fun c hc => ?_
  obtain ⟨c', hc', rfl⟩ := mem_map.mp hc
  refine ⟨c', hc', ?_⟩
  split
  next hid => exact ⟨rfl, rfl, .inr (hid ▸ htracker)⟩
  · exact ⟨rfl, rfl, .inl rfl⟩

theorem Tracked.cons (hfresh : ∀ c ∈ ct.conns, c.id ≠ conn.id)
    (hle : ct.nextId ≤ nextId) (hnext : conn.id < nextId)
    (horig : conn.unNat = false → ⟨conn.id, false⟩ ∈ log) (hunreplied : Unreplied conn.tracker) :
    Tracked { conns := conn :: ct.conns, nextId } log := by
  constructor
  · exact forall_mem_cons.mpr ⟨hnext, fun c hc => (h.ids c hc).trans_le hle⟩
  · rw [map_cons, nodup_cons]
    apply And.intro _ h.distinct
    intro hmem
    obtain ⟨c, hc, hid⟩ := mem_map.mp hmem
    exact hfresh c hc hid
  · exact forall_mem_cons.mpr ⟨horig, h.orig⟩
  · exact forall_mem_cons.mpr ⟨fun _ => .inr hunreplied, h.unreplied⟩

theorem Tracked.cons_pair {natConn : Conn K}
    (hfresh : ∀ c ∈ ct.conns, c.id ≠ conn.id ∧ c.id ≠ natConn.id) (hne : natConn.id ≠ conn.id)
    (hle : ct.nextId ≤ nextId) (hnext : max conn.id natConn.id < nextId)
    (horig : conn.unNat = false → ⟨conn.id, false⟩ ∈ log) (hnat : natConn.unNat = true)
    (hunreplied : Unreplied conn.tracker) (hsame : natConn.tracker = conn.tracker) :
    Tracked { conns := conn :: natConn :: ct.conns, nextId } log := by
  have hback : Tracked { conns := natConn :: ct.conns, nextId } log := by
    apply h.cons _ hle
    · exact (le_max_right _ _).trans_lt hnext
    · rw [hnat]
      nofun
    · rw [hsame]
      exact hunreplied
    · intro c hc
      exact (hfresh c hc).2
  apply hback.cons _ (Nat.le_refl nextId)
  · exact (le_max_left _ _).trans_lt hnext
  · exact horig
  · exact hunreplied
  · exact forall_mem_cons.mpr ⟨hne, fun c hc => (hfresh c hc).1⟩

/-- A packet in the original direction only repeats the first one, until a reply was accepted. -/
def Waits (log : List Seen) (conn : Conn K) (reply : Bool) (pkt : Packet K) : Prop :=
  reply = true ∨ pkt.icmpRelated = true ∨ ⟨conn.id, true⟩ ∈ log ∨
    repeats conn.tracker pkt.l4 = true

/-- The packets that were accepted for a connection, in both directions. -/
def BothSeen (log : List Seen) (id : Nat) : Prop := ⟨id, false⟩ ∈ log ∧ ⟨id, true⟩ ∈ log

/-- What a connection is after a packet: replied, still unreplied, or replied by this packet. -/
theorem tracker_after (hconn : conn ∈ ct.conns) (hun : conn.unNat = false)
    (hwaits : Waits log conn reply pkt) (hrelated : pkt.icmpRelated = false) (seqChk : Bool) :
    ⟨conn.id, true⟩ ∈ log ∨ (Unreplied (connUpdate seqChk conn.tracker pkt.l4 reply).1 ∧
        (connUpdate seqChk conn.tracker pkt.l4 reply).2.1 ≠ .valid) ∨
      (reply = true ∧ ((connUpdate seqChk conn.tracker pkt.l4 reply).2.1 = .valid ∨
        (connUpdate seqChk conn.tracker pkt.l4 reply).2.1 = .validNew)) := by
  rcases h.unreplied conn hconn hun with hlog | hunreplied
  · exact .inl hlog
  cases reply with
  | true =>
    apply Or.inr
    cases hres : (connUpdate seqChk conn.tracker pkt.l4 true).2.1 with
    | valid => exact .inr ⟨rfl, .inl rfl⟩
    | validNew => exact .inr ⟨rfl, .inr rfl⟩
    | invalid => exact .inl ⟨connUpdate_reply hunreplied (.inl hres), nofun⟩
    | new => exact .inl ⟨connUpdate_reply hunreplied (.inr hres), nofun⟩
  | false =>
    rcases hwaits with hreply | hicmp | hlog | hrepeats
    · cases hreply
    · rw [hrelated] at hicmp
      cases hicmp
    · exact .inl hlog
    · obtain ⟨hres, hafter⟩ := connUpdate_repeats hunreplied hrepeats
      exact .inr (.inl ⟨hafter, hres⟩)

/-- What `process_one` has established after each of its parts: the table is as it should be,
    a packet that gets a connection of its own has not been accepted for another one, and a
    packet of an established connection goes with packets in both directions. -/
structure StepOk (log : List Seen) (step : Step K) : Prop where
  tracked : Tracked step.ct (step.seen.toList ++ log)
  create : step.createNew = true → step.seen = none ∧ step.state.established = false
  both : step.state.established = true →
    ∃ seen, step.seen = some seen ∧ BothSeen (seen :: log) seen.id

theorem StepOk.of_not_established (hstate : state.established = false) (createNew : Bool)
    (conn : Option (Conn K)) (reply : Bool) : StepOk log { ct, state, createNew, conn, reply } where
  tracked := h
  create := fun _ => ⟨rfl, hstate⟩
  both := fun hest => absurd (hstate.symm.trans hest) (by decide)

variable [DecidableEq K] [ConnKey K]

omit h in
theorem mem_of_lookup {hash : BitVec 32} (h : ct.lookup key hash now = some (conn, reply)) :
    conn ∈ ct.conns := by
  rw [Table.lookup, Option.map_eq_some_iff] at h
  obtain ⟨c, hfind, heq⟩ := h
  cases heq
  exact mem_of_find?_eq_some hfind

theorem connUpdateState_ok (hconn : conn ∈ ct.conns) (hwaits : Waits log conn reply pkt)
    (hstate : state.established = false)
    (hstep : connUpdateState cfg ct conn reply pkt state now = some step) : StepOk log step := by
  unfold connUpdateState at hstep
  split at hstep
  · cases hstep
  next hun =>
    rw [Bool.not_eq_true] at hun
    split at hstep
    · cases hstep
      apply StepOk.of_not_established h
      exact hstate
    next hrelated =>
      rw [Bool.not_eq_true] at hrelated
      have hafter := tracker_after h hconn hun hwaits hrelated cfg.seqChk
      have horig := h.orig conn hconn hun
      dsimp only at hstep
      generalize connUpdate cfg.seqChk conn.tracker pkt.l4 reply = u at hafter hstep
      obtain ⟨tracker, res, timeout⟩ := u
      dsimp only at hafter hstep
      have haccepted (hres : res = .valid ∨ res = .validNew) :
          Tracked (ct.update conn.id tracker (timeout.map fun timeout =>
            now + cfg.timeout conn.tpId timeout * 1000)) (⟨conn.id, reply⟩ :: log) := by
        apply (h.seen [⟨conn.id, reply⟩]).update
        rcases hafter with hlog | ⟨hunreplied, -⟩ | ⟨rfl, -⟩
        · exact .inl (mem_cons_of_mem _ hlog)
        · exact .inr hunreplied
        · exact .inl mem_cons_self
      have hrefused (hres : res ≠ .valid ∧ res ≠ .validNew) :
          Tracked (ct.update conn.id tracker (timeout.map fun timeout =>
            now + cfg.timeout conn.tpId timeout * 1000)) log := by
        apply h.update
        rcases hafter with hlog | ⟨hunreplied, -⟩ | ⟨-, hres'⟩
        · exact .inl hlog
        · exact .inr hunreplied
        · exact absurd hres' (not_or.mpr hres)
      have hstate' : (if conn.master.isSome then { state with related := true }
          else state).established = false := by
        split <;> exact hstate
      cases res with
      | valid =>
        cases hstep
        constructor
        · exact haccepted (.inl rfl)
        · nofun
        · intro _
          refine ⟨_, rfl, mem_cons_of_mem _ horig, ?_⟩
          rcases hafter with hlog | ⟨-, hne⟩ | ⟨rfl, -⟩
          · exact mem_cons_of_mem _ hlog
          · exact absurd rfl hne
          · exact mem_cons_self
      | invalid =>
        cases hstep
        exact .of_not_established (hrefused ⟨nofun, nofun⟩) rfl false (some conn) reply
      | new =>
        cases hstep
        apply StepOk.of_not_established _ hstate' true (some conn) reply
        split
        · exact (hrefused ⟨nofun, nofun⟩).clean conn
        · exact hrefused ⟨nofun, nofun⟩
      | validNew =>
        cases hstep
        constructor
        · exact haccepted (.inr rfl)
        · nofun
        · intro hest
          exact absurd (hstate'.symm.trans hest) (by decide)

theorem findConn_ok {found : Option (Found K)} (hfind : findConn ct key args = some (ct', found)) :
    Tracked ct' log ∧ ∀ conn reply, found = some (.conn conn reply) → conn ∈ ct'.conns := by
  have hmissing (reply : Bool) (ct : Table K) : ∀ conn reply',
      some (Found.missing reply) = some (.conn conn reply') → conn ∈ ct.conns := by
    intro conn reply' heq
    cases heq
  unfold findConn at hfind
  split at hfind
  · cases hfind
    exact ⟨h, hmissing false ct⟩
  next conn reply hlookup =>
    split at hfind
    · split at hfind
      · split at hfind
        · cases hfind
        · cases hfind
          exact ⟨h.clean conn, hmissing true _⟩
      · cases hfind
        exact ⟨h, hmissing true ct⟩
    · split at hfind
      · split at hfind
        · cases hfind
          apply And.intro h
          intro _ _ heq
          cases heq
        next conn' reply' hmaster =>
          cases hfind
          apply And.intro h
          intro _ _ heq
          cases heq
          exact mem_of_lookup hmaster
      · cases hfind
        apply And.intro h
        intro _ _ heq
        cases heq
        exact mem_of_lookup hlookup

/-- The connection that a packet is processed for, and its direction. -/
def Found.conn? (ct : Table K) (pkt : Packet K) (state : CtState) (args : Args K) :
    Found K → Option (Conn K × Bool)
  | .conn conn reply => some (conn, reply)
  | .missing reply => (checkOrigTuple ct pkt state args).map (·, reply)

theorem updateFound_ok {found : Found K}
    (hconn : ∀ conn reply, found = .conn conn reply → conn ∈ ct.conns)
    (hwaits : ∀ conn reply, found.conn? ct pkt state args = some (conn, reply) →
      Waits log conn reply pkt)
    (hstate : state.established = false)
    (hstep : updateFound cfg ct found pkt state args = some step) : StepOk log step := by
  unfold updateFound at hstep
  cases found with
  | conn conn reply =>
    rw [Option.map_eq_some_iff] at hstep
    obtain ⟨step', hstep', rfl⟩ := hstep
    have hok := connUpdateState_ok h (hconn conn reply rfl) (hwaits conn reply rfl) hstate hstep'
    split
    · constructor
      · exact hok.tracked
      · intro hcreate
        rw [handleNat_established]
        exact hok.create hcreate
      · rw [handleNat_established]
        exact hok.both
    · exact hok
  | missing reply =>
    dsimp only at hstep
    split at hstep
    next conn htuple =>
      have hmem : conn ∈ ct.conns := by
        unfold checkOrigTuple at htuple
        split at htuple
        · split at htuple
          · obtain ⟨found, hlookup, rfl⟩ := Option.map_eq_some_iff.mp htuple
            exact mem_of_lookup hlookup
          · cases htuple
        · cases htuple
      apply connUpdateState_ok h hmem (hwaits conn reply _) hstate hstep
      rw [Found.conn?, htuple]
      rfl
    · split at hstep
      · cases hstep
        exact .of_not_established h rfl false none false
      · cases hstep
        exact .of_not_established h hstate true none reply

omit [DecidableEq K] in
theorem connNotFound_ok (key : K) (pkt : Packet K) (args : Args K) (cfg : Config) :
    StepOk log (connNotFound cfg ct key pkt args) := by
  have hfresh : ∀ c ∈ ct.conns, c.id ≠ ct.nextId ∧ c.id ≠ ct.nextId + 1 := by
    intro c hc
    have hlt := h.ids c hc
    omega
  have hseen := h.seen [⟨ct.nextId, false⟩]
  unfold connNotFound
  split
  · exact .of_not_established h rfl false none false
  dsimp only
  split
  · apply StepOk.of_not_established h
    rfl
  split
  · constructor
    · apply hseen.cons
      · intro c hc
        exact (hfresh c hc).1
      · exact Nat.le_succ _
      · exact Nat.lt_succ_self _
      · intro _
        exact mem_cons_self
      · exact newConn_unreplied
    · nofun
    · nofun
  · apply StepOk.of_not_established h
    rfl
  next action revKey _ =>
    constructor
    · apply hseen.cons_pair hfresh
      · exact Nat.succ_ne_self _
      · exact Nat.le_add_right _ 2
      · exact max_lt (Nat.lt_add_of_pos_right (by decide)) (Nat.lt_succ_self _)
      · intro _
        exact mem_cons_self
      · rfl
      · exact newConn_unreplied
      · rfl
    · nofun
    · cases action <;> nofun

omit h in
theorem createConn_ok (h : StepOk log step) (key : K) (pkt : Packet K) (args : Args K)
    (cfg : Config) : StepOk log (createConn cfg step key pkt args) := by
  unfold createConn
  split
  next hcreate =>
    have htracked := h.tracked
    rw [(h.create hcreate.1).1] at htracked
    have hok := connNotFound_ok htracked key pkt args cfg
    exact ⟨hok.tracked, hok.create, hok.both⟩
  · exact h

/-! ## 3. Runs -/

/-- A packet that was not found established in an earlier pass.  Unless it goes with the
    connection that is cached for it, it only repeats the first packet of its connection if it is
    in the original direction and no reply was accepted. -/
def waits (ct : Table K) (log : List Seen) (pkt : Packet K) (args : Args K) : Bool :=
  !pkt.md.ctState.established && (pkt.md.conn.any (·.usable args) ||
    match pkt.key.bind fun key => findConn ct key args with
    | some (ct, some found) =>
      (found.conn? ct pkt (enterZone pkt.md args.zone) args).all fun (conn, reply) =>
        reply || pkt.icmpRelated || decide (⟨conn.id, true⟩ ∈ log) || repeats conn.tracker pkt.l4
    | _ => true)

theorem processOne_ok (hmd : pkt.md.ctState.established = false)
    (hwaits : ∀ ct' found conn reply, findConn ct key args = some (ct', some found) →
      found.conn? ct' pkt (enterZone pkt.md args.zone) args = some (conn, reply) →
      Waits log conn reply pkt)
    (hexec : processOne cfg ct key pkt args = some report) :
    Tracked report.ct (report.seen.toList ++ log) ∧ (report.md.ctState.established = true →
        ∃ seen, report.seen = some seen ∧ BothSeen (seen :: log) seen.id) := by
  have hstate : (enterZone pkt.md args.zone).established = false := by
    unfold enterZone
    split
    · rfl
    · exact hmd
  unfold processOne at hexec
  generalize enterZone pkt.md args.zone = state at hstate hwaits hexec
  dsimp only at hexec
  split at hexec
  · cases hexec
  next hfind =>
    cases hexec
    exact ⟨(findConn_ok h hfind).1, fun hest => absurd (hstate.symm.trans hest) (by decide)⟩
  next ct' found hfind =>
    obtain ⟨htracked, hmem⟩ := findConn_ok h hfind
    rw [Option.map_eq_some_iff] at hexec
    obtain ⟨step, hstep, rfl⟩ := hexec
    have hupdate : StepOk log step := by
      apply updateFound_ok htracked _ (fun conn reply => hwaits ct' found conn reply hfind) hstate
        hstep
      rintro conn reply rfl
      exact hmem conn reply rfl
    have hok := createConn_ok hupdate key pkt args cfg
    exact ⟨hok.tracked, hok.both⟩

theorem conntrackExecute_ok (hwaits : waits ct log pkt args = true)
    (hexec : conntrackExecute cfg ct pkt args = some report) :
    Tracked report.ct (report.seen.toList ++ log) ∧ (report.md.ctState.established = true →
        ∃ seen, report.seen = some seen ∧ BothSeen (seen :: log) seen.id) := by
  rw [waits, Bool.and_eq_true, Bool.not_eq_true'] at hwaits
  obtain ⟨hmd, hwaits⟩ := hwaits
  have hquiet (state : CtState) (hstate : state.established = false) :
      state.established = true → ∃ seen, (none : Option Seen) = some seen ∧
        BothSeen (seen :: log) seen.id :=
    fun hest => absurd (hstate.symm.trans hest) (by decide)
  rw [conntrackExecute] at hexec
  split at hexec
  · cases hexec
    exact ⟨h, hquiet _ hmd⟩
  split at hexec
  next cached _ =>
    cases hexec
    unfold processOneFast
    dsimp only
    split
    · exact ⟨h, hquiet _ (handleNat_established.trans hmd)⟩
    · exact ⟨h, hquiet _ hmd⟩
  next hcached =>
    have hany : pkt.md.conn.any (·.usable args) = false := by
      cases hconn : pkt.md.conn <;> simp_all
    rw [hany, Bool.false_or] at hwaits
    rw [processKey] at hexec
    cases hkey : pkt.key with
    | none =>
      rw [hkey] at hexec
      cases hexec
      exact ⟨h, hquiet _ rfl⟩
    | some key =>
      rw [hkey] at hexec hwaits
      apply processOne_ok h hmd _ hexec
      intro ct' found conn reply hfind hconn
      rw [Option.bind_some, hfind] at hwaits
      dsimp only at hwaits
      rw [hconn, Option.all_some] at hwaits
      simp only [Bool.or_eq_true, decide_eq_true_eq] at hwaits
      rw [Waits]
      tauto

/-- All packets of a sequence wait for a reply. -/
def waitsAll (cfg : Config) : Table K → List Seen → List (Packet K × Args K) → Bool
  | _, _, [] => true
  | ct, log, (pkt, args) :: packets =>
    waits ct log pkt args &&
      (conntrackExecute cfg ct pkt args).all fun report =>
        waitsAll cfg report.ct (report.seen.toList ++ log) packets

omit h in
theorem bothSeen_mono {id : Nat} (hsub : log ⊆ log') (h : BothSeen log id) : BothSeen log' id :=
  ⟨hsub h.1, hsub h.2⟩

theorem execute_bothSeen {packets : List (Packet K × Args K)} {reports : List (Report K)}
    {last : Table K} (hwaits : waitsAll cfg ct log packets = true)
    (hrun : execute cfg ct packets = some (reports, last)) {before after : List (Report K)}
    (hsplit : reports = before ++ report :: after) (hest : report.md.ctState.established = true) :
    ∃ seen, report.seen = some seen ∧
      BothSeen (log ++ (before ++ [report]).filterMap Report.seen) seen.id := by
  induction packets generalizing ct log reports before with
  | nil =>
    cases hrun
    simp at hsplit
  | cons first packets ih =>
    obtain ⟨pkt, args⟩ := first
    rw [waitsAll, Bool.and_eq_true] at hwaits
    rw [execute] at hrun
    cases hexec : conntrackExecute cfg ct pkt args with
    | none =>
      rw [hexec] at hrun
      cases hrun
    | some head =>
      rw [hexec] at hrun hwaits
      obtain ⟨htracked, hboth⟩ := conntrackExecute_ok h hwaits.1 hexec
      cases htail : execute cfg head.ct packets with
      | none =>
        simp [htail] at hrun
      | some tail =>
        obtain ⟨reports', last'⟩ := tail
        simp only [htail, Option.bind_eq_bind, Option.bind_some, Option.pure_def,
          Option.some.injEq, Prod.mk.injEq] at hrun
        obtain ⟨rfl, rfl⟩ := hrun
        cases before with
        | nil =>
          obtain ⟨rfl, rfl⟩ := List.cons.inj hsplit
          obtain ⟨seen, hseen, hboth⟩ := hboth hest
          refine ⟨seen, hseen, bothSeen_mono ?_ hboth⟩
          intro s hs
          simp only [nil_append, filterMap_cons, hseen, filterMap_nil, mem_append, mem_singleton]
          exact (mem_cons.mp hs).symm
        | cons first before =>
          obtain ⟨hfirst, hrest⟩ := List.cons.inj hsplit
          subst hfirst
          obtain ⟨seen, hseen, hboth⟩ := ih htracked hwaits.2 htail hrest
          refine ⟨seen, hseen, bothSeen_mono ?_ hboth⟩
          intro s hs
          rw [cons_append, filterMap_cons]
          cases hhead : head.seen <;> simp_all [or_left_comm]

end

variable [DecidableEq K] [ConnKey K]

/-- If no original packet but repetitions of the first one comes before the first reply, a
    packet that leaves with `est` belongs to a connection that has seen both directions. -/
theorem established_bothSeen (cfg : Config) (packets : List (Packet K × Args K))
    (reports before after : List (Report K)) (report : Report K) (last : Table K)
    (hwaits : waitsAll cfg {} [] packets = true)
    (hrun : execute cfg {} packets = some (reports, last))
    (hsplit : reports = before ++ report :: after) (hest : report.md.ctState.established = true) :
    ∃ seen, report.seen = some seen ∧
      BothSeen ((before ++ [report]).filterMap Report.seen) seen.id :=
  execute_bothSeen Tracked.empty hwaits hrun hsplit hest

end

/-! ## 4. Connections between numbered hosts -/

/-- The key of a connection between two hosts. -/
structure HostKey where
  src : Nat
  dst : Nat
  proto : Proto
deriving DecidableEq

instance : ConnKey HostKey where
  reverse key := { key with src := key.dst, dst := key.src }
  zone _ := 0
  proto key := key.proto
  hash key := BitVec.ofNat 32 (key.src + key.dst)

def minuteConfig : Config := { timeout := fun _ _ => 60 }

/-- Host 1 sends to host 2, in a flow that commits. -/
def request (proto : Proto) (l4 : L4) : Packet HostKey × Args HostKey :=
  ({ key := some ⟨1, 2, proto⟩, l4 }, { commit := true })

def answer (proto : Proto) (l4 : L4) : Packet HostKey × Args HostKey :=
  ({ key := some ⟨2, 1, proto⟩, l4 }, {})

/-- What the reports say: whether the packet left with `est`, and what it was seen as. -/
def summary (cfg : Config) (packets : List (Packet HostKey × Args HostKey)) :
    Option (List (Bool × Option Seen)) :=
  (execute cfg {} packets).map fun (reports, _) =>
    reports.map fun report => (report.md.ctState.established, report.seen)

theorem established_bothSeen_answered :
    waitsAll minuteConfig {} [] [request .other {}, answer .other {}, request .other {}] = true ∧
    ∃ reports last, execute minuteConfig {} [request .other {}, answer .other {},
        request .other {}] = some (reports, last) ∧
      ∀ before report after, reports = before ++ report :: after →
        report.md.ctState.established = true →
        ∃ seen, report.seen = some seen ∧
          BothSeen ((before ++ [report]).filterMap Report.seen) seen.id := by
  refine ⟨by decide, _, _, rfl, ?_⟩
  intro before report after hsplit hest
  exact established_bothSeen minuteConfig [request .other {}, answer .other {},
    request .other {}] _ before after report _ (by decide) rfl hsplit hest

/-- Three UDP packets from host 1 that host 2 never answers: the third leaves with `est`. -/
theorem established_without_reply :
    summary minuteConfig [request .other {}, request .other {}, request .other {}] =
      some [(false, some ⟨0, false⟩), (false, some ⟨0, false⟩), (true, some ⟨0, false⟩)] := by
  decide

-- With ICMP it is the second packet, and with TCP an `ACK` that follows the first `SYN`.
example : summary minuteConfig [request .icmp4 { icmpType := 8 }, request .icmp4 { icmpType := 8 }]
    = some [(false, some ⟨0, false⟩), (true, some ⟨0, false⟩)] := by decide

example : summary minuteConfig [request .tcp { tcp := { flags := { syn := true } } },
    request .tcp { tcp := { flags := { ack := true }, seq := 1 } }] =
      some [(false, some ⟨0, false⟩), (true, some ⟨0, false⟩)] := by decide

end Ovsgw.Conntrack
