/-
  **Quiescent networks of spanning tree bridges** (`lib/stp.c`): all bridges agree on the root,
  every segment has one designated port, and the root ports and the designated ports form a
  spanning tree.

  On a segment, the port that would send the best identifiers is designated, and all other
  ports have recorded what it sends.  From a bridge over its root port to the bridge that is
  designated there, the root path cost goes down, or it stays the same and the bridge identifier
  goes down, so that these steps end at the root.  The exception is a root port whose segment
  has a designated port of the same bridge, which is possible with a path cost of 0.
-/
import Ovsgw.Lib.RankedTree
import Ovsgw.Stp.BridgeSpec

namespace Ovsgw.Bridging

/-! ## 1. Networks -/

/-- Bridges, and the segments that their ports are attached to.  The low byte of a port ID is
    the number of the port, counted from 1. -/
structure Network (β σ : Type) where
  bridge : β → Stp
  segment : β → Nat → σ
  distinct : ∀ b b', (bridge b).bridgeId = (bridge b').bridgeId → b = b'
  portIds : ∀ (b : β) (i : Nat) (p : Port), (bridge b).ports[i]? = some p →
    p.portId.toNat % 256 = i + 1

namespace Network

variable {β σ : Type} {net : Network β σ} {b b' : β} {i i' : Nat} {p p' : Port} {s : σ}

/-- An enabled port, and its segment. -/
structure Attached (net : Network β σ) (b : β) (i : Nat) (p : Port) (s : σ) : Prop where
  port : (net.bridge b).ports[i]? = some p
  enabled : p.state ≠ .disabled
  segment : net.segment b i = s

def Used (net : Network β σ) : Type := { s : σ // ∃ b i p, net.Attached b i p s }

/-- The graph of bridges and segments, with an edge for each enabled port in `Ports`. -/
def graph (net : Network β σ) (Ports : β → Nat → Port → Prop) : SimpleGraph (β ⊕ net.Used) where
  Adj
    | .inl b, .inr s | .inr s, .inl b => ∃ i p, net.Attached b i p s.1 ∧ Ports b i p
    | _, _ => False
  symm := by
    constructor
    rintro (b | s) (b' | s') h <;> exact h
  loopless := by
    constructor
    rintro (b | s) h <;> exact h

/-- The root ports and the designated ports. -/
def TreePort (net : Network β σ) (b : β) (i : Nat) (p : Port) : Prop :=
  (net.bridge b).rootPort = some i ∨ stpIsDesignatedPort (net.bridge b) p = true

/-- A quiescent state: `stp_configuration_update` changes nothing, a port that is not designated
    has recorded what a port of its segment sends, and the config BPDU of a designated port, of
    an age that is not too large, changes nothing that a port of its segment has recorded. -/
structure Quiescent (net : Network β σ) : Prop where
  update : ∀ b, stpConfigurationUpdate (net.bridge b) = net.bridge b
  named : ∀ b i p s, net.Attached b i p s → stpIsDesignatedPort (net.bridge b) p = false →
    ∃ b' i' p', net.Attached b' i' p' s ∧ p.toInfo = (configOf (net.bridge b') p').info
  fresh : ∀ b i p s, net.Attached b i p s → stpIsDesignatedPort (net.bridge b) p = true →
    (configOf (net.bridge b) p).messageAge < (configOf (net.bridge b) p).maxAge
  delivered : ∀ b i p s, net.Attached b i p s → stpIsDesignatedPort (net.bridge b) p = true →
    ∀ b' i' p', net.Attached b' i' p' s → (b', i') ≠ (b, i) →
      (stpReceivedConfigBpdu (net.bridge b') i' (configOf (net.bridge b) p)).infos =
        (net.bridge b').infos

/-- Of two ports of a bridge on one segment, the one with the larger port ID has a path cost. -/
def LoopsCost (net : Network β σ) : Prop :=
  ∀ b i p i' p' s, net.Attached b i p s → net.Attached b i' p' s → p'.portId < p.portId →
    p.pathCost ≠ 0

/-! ## 2. Segments -/

theorem eq_of_named (h : net.Attached b i p s) (h' : net.Attached b' i' p' s)
    (hbridge : (net.bridge b).bridgeId = (net.bridge b').bridgeId) (hport : p.portId = p'.portId) :
    b = b' ∧ i = i' := by
  obtain rfl := net.distinct b b' hbridge
  have hi := net.portIds b i p h.port
  have hi' := net.portIds b i' p' h'.port
  rw [hport] at hi
  exact ⟨rfl, by omega⟩

theorem Quiescent.key_le (hq : net.Quiescent) (h : net.Attached b i p s)
    (hdes : stpIsDesignatedPort (net.bridge b) p = true) (h' : net.Attached b' i' p' s) :
    p'.toInfo.key ≤ (ownInfo (net.bridge b) p).key := by
  by_cases hsame : (b', i') = (b, i)
  · cases hsame
    have hp : p' = p := Option.some.inj (h'.port.symm.trans h.port)
    rw [hp, (stable_of_update (hq.update b)).designated i p h.port h.enabled hdes]
  · by_contra hlt
    apply stpReceivedConfigBpdu_ne h'.port h'.enabled (hq.fresh b i p s h hdes) (not_le.mp hlt)
    · rintro ⟨hbridge, hport⟩
      obtain ⟨rfl, rfl⟩ := eq_of_named h h' hbridge hport
      exact hsame rfl
    · exact hq.delivered b i p s h hdes b' i' p' h' hsame

/-- The designated port of a segment: all ports of the segment have recorded what it sends. -/
structure Designated (net : Network β σ) (b : β) (i : Nat) (p : Port) (s : σ) : Prop where
  attached : net.Attached b i p s
  designated : stpIsDesignatedPort (net.bridge b) p = true
  recorded : ∀ b' i' p', net.Attached b' i' p' s → p'.toInfo = ownInfo (net.bridge b) p

theorem Quiescent.exists_designated (hq : net.Quiescent) (h : net.Attached b i p s) :
    ∃ b i p, net.Designated b i p s := by
  -- The port that would send the best identifiers is designated.
  obtain ⟨_, ⟨b0, i0, p0, h0, rfl⟩, hmin⟩ := wellFounded_lt.has_min
    { k | ∃ b i p, net.Attached b i p s ∧ k = (ownInfo (net.bridge b) p).key }
    ⟨_, b, i, p, h, rfl⟩
  have hle : ∀ b i p, net.Attached b i p s →
      (ownInfo (net.bridge b0) p0).key ≤ (ownInfo (net.bridge b) p).key := by
    intro b i p h
    exact not_lt.mp (hmin _ ⟨b, i, p, h, rfl⟩)
  have hstable := stable_of_update (hq.update b0)
  have hdes : stpIsDesignatedPort (net.bridge b0) p0 = true := by
    by_contra hdes
    rw [Bool.not_eq_true] at hdes
    obtain ⟨b', i', p', h', hinfo⟩ := hq.named b0 i0 p0 s h0 hdes
    have hlt := (hstable.other i0 p0 h0.port h0.enabled hdes).2
    rw [hinfo] at hlt
    exact absurd (hle b' i' p' h') (not_le.mpr hlt)
  refine ⟨b0, i0, p0, h0, hdes, ?_⟩
  intro b' i' p' h'
  apply Info.key_injective
  apply le_antisymm (hq.key_le h0 hdes h')
  cases hdes' : stpIsDesignatedPort (net.bridge b') p' with
  | true =>
    rw [(stable_of_update (hq.update b')).designated i' p' h'.port h'.enabled hdes']
    exact hle b' i' p' h'
  | false =>
    obtain ⟨b'', i'', p'', h'', hinfo⟩ := hq.named b' i' p' s h' hdes'
    rw [hinfo]
    exact hle b'' i'' p'' h''

theorem Designated.eq (h : net.Designated b i p s) (h' : net.Attached b' i' p' s)
    (hdes : stpIsDesignatedPort (net.bridge b') p' = true) : b = b' ∧ i = i' := by
  have hinfo := h.recorded b' i' p' h'
  simp only [stpIsDesignatedPort, hinfo, ownInfo, Bool.and_eq_true, decide_eq_true_eq] at hdes
  exact eq_of_named h.attached h' hdes.1 hdes.2

theorem Quiescent.designatedRoot_eq (hq : net.Quiescent) (h : net.Designated b i p s)
    (h' : net.Attached b' i' p' s) :
    (net.bridge b').designatedRoot = (net.bridge b).designatedRoot := by
  have hinfo := h.recorded b' i' p' h'
  have hstable := stable_of_update (hq.update b')
  have hroot : p'.designatedRoot = (net.bridge b).designatedRoot := by rw [hinfo]; rfl
  cases hdes : stpIsDesignatedPort (net.bridge b') p' with
  | true =>
    rw [← hroot, hstable.designated i' p' h'.port h'.enabled hdes]
    rfl
  | false => rw [← hroot, (hstable.other i' p' h'.port h'.enabled hdes).1]

/-! ## 3. Root ports -/

/-- Bridges are ordered by their distance from the root, and then by their identifiers. -/
def bridgeKey (net : Network β σ) (b : β) : ℕ ×ₗ ℕ :=
  toLex ((net.bridge b).rootPathCost.toNat, (net.bridge b).bridgeId.toNat)

section

variable (hq : net.Quiescent) (hcost : net.LoopsCost)
include hq hcost

theorem Quiescent.rootPort_lt (hroot : (net.bridge b).rootPort = some i) :
    ∃ p b' i' p', net.Attached b i p (net.segment b i) ∧
      net.Designated b' i' p' (net.segment b i) ∧ net.bridgeKey b' < net.bridgeKey b := by
  have hstable := stable_of_update (hq.update b)
  obtain ⟨p, hp, ⟨hstate, hdes, -⟩, -, hpath⟩ := hstable.selected.ofSome i hroot
  have hatt : net.Attached b i p (net.segment b i) := ⟨hp, hstate, rfl⟩
  obtain ⟨b', i', p', h⟩ := hq.exists_designated hatt
  refine ⟨p, b', i', p', hatt, h, ?_⟩
  obtain ⟨hsame, hlt⟩ := hstable.other i p hp hstate hdes
  have hinfo := h.recorded b i p hatt
  rw [Info.key_lt_iff, hsame] at hlt
  rcases hlt with hlt | ⟨-, hlt⟩
  · exact absurd hlt (BitVec.lt_irrefl _)
  rw [hinfo] at hlt
  simp only [ownInfo] at hlt
  rw [bridgeKey, bridgeKey, Prod.Lex.toLex_lt_toLex]
  rcases hlt with hlt | ⟨hsameCost, hlt | ⟨hsameBridge, hlt⟩⟩
  · exact .inl hlt
  · exact .inr ⟨congrArg BitVec.toNat hsameCost, hlt⟩
  · -- Both ports belong to this bridge, so its root path cost does not grow.
    obtain rfl := net.distinct b' b hsameBridge
    rw [hinfo] at hpath
    have hzero : p.pathCost = 0 := by simpa [ownInfo] using hpath.symm
    exact absurd hzero (hcost b' i p i' p' _ hatt h.attached hlt)

theorem Quiescent.rootPort_not_designated (hroot : (net.bridge b).rootPort = some i)
    (h : net.Attached b i p s) (h' : net.Attached b i' p' s) :
    stpIsDesignatedPort (net.bridge b) p' = false := by
  obtain ⟨-, b', i'', p'', -, hdes, hlt⟩ := hq.rootPort_lt hcost hroot
  rw [h.segment] at hdes
  rw [← Bool.not_eq_true]
  intro hdes'
  rw [(hdes.eq h' hdes').1] at hlt
  exact lt_irrefl _ hlt

theorem Quiescent.exists_root (b : β) : ∃ r, (net.bridge r).rootPort = none ∧
      (net.bridge b).designatedRoot = (net.bridge r).bridgeId := by
  induction b using (InvImage.wf net.bridgeKey wellFounded_lt).induction with
  | _ b ih =>
    cases hroot : (net.bridge b).rootPort with
    | none => exact ⟨b, hroot, ((stable_of_update (hq.update b)).selected.ofNone hroot).1⟩
    | some i =>
      obtain ⟨p, b', i', p', hatt, h, hlt⟩ := hq.rootPort_lt hcost hroot
      obtain ⟨r, hr, heq⟩ := ih b' hlt
      exact ⟨r, hr, (hq.designatedRoot_eq h hatt).trans heq⟩

end

/-! ## 4. The tree -/

/-- What the ports of a segment have recorded. -/
noncomputable def Used.info (s : net.Used) : Info := s.2.choose_spec.choose_spec.choose.toInfo

theorem Designated.info_eq {s : net.Used} (h : net.Designated b i p s.1) :
    s.info = ownInfo (net.bridge b) p :=
  h.recorded _ _ _ s.2.choose_spec.choose_spec.choose_spec

theorem Quiescent.same_root (hq : net.Quiescent)
    (hconn : (net.graph fun _ _ _ => True).Connected) (b b' : β) :
    (net.bridge b).designatedRoot = (net.bridge b').designatedRoot := by
  have hport : ∀ (b : β) (s : net.Used), (∃ i p, net.Attached b i p s.1 ∧ True) →
      (net.bridge b).designatedRoot = s.info.designatedRoot := by
    rintro b s ⟨i, p, h, -⟩
    obtain ⟨b', i', p', h'⟩ := hq.exists_designated h
    rw [hq.designatedRoot_eq h' h, h'.info_eq]
    rfl
  apply Lib.eq_of_reachable (f := Sum.elim (fun b => (net.bridge b).designatedRoot)
    fun s => s.info.designatedRoot) _ (hconn.preconnected (.inl b) (.inl b'))
  rintro (b | s) (b' | s') h
  · cases h
  · exact hport b s' h
  · exact (hport b' s h).symm
  · cases h

/-- The edge from a bridge to the segment of its root port, and from a segment to the bridge
    of its designated port. -/
inductive Parent (net : Network β σ) : β ⊕ net.Used → β ⊕ net.Used → Prop
  | rootPort {b : β} {i : Nat} {p : Port} {s : net.Used} (h : net.Attached b i p s.1)
      (hroot : (net.bridge b).rootPort = some i) : net.Parent (.inl b) (.inr s)
  | designated {b : β} {i : Nat} {p : Port} {s : net.Used} (h : net.Designated b i p s.1) :
      net.Parent (.inr s) (.inl b)

/-- The distance from the root bridge. -/
noncomputable def rank (net : Network β σ) : β ⊕ net.Used → (ℕ ×ₗ ℕ) ×ₗ ℕ
  | .inl b => toLex (net.bridgeKey b, 0)
  | .inr s => toLex (toLex (s.info.designatedCost.toNat, s.info.designatedBridge.toNat), 1)

theorem rank_segment {s : net.Used} (h : net.Designated b i p s.1) :
    net.rank (.inr s) = toLex (net.bridgeKey b, 1) := by
  rw [rank, h.info_eq]
  rfl

theorem Quiescent.rank_lt (hq : net.Quiescent) (hcost : net.LoopsCost) :
    ∀ v w, net.Parent v w → net.rank w < net.rank v := by
  rintro _ _ (@⟨b, i, p, s, h, hroot⟩ | @⟨b, i, p, s, h⟩)
  · obtain ⟨-, b', i', p', -, h', hlt⟩ := hq.rootPort_lt hcost hroot
    rw [h.segment] at h'
    rw [rank_segment h', rank, Prod.Lex.toLex_lt_toLex]
    exact .inl hlt
  · rw [rank_segment h, rank, Prod.Lex.toLex_lt_toLex]
    exact .inr ⟨rfl, Nat.zero_lt_one⟩

theorem parent_unique : ∀ v w w', net.Parent v w → net.Parent v w' → w = w' := by
  rintro _ _ _ (@⟨b, i, p, s, h, hroot⟩ | @⟨b, i, p, s, h⟩) h'
  · rcases h' with @⟨_, i', p', s', h', hroot'⟩ | _
    obtain rfl : i = i' := Option.some.inj (hroot.symm.trans hroot')
    exact congrArg Sum.inr (Subtype.ext (h.segment.symm.trans h'.segment))
  · rcases h' with _ | @⟨b', i', p', _, h'⟩
    rw [(h.eq h'.attached h'.designated).1]

theorem Quiescent.adj_iff (hq : net.Quiescent) : ∀ v w,
    (net.graph net.TreePort).Adj v w ↔ net.Parent v w ∨ net.Parent w v := by
  have hport : ∀ (b : β) (s : net.Used), (∃ i p, net.Attached b i p s.1 ∧ net.TreePort b i p) ↔
      net.Parent (.inl b) (.inr s) ∨ net.Parent (.inr s) (.inl b) := by
    intro b s
    constructor
    · rintro ⟨i, p, h, hroot | hdes⟩
      · exact .inl (.rootPort h hroot)
      · obtain ⟨b', i', p', h'⟩ := hq.exists_designated h
        obtain ⟨rfl, rfl⟩ := h'.eq h hdes
        exact .inr (.designated h')
    · rintro (h | h)
      · cases h with
        | rootPort h hroot => exact ⟨_, _, h, .inl hroot⟩
      · cases h with
        | designated h => exact ⟨_, _, h.attached, .inr h.designated⟩
  rintro (b | s) (b' | s')
  · constructor
    · intro h
      cases h
    · rintro (h | h) <;> cases h
  · exact hport b s'
  · exact (hport b' s).trans or_comm
  · constructor
    · intro h
      cases h
    · rintro (h | h) <;> cases h

/-- A quiescent network has the least bridge for its root, one designated port on each segment,
    and a tree of root ports and designated ports. -/
theorem quiescent_spanningTree (net : Network β σ)
    (hconn : (net.graph fun _ _ _ => True).Connected) (hq : net.Quiescent) (hcost : net.LoopsCost) :
    (∃ r, ∀ b, (net.bridge r).bridgeId ≤ (net.bridge b).bridgeId ∧
      (net.bridge b).designatedRoot = (net.bridge r).bridgeId) ∧
    (∀ s : net.Used, ∃! port : β × Nat, ∃ p, net.Attached port.1 port.2 p s.1 ∧
      stpIsDesignatedPort (net.bridge port.1) p = true) ∧
    (net.graph net.TreePort).IsTree ∧ (∀ b i i' p p' s, net.Attached b i p s → net.TreePort b i p →
      net.Attached b i' p' s → net.TreePort b i' p' → i = i') := by
  obtain ⟨v⟩ := hconn.nonempty
  obtain ⟨b⟩ : Nonempty β := by
    rcases v with b | ⟨s, b, -⟩
    · exact ⟨b⟩
    · exact ⟨b⟩
  obtain ⟨r, hr, heq⟩ := hq.exists_root hcost b
  have hroot : ∀ b, (net.bridge b).designatedRoot = (net.bridge r).bridgeId := by
    intro b'
    rw [hq.same_root hconn b' b, heq]
  refine ⟨⟨r, fun b => ⟨?_, hroot b⟩⟩, ?_, ?_, ?_⟩
  · rw [← hroot b]
    exact (stable_of_update (hq.update b)).selected.le_bridgeId
  · rintro ⟨s, b, i, p, h⟩
    obtain ⟨b', i', p', h'⟩ := hq.exists_designated h
    refine ⟨(b', i'), ⟨p', h'.attached, h'.designated⟩, ?_⟩
    rintro ⟨b'', i''⟩ ⟨p'', h'', hdes⟩
    obtain ⟨rfl, rfl⟩ := h'.eq h'' hdes
    rfl
  · apply Lib.isTree_of_parent (hq.rank_lt hcost) parent_unique _ hq.adj_iff
    · exact .inl r
    rintro (b | ⟨s, b, i, p, h⟩) hne
    · cases hport : (net.bridge b).rootPort with
      | none =>
        have hown := ((stable_of_update (hq.update b)).selected.ofNone hport).1
        rw [net.distinct b r (hown.symm.trans (hroot b))] at hne
        exact absurd rfl hne
      | some i =>
        obtain ⟨p, -, -, -, h, -⟩ := hq.rootPort_lt hcost hport
        exact ⟨.inr ⟨_, b, i, p, h⟩, .rootPort h hport⟩
    · obtain ⟨b', i', p', h'⟩ := hq.exists_designated h
      exact ⟨.inl b', .designated h'⟩
  · rintro b i i' p p' s h (hport | hdes) h' (hport' | hdes')
    · exact Option.some.inj (hport.symm.trans hport')
    · exact absurd hdes' (by simp [hq.rootPort_not_designated hcost hport h h'])
    · exact absurd hdes (by simp [hq.rootPort_not_designated hcost hport' h' h])
    · obtain ⟨b0, i0, p0, h0⟩ := hq.exists_designated h
      exact (h0.eq h hdes).2.symm.trans (h0.eq h' hdes').2

/-! ## 5. Small networks -/

def portOf (portId : BitVec 16) (pathCost : BitVec 32) (info : Info) : Port :=
  { toInfo := info, portId, pathCost, state := .forwarding }

def bridgeOf (bridgeId designatedRoot : BitVec 64) (rootPathCost : BitVec 32)
    (rootPort : Option Nat) (ports : List Port) : Stp :=
  { bridgeId, designatedRoot, rootPathCost, rootPort, ports
    maxAge := 5120, helloTime := 512, forwardDelay := 3840, firstChangedPort := ports.length }

theorem connected_of_hub (r : β) (hsegment : ∀ s : net.Used, ∃ i p, net.Attached r i p s.1)
    (hbridge : ∀ b, ∃ i p s, net.Attached b i p s) :
    (net.graph fun _ _ _ => True).Connected := by
  have hsegment' : ∀ s, (net.graph fun _ _ _ => True).Reachable (.inr s) (.inl r) := by
    intro s
    obtain ⟨i, p, hp⟩ := hsegment s
    exact SimpleGraph.Adj.reachable (G := net.graph fun _ _ _ => True) ⟨i, p, hp, trivial⟩
  have hreach : ∀ v, (net.graph fun _ _ _ => True).Reachable v (.inl r) := by
    rintro (b | s)
    · obtain ⟨i, p, s, hp⟩ := hbridge b
      have hadj : (net.graph fun _ _ _ => True).Adj (.inl b) (.inr ⟨s, b, i, p, hp⟩) :=
        ⟨i, p, hp, trivial⟩
      exact hadj.reachable.trans (hsegment' _)
    · exact hsegment' s
  have : Nonempty (β ⊕ net.Used) := ⟨.inl r⟩
  exact ⟨fun v w => (hreach v).trans (hreach w).symm⟩

/-- Port 1 is on one segment, ports 2 and 3 are on another one. -/
def linkPort (i : Nat) : Port :=
  portOf (0x8001 + BitVec.ofNat 16 i) 19 ⟨1, 0, 1, if i = 0 then 0x8001 else 0x8002⟩

/-- A root bridge and another bridge, with two segments between them.  The other bridge has two
    ports on the second segment. -/
def twoBridges : Network Bool Bool where
  bridge
    | false => bridgeOf 1 1 0 none [linkPort 0, linkPort 1]
    | true => bridgeOf 2 1 19 (some 0) [linkPort 0, linkPort 1, linkPort 2]
  segment _ i := i ≠ 0
  distinct := by decide
  portIds := by
    rintro (_ | _) (_ | _ | _ | i) p hp <;> cases hp <;> rfl

theorem twoBridges_attached {b s : Bool} (h : twoBridges.Attached b i p s) :
    i < cond b 3 2 ∧ p = linkPort i ∧ s = decide (i ≠ 0) := by
  obtain ⟨hp, -, rfl⟩ := h
  rcases b with _ | _ <;> rcases i with _ | _ | _ | i <;> cases hp <;>
    exact ⟨by decide, rfl, rfl⟩

theorem attached_twoBridges (b s : Bool) : twoBridges.Attached b s.toNat (linkPort s.toNat) s := by
  cases b <;> cases s <;> exact ⟨rfl, by decide, rfl⟩

theorem twoBridges_designated {b s : Bool} (h : twoBridges.Attached b i p s)
    (hdes : stpIsDesignatedPort (twoBridges.bridge b) p = true) : b = false := by
  have hall : ∀ i < 3, stpIsDesignatedPort (twoBridges.bridge true) (linkPort i) = false := by decide
  obtain ⟨hi, rfl, -⟩ := twoBridges_attached h
  cases b with
  | false => rfl
  | true => exact absurd hdes (by simp [hall i hi])

theorem twoBridges_quiescent : twoBridges.Quiescent := by
  constructor
  · decide
  · intro b i p s h _
    refine ⟨false, s.toNat, _, attached_twoBridges false s, ?_⟩
    obtain ⟨hi, rfl, rfl⟩ := twoBridges_attached h
    rcases i with _ | i <;> rfl
  · intro b i p s h hdes
    obtain rfl := twoBridges_designated h hdes
    exact (by decide : (0 : BitVec 16) < 5120)
  · intro b i p s h hdes b' i' p' h' hne
    obtain rfl := twoBridges_designated h hdes
    obtain ⟨hi, rfl, rfl⟩ := twoBridges_attached h
    obtain ⟨hi', rfl, hs⟩ := twoBridges_attached h'
    have hall : ∀ i < 2, ∀ b', ∀ i' < cond b' 3 2, (b', i') ≠ (false, i) →
        decide (i ≠ 0) = decide (i' ≠ 0) →
        (stpReceivedConfigBpdu (twoBridges.bridge b') i'
          (configOf (twoBridges.bridge false) (linkPort i))).infos = (twoBridges.bridge b').infos := by
      decide
    exact hall i hi b' i' hi' hne hs

theorem twoBridges_spanningTree :
    (∃ r, ∀ b, (twoBridges.bridge r).bridgeId ≤ (twoBridges.bridge b).bridgeId ∧
      (twoBridges.bridge b).designatedRoot = (twoBridges.bridge r).bridgeId) ∧
    (twoBridges.graph twoBridges.TreePort).IsTree := by
  have hconn := connected_of_hub false (fun s => ⟨_, _, attached_twoBridges false s.1⟩)
    fun b => ⟨_, _, _, attached_twoBridges b false⟩
  have hcost : twoBridges.LoopsCost := by
    intro b i p i' p' s h h' hlt
    rw [(twoBridges_attached h).2.1]
    exact (by decide : (19 : BitVec 32) ≠ 0)
  obtain ⟨hroot, -, htree, -⟩ := quiescent_spanningTree twoBridges hconn twoBridges_quiescent hcost
  exact ⟨hroot, htree⟩

/-- A bridge with two ports on one segment, both of path cost 0, which takes a bridge that does
    not exist for the root. -/
def loopedBridge : Network Unit Unit where
  bridge _ := bridgeOf 5 1 0 (some 1)
    [portOf 0x8001 0 ⟨1, 0, 5, 0x8001⟩, portOf 0x8002 0 ⟨1, 0, 5, 0x8001⟩]
  segment _ _ := ()
  distinct := by decide
  portIds := by
    rintro _ (_ | _ | i) p hp <;> cases hp <;> rfl

theorem loopedBridge_attached {b s : Unit} (h : loopedBridge.Attached b i p s) :
    (i = 0 ∧ p = portOf 0x8001 0 ⟨1, 0, 5, 0x8001⟩) ∨
      (i = 1 ∧ p = portOf 0x8002 0 ⟨1, 0, 5, 0x8001⟩) := by
  obtain ⟨hp, -, -⟩ := h
  rcases i with _ | _ | i
  · cases hp
    exact .inl ⟨rfl, rfl⟩
  · cases hp
    exact .inr ⟨rfl, rfl⟩
  · cases hp

theorem attached_loopedBridge : loopedBridge.Attached () 0 (portOf 0x8001 0 ⟨1, 0, 5, 0x8001⟩) () :=
  ⟨rfl, by decide, rfl⟩

theorem loopedBridge_quiescent : loopedBridge.Quiescent := by
  constructor
  · decide
  · intro b i p s h _
    refine ⟨(), 0, _, attached_loopedBridge, ?_⟩
    rcases loopedBridge_attached h with ⟨rfl, rfl⟩ | ⟨rfl, rfl⟩ <;> rfl
  · rintro ⟨⟩ i p s h _
    rcases loopedBridge_attached h with ⟨rfl, rfl⟩ | ⟨rfl, rfl⟩ <;> decide
  · rintro ⟨⟩ i p s h hdes ⟨⟩ i' p' h' hne
    rcases loopedBridge_attached h with ⟨rfl, rfl⟩ | ⟨rfl, rfl⟩
    · rcases loopedBridge_attached h' with ⟨rfl, rfl⟩ | ⟨rfl, rfl⟩
      · exact absurd rfl hne
      · decide
    · exact absurd hdes (by decide)

/-- With path costs of 0 a quiescent bridge can have a root that does not exist. -/
theorem loopedBridge_no_root : (loopedBridge.graph fun _ _ _ => True).Connected ∧
    loopedBridge.Quiescent ∧
    ¬ ∃ r, ∀ b, (loopedBridge.bridge b).designatedRoot = (loopedBridge.bridge r).bridgeId := by
  refine ⟨?_, loopedBridge_quiescent, by decide⟩
  exact connected_of_hub () (fun _ => ⟨_, _, attached_loopedBridge⟩) fun _ =>
    ⟨_, _, _, attached_loopedBridge⟩

end Network

end Ovsgw.Bridging
