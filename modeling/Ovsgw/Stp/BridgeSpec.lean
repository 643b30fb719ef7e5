/-
  **What a spanning tree bridge selects and records**: the root port leads to the least root
  that a port has heard of, a bridge that `stp_configuration_update` leaves as it is has
  recorded something better at every port that is not designated, and a port does not keep
  what it has recorded when a better config BPDU comes in.
-/
import Mathlib.Data.Prod.Lex
import Ovsgw.Stp.Bridge

namespace Ovsgw.Bridging

open List

section
variable {stp : Stp} {p q : Port} {i : Nat} {config : ConfigBpdu} {v w : Info}

/-! ## 1. The order of the identifiers -/

/-- Identifiers are compared one after the other. -/
def Info.key (v : Info) : ℕ ×ₗ ℕ ×ₗ ℕ ×ₗ ℕ :=
  toLex (v.designatedRoot.toNat, toLex (v.designatedCost.toNat,
    toLex (v.designatedBridge.toNat, v.designatedPort.toNat)))

theorem Info.key_lt_iff : v.key < w.key ↔ v.designatedRoot < w.designatedRoot ∨
    v.designatedRoot = w.designatedRoot ∧ (v.designatedCost < w.designatedCost ∨
      v.designatedCost = w.designatedCost ∧ (v.designatedBridge < w.designatedBridge ∨
        v.designatedBridge = w.designatedBridge ∧ v.designatedPort < w.designatedPort)) := by
  simp only [Info.key, Prod.Lex.toLex_lt_toLex, BitVec.lt_def, BitVec.toNat_inj]

theorem Info.key_injective : Function.Injective Info.key := by
  intro v w h
  simp only [Info.key, EmbeddingLike.apply_eq_iff_eq, Prod.mk.injEq, BitVec.toNat_inj] at h
  cases v
  cases w
  simp_all

theorem stpSupersedesPortInfo_of_lt (h : config.info.key < p.toInfo.key) :
    stpSupersedesPortInfo stp p config = true := by
  rw [Info.key_lt_iff] at h
  unfold stpSupersedesPortInfo
  simp only [ConfigBpdu.info] at h
  split
  · grind
  · grind

/-! ## 2. Selection -/

/-- The ports that `stp_root_selection` takes into account. -/
def Candidate (stp : Stp) (p : Port) : Prop :=
  p.state ≠ .disabled ∧ stpIsDesignatedPort stp p = false ∧ p.designatedRoot < stp.bridgeId

theorem stpSupersedesRoot_le (h : stpSupersedesRoot q p = true) :
    p.designatedRoot ≤ q.designatedRoot := by
  unfold stpSupersedesRoot at h
  grind

theorem le_of_not_stpSupersedesRoot (h : stpSupersedesRoot q p = false) :
    q.designatedRoot ≤ p.designatedRoot := by
  unfold stpSupersedesRoot at h
  grind

/-- A port with a root that is not larger than `root`. -/
def AtMost (root : BitVec 64) (found : Option (Port × Nat)) : Prop :=
  ∃ r, found = some r ∧ r.1.designatedRoot ≤ root

theorem considerRoot_cases (stp : Stp) (root : Option (Port × Nat)) (c : Port × Nat) :
    (¬ Candidate stp c.1 ∧ considerRoot stp root c = root) ∨
    (Candidate stp c.1 ∧ considerRoot stp root c = some c ∧
      ∀ r, root = some r → stpSupersedesRoot r.1 c.1 = true) ∨
    (Candidate stp c.1 ∧ ∃ r, considerRoot stp root c = some r ∧ root = some r ∧
      stpSupersedesRoot r.1 c.1 = false) := by
  obtain ⟨p, i⟩ := c
  by_cases hp : Candidate stp p
  · obtain ⟨hstate, hdes, hroot⟩ := id hp
    have hle := BitVec.not_le.mpr hroot
    right
    cases root with
    | none =>
      left
      simp [considerRoot, hstate, hdes, hle, hp]
    | some r =>
      cases hsup : stpSupersedesRoot r.1 p with
      | true =>
        left
        simp [considerRoot, hstate, hdes, hle, hsup, hp]
      | false =>
        right
        simp [considerRoot, hstate, hdes, hle, hsup, hp]
  · left
    refine ⟨hp, ?_⟩
    by_cases hstate : p.state = .disabled
    · simp [considerRoot, hstate]
    · cases hdes : stpIsDesignatedPort stp p with
      | true => simp [considerRoot, hdes]
      | false =>
        have hle : stp.bridgeId ≤ p.designatedRoot :=
          BitVec.not_lt.mp fun h => hp ⟨hstate, hdes, h⟩
        simp [considerRoot, hle]

variable {root : Option (Port × Nat)} {ports : List (Port × Nat)} {bound : BitVec 64}

theorem considerRoot_atMost {c : Port × Nat}
    (h : AtMost bound root ∨ (Candidate stp c.1 ∧ c.1.designatedRoot ≤ bound)) :
    AtMost bound (considerRoot stp root c) := by
  rcases considerRoot_cases stp root c with ⟨hc, heq⟩ | ⟨hc, heq, hsup⟩ | ⟨hc, r, heq, rfl, hsup⟩
  · rw [heq]
    exact h.resolve_right fun h => hc h.1
  · refine ⟨c, heq, ?_⟩
    rcases h with ⟨r, hr, hle⟩ | h
    · exact BitVec.le_trans (stpSupersedesRoot_le (hsup r hr)) hle
    · exact h.2
  · refine ⟨r, heq, ?_⟩
    rcases h with ⟨r', hr, hle⟩ | h
    · cases hr
      exact hle
    · exact BitVec.le_trans (le_of_not_stpSupersedesRoot hsup) h.2

theorem foldl_considerRoot_atMost (h : AtMost bound root ∨
      ∃ c ∈ ports, Candidate stp c.1 ∧ c.1.designatedRoot ≤ bound) :
    AtMost bound (ports.foldl (considerRoot stp) root) := by
  induction ports generalizing root with
  | nil =>
    rcases h with h | ⟨c, hc, -⟩
    · exact h
    · cases hc
  | cons first ports ih =>
    apply ih
    rcases h with h | ⟨c, hc, hcand⟩
    · exact .inl (considerRoot_atMost (.inl h))
    · rcases mem_cons.mp hc with rfl | hc
      · exact .inl (considerRoot_atMost (.inr hcand))
      · exact .inr ⟨c, hc, hcand⟩

theorem foldl_considerRoot_mem {r : Port × Nat} (h : ports.foldl (considerRoot stp) root = some r) :
    root = some r ∨ (r ∈ ports ∧ Candidate stp r.1) := by
  induction ports generalizing root with
  | nil => exact .inl h
  | cons first ports ih =>
    rcases ih h with hroot | ⟨hmem, hcand⟩
    · rcases considerRoot_cases stp root first with ⟨-, heq⟩ | ⟨hc, heq, -⟩ | ⟨-, r', heq, rfl, -⟩
      · exact .inl (heq.symm.trans hroot)
      · rw [heq] at hroot
        cases hroot
        exact .inr ⟨mem_cons_self, hc⟩
      · exact .inl (heq.symm.trans hroot)
    · exact .inr ⟨mem_cons_of_mem _ hmem, hcand⟩

/-- What `stp_root_selection` selects. -/
structure Selected (stp : Stp) : Prop where
  ofNone : stp.rootPort = none → stp.designatedRoot = stp.bridgeId ∧ stp.rootPathCost = 0
  ofSome : ∀ i, stp.rootPort = some i → ∃ p, stp.ports[i]? = some p ∧ Candidate stp p ∧
    stp.designatedRoot = p.designatedRoot ∧ stp.rootPathCost = p.designatedCost + p.pathCost
  least : ∀ (i : Nat) (p : Port), stp.ports[i]? = some p → Candidate stp p →
    stp.designatedRoot ≤ p.designatedRoot

theorem Selected.le_bridgeId (h : Selected stp) : stp.designatedRoot ≤ stp.bridgeId := by
  cases hroot : stp.rootPort with
  | none =>
    rw [(h.ofNone hroot).1]
    exact BitVec.le_refl _
  | some i =>
    obtain ⟨p, -, hcand, heq, -⟩ := h.ofSome i hroot
    rw [heq]
    exact BitVec.le_of_lt hcand.2.2

theorem stpRootSelection_selected (stp : Stp) : Selected (stpRootSelection stp) := by
  have hleast : ∀ (i : Nat) (p : Port), stp.ports[i]? = some p → Candidate stp p →
      AtMost p.designatedRoot (stp.ports.zipIdx.foldl (considerRoot stp) none) := by
    intro i p hp hcand
    apply foldl_considerRoot_atMost
    right
    exact ⟨(p, i), mem_zipIdx_iff_getElem?.mpr hp, hcand, BitVec.le_refl _⟩
  unfold stpRootSelection
  split
  next hfold =>
    constructor
    · intro _
      exact ⟨rfl, rfl⟩
    · intro i hi
      cases hi
    · intro i p hp hcand
      obtain ⟨r, hr, -⟩ := hleast i p hp hcand
      rw [hfold] at hr
      cases hr
  next root i hfold =>
    constructor
    · intro h
      cases h
    · intro j hj
      cases hj
      obtain ⟨hmem, hcand⟩ := (foldl_considerRoot_mem hfold).resolve_left nofun
      exact ⟨root, mem_zipIdx_iff_getElem?.mp hmem, hcand, rfl, rfl⟩
    · intro j p hp hcand
      obtain ⟨r, hr, hle⟩ := hleast j p hp hcand
      rw [hfold] at hr
      cases hr
      exact hle

@[simp] theorem stpRootSelection_ports (stp : Stp) : (stpRootSelection stp).ports = stp.ports := by
  unfold stpRootSelection
  split <;> rfl

@[simp] theorem stpRootSelection_bridgeId (stp : Stp) :
    (stpRootSelection stp).bridgeId = stp.bridgeId := by
  unfold stpRootSelection
  split <;> rfl

/-- A bridge that `stp_configuration_update` does not change. -/
structure Stable (stp : Stp) : Prop where
  selected : Selected stp
  designated : ∀ (i : Nat) (p : Port), stp.ports[i]? = some p → p.state ≠ .disabled →
    stpIsDesignatedPort stp p = true → p.toInfo = ownInfo stp p
  other : ∀ (i : Nat) (p : Port), stp.ports[i]? = some p → p.state ≠ .disabled →
    stpIsDesignatedPort stp p = false → p.designatedRoot = stp.designatedRoot ∧
      p.toInfo.key < (ownInfo stp p).key

theorem selectsDesignated_iff : selectsDesignated stp p = false ↔
    stpIsDesignatedPort stp p = false ∧ p.designatedRoot = stp.designatedRoot ∧
      p.toInfo.key < (ownInfo stp p).key := by
  rw [Info.key_lt_iff]
  simp only [selectsDesignated, ownInfo, Bool.or_eq_false_iff, Bool.and_eq_false_iff,
    decide_eq_false_iff_not, ne_eq, not_not, BitVec.lt_def, BitVec.le_def, BitVec.toNat_eq]
  constructor
  · rintro ⟨⟨⟨hdes, hroot⟩, hcost⟩, hbridge⟩
    refine ⟨hdes, hroot, .inr ⟨hroot, ?_⟩⟩
    omega
  · rintro ⟨hdes, hroot, hlt⟩
    refine ⟨⟨⟨hdes, hroot⟩, ?_⟩, ?_⟩ <;> omega

theorem stable_of_update (h : stpConfigurationUpdate stp = stp) : Stable stp := by
  have hsel : stpRootSelection stp = stp := by
    calc stpRootSelection stp
        = { stpConfigurationUpdate stp with ports := (stpRootSelection stp).ports } := rfl
      _ = { stp with ports := stp.ports } := by rw [h, stpRootSelection_ports]
      _ = stp := rfl
  have hdes : stpDesignatedPortSelection stp = stp := by
    rw [stpConfigurationUpdate, hsel] at h
    exact h
  have hport : ∀ (i : Nat) (p : Port), stp.ports[i]? = some p → p.state ≠ .disabled →
      selectsDesignated stp p = true → p.toInfo = ownInfo stp p := by
    intro i p hp hstate hsel
    have hget : (stpDesignatedPortSelection stp).ports[i]? = some p := by rw [hdes, hp]
    simp only [stpDesignatedPortSelection, getElem?_map, hp, Option.map_some,
      Option.some.injEq] at hget
    rw [if_pos ⟨hstate, hsel⟩] at hget
    rw [← hget]
    rfl
  constructor
  · have := stpRootSelection_selected stp
    rwa [hsel] at this
  · intro i p hp hstate hd
    apply hport i p hp hstate
    simp [selectsDesignated, hd]
  · intro i p hp hstate hd
    have hfalse : selectsDesignated stp p = false := by
      by_contra hcon
      have heq := hport i p hp hstate (by simpa using hcon)
      have hd' : stpIsDesignatedPort stp p = true := by
        simp only [stpIsDesignatedPort, heq, ownInfo, decide_true, Bool.and_self]
      rw [hd] at hd'
      cases hd'
    exact (selectsDesignated_iff.mp hfalse).2

/-! ## 3. Reception -/

/-- The identifiers that the ports of a bridge have recorded. -/
def Stp.infos (stp : Stp) : List Info := stp.ports.map Port.toInfo

section

variable (stp : Stp)

theorem infos_modifyPort {f : Port → Port} (hf : ∀ p, (f p).toInfo = p.toInfo) :
    (stp.modifyPort i f).infos = stp.infos := by
  apply ext_getElem?
  intro j
  simp only [Stp.infos, Stp.modifyPort, getElem?_map, getElem?_modify]
  cases stp.ports[j]? with
  | none => rfl
  | some p =>
    by_cases h : i = j
    · simp [h, hf]
    · simp [h]

theorem infos_forEachEnabledPort {body : Stp → Nat → Port → Stp}
    (hbody : ∀ stp i p, (body stp i p).infos = stp.infos) :
    (stp.forEachEnabledPort body).infos = stp.infos := by
  unfold Stp.forEachEnabledPort
  generalize List.range stp.ports.length = indices
  induction indices generalizing stp with
  | nil => rfl
  | cons i indices ih =>
    rw [foldl_cons, ih]
    split
    · rfl
    · split
      · rfl
      · apply hbody

@[simp] theorem infos_stpTransmitConfig (i : Nat) (p : Port) :
    (stpTransmitConfig stp i p).infos = stp.infos := by
  unfold stpTransmitConfig
  split
  · rfl
  split
  · simp [infos_modifyPort]
  dsimp only
  split
  · rw [infos_modifyPort _ (by simp)]
    exact infos_modifyPort _ (by simp)
  · rfl

@[simp] theorem infos_stpTransmitTcn : (stpTransmitTcn stp).infos = stp.infos := by
  unfold stpTransmitTcn
  split <;> rfl

@[simp] theorem infos_stpSetPortState (i : Nat) (p : Port) (state : State) :
    (stpSetPortState stp i p state).infos = stp.infos := by
  unfold stpSetPortState
  rw [infos_modifyPort _ (by simp)]
  split <;> rfl

theorem infos_stpTopologyChangeDetection : (stpTopologyChangeDetection stp).infos = stp.infos := by
  unfold stpTopologyChangeDetection
  change Stp.infos (ite _ _ _) = _
  split
  · rfl
  · split
    · exact infos_stpTransmitTcn stp
    · rfl

@[simp] theorem infos_stpMakeForwarding (i : Nat) (p : Port) :
    (stpMakeForwarding stp i p).infos = stp.infos := by
  unfold stpMakeForwarding
  split
  · simp [infos_modifyPort]
  · rfl

@[simp] theorem infos_stpMakeBlocking (i : Nat) (p : Port) :
    (stpMakeBlocking stp i p).infos = stp.infos := by
  unfold stpMakeBlocking
  split
  · rw [infos_modifyPort _ (by simp), infos_stpSetPortState]
    split
    · exact infos_stpTopologyChangeDetection stp
    · rfl
  · rfl

theorem infos_stpPortStateSelection : (stpPortStateSelection stp).infos = stp.infos := by
  apply infos_forEachEnabledPort
  intro stp i p
  split
  · simp [infos_modifyPort]
  · split <;> simp [infos_modifyPort]

theorem infos_stopBeingRoot : (stopBeingRoot stp).infos = stp.infos := by
  unfold stopBeingRoot
  dsimp only
  split
  · exact infos_stpTransmitTcn _
  · rfl

theorem infos_receivedAtRootPort : (receivedAtRootPort stp config).infos = stp.infos := by
  have hgen : (stpConfigBpduGeneration (stpRecordConfigTimeoutValues stp config)).infos =
      stp.infos := by
    apply infos_forEachEnabledPort
    intro stp i p
    split
    · simp
    · rfl
  rw [← hgen]
  unfold receivedAtRootPort
  dsimp only
  split <;> split <;> rfl

end

section

variable (hp : stp.ports[i]? = some p) (hstate : p.state ≠ .disabled)
  (hage : config.messageAge < config.maxAge) (hlt : config.info.key < p.toInfo.key)
include hp hstate hage hlt

/-- After a better config BPDU the identifiers are those of `stp_configuration_update`. -/
theorem infos_stpReceivedConfigBpdu : (stpReceivedConfigBpdu stp i config).infos =
      (stpConfigurationUpdate (stp.modifyPort i (stpRecordConfigInformation config))).infos := by
  unfold stpReceivedConfigBpdu
  rw [if_neg (BitVec.not_le.mpr hage), hp]
  dsimp only
  rw [if_neg hstate, if_pos (stpSupersedesPortInfo_of_lt hlt)]
  split <;> split <;>
    simp only [infos_receivedAtRootPort, infos_stopBeingRoot, infos_stpPortStateSelection]

theorem stpReceivedConfigBpdu_ne
    (hother : ¬ (config.bridgeId = stp.bridgeId ∧ config.portId = p.portId)) :
    (stpReceivedConfigBpdu stp i config).infos ≠ stp.infos := by
  rw [infos_stpReceivedConfigBpdu hp hstate hage hlt]
  set recorded := stpRootSelection (stp.modifyPort i (stpRecordConfigInformation config))
    with hrecorded
  set r := stpRecordConfigInformation config p with hr
  have hget : recorded.ports[i]? = some r := by
    rw [hrecorded, stpRootSelection_ports]
    simp [Stp.modifyPort, hp, hr]
  have hbridge : recorded.bridgeId = stp.bridgeId := stpRootSelection_bridgeId _
  have hselected : Selected recorded := stpRootSelection_selected _
  intro heq
  have hinfo := congrArg (fun infos => infos[i]?) heq
  simp only [Stp.infos, stpConfigurationUpdate, ← hrecorded, stpDesignatedPortSelection,
    map_map, getElem?_map, hget, hp, Option.map_some, Option.some.injEq,
    Function.comp_apply] at hinfo
  split at hinfo
  next hsel =>
    -- The port can not be designated again with the identifiers that it had before.
    have hown : ownInfo recorded r = p.toInfo := hinfo
    have hdes : stpIsDesignatedPort recorded r = false := by
      rw [stpIsDesignatedPort, hbridge, Bool.and_eq_false_iff, decide_eq_false_iff_not,
        decide_eq_false_iff_not]
      exact not_and_or.mp hother
    have hroot : r.designatedRoot = recorded.designatedRoot := by
      have hown' : recorded.designatedRoot = p.designatedRoot :=
        congrArg Info.designatedRoot hown
      rcases Info.key_lt_iff.mp hlt with hless | ⟨hsame, -⟩
      · have hless' : r.designatedRoot < recorded.designatedRoot := hown' ▸ hless
        have hcand : Candidate recorded r :=
          ⟨hsel.1, hdes, Nat.lt_of_lt_of_le hless' hselected.le_bridgeId⟩
        exact absurd (hselected.least i r hget hcand) (BitVec.not_le.mpr hless')
      · exact hsame.trans hown'.symm
    have hfalse := selectsDesignated_iff.mpr ⟨hdes, hroot, hown ▸ hlt⟩
    rw [hfalse] at hsel
    exact absurd hsel.2 (by decide)
  · exact hlt.ne (congrArg Info.key hinfo)

end

end

end Ovsgw.Bridging
