/-
  **A spanning tree bridge** (`lib/stp.c`): how it selects its root and its designated ports,
  and what it does with a config BPDU.

  The BPDUs that a bridge sends are kept in the order in which it sends them.  A pointer to a
  port is the position of the port in the array.
-/
import Mathlib.Data.BitVec

namespace Ovsgw.Bridging

/-! ## 1. Bridges and BPDUs -/

inductive State where
  | disabled | listening | learning | forwarding | blocking
deriving DecidableEq

structure Timer where
  active : Bool := false
  value : Nat := 0
deriving DecidableEq

/-- The identifiers that a port records about the segment it is attached to. -/
structure Info where
  designatedRoot : BitVec 64
  designatedCost : BitVec 32
  designatedBridge : BitVec 64
  designatedPort : BitVec 16
deriving DecidableEq

structure Port extends Info where
  portId : BitVec 16
  state : State
  pathCost : BitVec 32
  topologyChangeAck : Bool := false
  configPending : Bool := false
  changeDetectionEnabled : Bool := true
  messageAgeTimer : Timer := {}
  forwardDelayTimer : Timer := {}
  holdTimer : Timer := {}
  stateChanged : Bool := false
deriving DecidableEq

structure ConfigBpdu where
  topologyChangeAck : Bool := false
  topologyChange : Bool := false
  rootId : BitVec 64
  rootPathCost : BitVec 32
  bridgeId : BitVec 64
  portId : BitVec 16
  messageAge : BitVec 16
  maxAge : BitVec 16
  helloTime : BitVec 16
  forwardDelay : BitVec 16
deriving DecidableEq

inductive Bpdu where
  | config (config : ConfigBpdu)
  | tcn
deriving DecidableEq

/-- `struct stp`.  `sent` has the number of the port with each BPDU that was sent. -/
structure Stp where
  bridgeId : BitVec 64
  maxAge : Nat
  helloTime : Nat
  forwardDelay : Nat
  designatedRoot : BitVec 64
  rootPathCost : BitVec 32
  rootPort : Option Nat
  topologyChangeDetected : Bool := false
  topologyChange : Bool := false
  helloTimer : Timer := {}
  tcnTimer : Timer := {}
  topologyChangeTimer : Timer := {}
  ports : List Port
  fdbNeedsFlush : Bool := false
  firstChangedPort : Nat
  sent : List (Nat × Bpdu) := []
deriving DecidableEq

def stpStartTimer (value : Nat) : Timer := { active := true, value }

def stpStopTimer (timer : Timer) : Timer := { timer with active := false }

def Stp.modifyPort (stp : Stp) (i : Nat) (f : Port → Port) : Stp :=
  { stp with ports := stp.ports.modify i f }

def Stp.forEachEnabledPort (stp : Stp) (body : Stp → Nat → Port → Stp) : Stp :=
  (List.range stp.ports.length).foldl (fun stp i =>
    match stp.ports[i]? with
    | none => stp
    | some p => if p.state = .disabled then stp else body stp i p) stp

def stpIsRootBridge (stp : Stp) : Bool := stp.bridgeId = stp.designatedRoot

def stpIsDesignatedPort (stp : Stp) (p : Port) : Bool :=
  p.designatedBridge = stp.bridgeId && p.designatedPort = p.portId

/-! ## 2. Selection -/

def stpSupersedesRoot (root p : Port) : Bool :=
  let pCost := p.designatedCost + p.pathCost
  let rootCost := root.designatedCost + root.pathCost
  if p.designatedRoot ≠ root.designatedRoot then p.designatedRoot < root.designatedRoot
  else if pCost ≠ rootCost then pCost.slt rootCost
  else if p.designatedBridge ≠ root.designatedBridge then
    p.designatedBridge < root.designatedBridge
  else if p.designatedPort ≠ root.designatedPort then p.designatedPort < root.designatedPort
  else p.portId < root.portId

def considerRoot (stp : Stp) (root : Option (Port × Nat)) : Port × Nat → Option (Port × Nat)
  | (p, i) =>
    if p.state = .disabled then root
    else if stpIsDesignatedPort stp p || p.designatedRoot ≥ stp.bridgeId then root
    else
      match root with
      | some (r, _) => if !stpSupersedesRoot r p then root else some (p, i)
      | none => some (p, i)

def stpRootSelection (stp : Stp) : Stp :=
  match stp.ports.zipIdx.foldl (considerRoot stp) none with
  | none =>
    { stp with rootPort := none, designatedRoot := stp.bridgeId, rootPathCost := 0 }
  | some (root, i) =>
    { stp with rootPort := some i, designatedRoot := root.designatedRoot
               rootPathCost := root.designatedCost + root.pathCost }

/-- The identifiers that a port sends when it is designated. -/
def ownInfo (stp : Stp) (p : Port) : Info :=
  { designatedRoot := stp.designatedRoot
    designatedCost := stp.rootPathCost
    designatedBridge := stp.bridgeId
    designatedPort := p.portId }

def stpBecomeDesignatedPort (stp : Stp) (p : Port) : Port := { p with toInfo := ownInfo stp p }

/-- The condition in `stp_designated_port_selection`. -/
def selectsDesignated (stp : Stp) (p : Port) : Bool :=
  stpIsDesignatedPort stp p
    || p.designatedRoot ≠ stp.designatedRoot
    || stp.rootPathCost < p.designatedCost
    || (stp.rootPathCost = p.designatedCost
        && (stp.bridgeId < p.designatedBridge
            || (stp.bridgeId = p.designatedBridge && p.portId ≤ p.designatedPort)))

def stpDesignatedPortSelection (stp : Stp) : Stp :=
  { stp with ports := stp.ports.map fun p =>
      if p.state ≠ .disabled ∧ selectsDesignated stp p then stpBecomeDesignatedPort stp p else p }

def stpConfigurationUpdate (stp : Stp) : Stp :=
  stpDesignatedPortSelection (stpRootSelection stp)

/-! ## 3. Transmission -/

def stpSendBpdu (stp : Stp) (i : Nat) (bpdu : Bpdu) : Stp :=
  { stp with sent := stp.sent ++ [(i, bpdu)] }

/-- The message age of a config BPDU: that of what the root port has recorded, and one more. -/
def messageAge (stp : Stp) : BitVec 16 :=
  if stpIsRootBridge stp then 0
  else
    let root := stp.rootPort.bind fun i => stp.ports[i]?
    BitVec.ofNat 16 ((root.map (·.messageAgeTimer.value)).getD 0 + 1)

def configOf (stp : Stp) (p : Port) : ConfigBpdu :=
  { topologyChangeAck := p.topologyChangeAck
    topologyChange := stp.topologyChange
    rootId := stp.designatedRoot
    rootPathCost := stp.rootPathCost
    bridgeId := stp.bridgeId
    portId := p.portId
    messageAge := messageAge stp
    maxAge := BitVec.ofNat 16 stp.maxAge
    helloTime := BitVec.ofNat 16 stp.helloTime
    forwardDelay := BitVec.ofNat 16 stp.forwardDelay }

def stpTransmitConfig (stp : Stp) (i : Nat) (p : Port) : Stp :=
  if !stpIsRootBridge stp && stp.rootPort.isNone then stp
  else if p.holdTimer.active then stp.modifyPort i fun p => { p with configPending := true }
  else
    let config := configOf stp p
    if config.messageAge.toNat < stp.maxAge then
      let stp := stp.modifyPort i fun p =>
        { p with topologyChangeAck := false, configPending := false }
      let stp := stpSendBpdu stp i (.config config)
      stp.modifyPort i fun p => { p with holdTimer := stpStartTimer 0 }
    else stp

def stpConfigBpduGeneration (stp : Stp) : Stp :=
  stp.forEachEnabledPort fun stp i p =>
    if stpIsDesignatedPort stp p then stpTransmitConfig stp i p else stp

def stpTransmitTcn (stp : Stp) : Stp :=
  match stp.rootPort with
  | none => stp
  | some i => stpSendBpdu stp i .tcn

/-! ## 4. Port states -/

def stpSetPortState (stp : Stp) (i : Nat) (p : Port) (state : State) : Stp :=
  let changed := decide (state ≠ p.state) && !p.stateChanged
  let stp := if changed && i < stp.firstChangedPort then { stp with firstChangedPort := i } else stp
  stp.modifyPort i fun p => { p with state, stateChanged := p.stateChanged || changed }

def stpTopologyChangeDetection (stp : Stp) : Stp :=
  let stp :=
    if stpIsRootBridge stp then
      { stp with topologyChange := true, topologyChangeTimer := stpStartTimer 0 }
    else if !stp.topologyChangeDetected then
      { stpTransmitTcn stp with tcnTimer := stpStartTimer 0 }
    else stp
  { stp with fdbNeedsFlush := true, topologyChangeDetected := true }

def stpTopologyChangeAcknowledged (stp : Stp) : Stp :=
  { stp with topologyChangeDetected := false, tcnTimer := stpStopTimer stp.tcnTimer }

def stpMakeForwarding (stp : Stp) (i : Nat) (p : Port) : Stp :=
  if p.state = .blocking then
    (stpSetPortState stp i p .listening).modifyPort i fun p =>
      { p with forwardDelayTimer := stpStartTimer 0 }
  else stp

def stpMakeBlocking (stp : Stp) (i : Nat) (p : Port) : Stp :=
  if p.state ≠ .disabled ∧ p.state ≠ .blocking then
    let stp :=
      if (p.state = .forwarding ∨ p.state = .learning) ∧ p.changeDetectionEnabled then
        stpTopologyChangeDetection stp
      else stp
    (stpSetPortState stp i p .blocking).modifyPort i fun p =>
      { p with forwardDelayTimer := stpStopTimer p.forwardDelayTimer }
  else stp

def stpPortStateSelection (stp : Stp) : Stp :=
  stp.forEachEnabledPort fun stp i p =>
    if stp.rootPort = some i then
      stpMakeForwarding (stp.modifyPort i fun p =>
        { p with configPending := false, topologyChangeAck := false }) i p
    else if stpIsDesignatedPort stp p then
      stpMakeForwarding (stp.modifyPort i fun p =>
        { p with messageAgeTimer := stpStopTimer p.messageAgeTimer }) i p
    else
      stpMakeBlocking (stp.modifyPort i fun p =>
        { p with configPending := false, topologyChangeAck := false }) i p

/-! ## 5. Reception -/

def stpSupersedesPortInfo (stp : Stp) (p : Port) (config : ConfigBpdu) : Bool :=
  if config.rootId ≠ p.designatedRoot then config.rootId < p.designatedRoot
  else if config.rootPathCost ≠ p.designatedCost then config.rootPathCost < p.designatedCost
  else if config.bridgeId ≠ p.designatedBridge then config.bridgeId < p.designatedBridge
  else config.bridgeId ≠ stp.bridgeId || config.portId ≤ p.designatedPort

def ConfigBpdu.info (config : ConfigBpdu) : Info :=
  { designatedRoot := config.rootId
    designatedCost := config.rootPathCost
    designatedBridge := config.bridgeId
    designatedPort := config.portId }

def stpRecordConfigInformation (config : ConfigBpdu) (p : Port) : Port :=
  { p with toInfo := config.info, messageAgeTimer := stpStartTimer config.messageAge.toNat }

def stpRecordConfigTimeoutValues (stp : Stp) (config : ConfigBpdu) : Stp :=
  { stp with
    maxAge := config.maxAge.toNat
    helloTime := config.helloTime.toNat
    forwardDelay := config.forwardDelay.toNat
    topologyChange := config.topologyChange }

def stopBeingRoot (stp : Stp) : Stp :=
  let stp := { stp with helloTimer := stpStopTimer stp.helloTimer }
  if stp.topologyChangeDetected then
    let stp := { stp with topologyChangeTimer := stpStopTimer stp.topologyChangeTimer }
    { stpTransmitTcn stp with tcnTimer := stpStartTimer 0 }
  else stp

/-- What a bridge does with a config BPDU that it received at its root port. -/
def receivedAtRootPort (stp : Stp) (config : ConfigBpdu) : Stp :=
  let stp := stpConfigBpduGeneration (stpRecordConfigTimeoutValues stp config)
  let stp := if config.topologyChangeAck then stpTopologyChangeAcknowledged stp else stp
  if config.topologyChange then { stp with fdbNeedsFlush := true } else stp

def stpReceivedConfigBpdu (stp : Stp) (i : Nat) (config : ConfigBpdu) : Stp :=
  if config.messageAge ≥ config.maxAge then stp
  else
    match stp.ports[i]? with
    | none => stp
    | some p =>
      if p.state = .disabled then stp
      else
        let root := stpIsRootBridge stp
        if stpSupersedesPortInfo stp p config then
          let stp := stp.modifyPort i (stpRecordConfigInformation config)
          let stp := stpPortStateSelection (stpConfigurationUpdate stp)
          let stp := if !stpIsRootBridge stp && root then stopBeingRoot stp else stp
          if stp.rootPort = some i then receivedAtRootPort stp config else stp
        else if stpIsDesignatedPort stp p then stpTransmitConfig stp i p
        else stp

end Ovsgw.Bridging
