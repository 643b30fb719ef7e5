/-
  **Extracting a flow from a packet** (`miniflow_extract` in `lib/flow.c`), with its parsers of
  VLAN tags, MPLS labels, IPv6 extension headers, neighbour discovery and NSH.
-/
import Ovsgw.Flow.Types

namespace Ovsgw.Headers

open Lib (Byte)

def ethTypeIp : BitVec 16 := 0x0800

def ethTypeArp : BitVec 16 := 0x0806

def ethTypeRarp : BitVec 16 := 0x8035

def ethTypeIpv6 : BitVec 16 := 0x86dd

def ethTypeNsh : BitVec 16 := 0x894f

def ethTypeMin : BitVec 16 := 0x600

def flowDlTypeNone : BitVec 16 := 0x5ff

def ethTypeVlan (ethType : BitVec 16) : Bool := ethType = 0x8100 || ethType = 0x88a8

def ethTypeMpls (ethType : BitVec 16) : Bool := ethType = 0x8847 || ethType = 0x8848

def vlanCfi : BitVec 16 := 0x1000

def ipprotoHopopts : BitVec 8 := 0

def ipprotoIcmp : BitVec 8 := 1

def ipprotoIgmp : BitVec 8 := 2

def ipprotoTcp : BitVec 8 := 6

def ipprotoUdp : BitVec 8 := 17

def ipprotoRouting : BitVec 8 := 43

def ipprotoFragment : BitVec 8 := 44

def ipprotoAh : BitVec 8 := 51

def ipprotoIcmpv6 : BitVec 8 := 58

def ipprotoDstopts : BitVec 8 := 60

def ipprotoSctp : BitVec 8 := 132

def flowNwFragAny : BitVec 8 := 1

def flowNwFragLater : BitVec 8 := 2

/-! ## 1. Link layer -/

def vlanLoop : (limit : Nat) → Cursor → Cursor × List VlanHdr
  | 0, c => (c, [])
  | limit + 1, c =>
    if ethTypeVlan (be16 c.data 0) && c.size ≥ 6 then
      let vlan := { tpid := be16 c.data 0, tci := be16 c.data 2 ||| vlanCfi }
      let (c, vlans) := vlanLoop limit (c.pull 4)
      (c, vlan :: vlans)
    else (c, [])

def parseVlan (limit : Nat) (c : Cursor) : Cursor × List VlanHdr := vlanLoop limit (c.pull 12)

def parseEthertype (c : Cursor) : Cursor × BitVec 16 :=
  let proto := be16 c.data 0
  let c := c.pull 2
  if proto ≥ ethTypeMin then (c, proto)
  else if c.size < 8 then (c, flowDlTypeNone)
  else if u8 c.data 0 ≠ 0xaa || u8 c.data 1 ≠ 0xaa || u8 c.data 2 ≠ 0x03
      || u8 c.data 3 ≠ 0 || u8 c.data 4 ≠ 0 || u8 c.data 5 ≠ 0 then (c, flowDlTypeNone)
  else
    let snapType := be16 c.data 6
    (c.pull 8, if snapType ≥ ethTypeMin then snapType else flowDlTypeNone)

def parseMpls (c : Cursor) : Cursor × List (BitVec 32) :=
  if c.size ≥ 4 then
    let lse := be32 c.data 0
    if lse &&& 0x100 ≠ 0 then (c.pull 4, [lse])
    else
      let (c, labels) := parseMpls (c.pull 4)
      (c, lse :: labels)
  else (c, [])
termination_by c.size
decreasing_by
  simp only [Cursor.pull]
  omega

/-! ## 2. Network layer -/

/-- `ipv4_sanity_check`: the length of the header, and that of the packet. -/
def ipv4SanityCheck (c : Cursor) : Option (Nat × Nat) :=
  if c.size < 20 then none
  else
    let ipLen := (u8 c.data 0 &&& 15).toNat * 4
    if ipLen < 20 || c.size < ipLen then none
    else
      let totLen := (be16 c.data 2).toNat
      if totLen > c.size || ipLen > totLen || c.size - totLen > 255 then none
      else some (ipLen, totLen)

def ipv4GetNwFrag (data : List Byte) : BitVec 8 :=
  let fragOff := be16 data 6
  if fragOff &&& 0x3fff ≠ 0 then
    if fragOff &&& 0x1fff ≠ 0 then flowNwFragAny ||| flowNwFragLater else flowNwFragAny
  else 0

def ipv6SanityCheck (c : Cursor) : Bool :=
  if c.size < 40 then false
  else
    let plen := (be16 c.data 4).toNat
    if plen + 40 > c.size then false
    else if c.size - (plen + 40) > 255 then false
    else true

/-- How far an extension header reaches. -/
def extHdrLen (c : Cursor) (nwProto : BitVec 8) : Nat :=
  if nwProto = ipprotoAh then ((u8 c.data 1).toNat + 2) * 4
  else if nwProto = ipprotoFragment then 8
  else ((u8 c.data 1).toNat + 1) * 8

theorem extHdrLen_pos (c : Cursor) (nwProto : BitVec 8) : 0 < extHdrLen c nwProto := by
  unfold extHdrLen
  split
  · omega
  · split <;> omega

def parseIpv6ExtHdrs (c : Cursor) (nwProto nwFrag : BitVec 8) :
    Option (Cursor × BitVec 8 × BitVec 8) :=
  if nwProto ≠ ipprotoHopopts ∧ nwProto ≠ ipprotoRouting ∧ nwProto ≠ ipprotoDstopts
      ∧ nwProto ≠ ipprotoAh ∧ nwProto ≠ ipprotoFragment then some (c, nwProto, nwFrag)
  else if c.size < 8 then none
  else if c.size < extHdrLen c nwProto then none
  else
    let next := u8 c.data 0
    let rest := c.pull (extHdrLen c nwProto)
    if nwProto = ipprotoFragment then
      let offlg := be16 c.data 2
      if offlg ≠ 0 then
        if offlg &&& 0xfff8 ≠ 0 then
          some (rest, ipprotoFragment, flowNwFragAny ||| flowNwFragLater)
        else parseIpv6ExtHdrs rest next flowNwFragAny
      else parseIpv6ExtHdrs rest next nwFrag
    else parseIpv6ExtHdrs rest next nwFrag
termination_by c.size
decreasing_by
  all_goals
    have := extHdrLen_pos c nwProto
    simp only [Cursor.pull]
    omega

def parseNsh (c : Cursor) : Option NshKey :=
  if c.size < 8 then none
  else
    let word := be16 c.data 0
    let length := (word &&& 0x003f).toNat * 4
    if length > c.size || word >>> 14 ≠ 0 then none
    else
      let key : NshKey := {
        flags := ((word &&& 0x3000) >>> 12).setWidth 8
        ttl := ((word &&& 0x0fc0) >>> 6).setWidth 8
        mdtype := u8 c.data 2
        np := u8 c.data 3
        pathHdr := be32 c.data 4 }
      if key.mdtype = 1 then
        if length ≠ 24 then none
        else some { key with
          context := [be32 c.data 8, be32 c.data 12, be32 c.data 16, be32 c.data 20] }
      else if key.mdtype = 2 then if length < 8 then none else some key
      else some key

/-! ## 3. Transport layer -/

/-- What `parse_icmpv6` finds in the options of a neighbour discovery message. -/
structure NdOptions where
  sll : BitVec 48 := 0
  tll : BitVec 48 := 0
  optType : BitVec 8 := 0

/-- The options of `parse_icmpv6`.  There is nothing if an option comes twice. -/
def parseNdOptions (c : Cursor) (found : NdOptions) : NdOptions × Bool :=
  if c.size ≥ 8 then
    let optType := u8 c.data 0
    let optLen := (u8 c.data 1).toNat * 8
    let mac := be48 c.data 2
    let first := if found.optType = 0 then optType else found.optType
    if optLen = 0 ∨ optLen > c.size then (found, true)
    else if optType = 1 ∧ optLen = 8 then
      if found.sll = 0 then
        parseNdOptions (c.pull optLen) { found with sll := mac, optType := first }
      else (found, false)
    else if optType = 2 ∧ optLen = 8 then
      if found.tll = 0 then
        parseNdOptions (c.pull optLen) { found with tll := mac, optType := first }
      else (found, false)
    else parseNdOptions (c.pull optLen) found
  else (found, true)
termination_by c.size
decreasing_by
  all_goals
    simp only [Cursor.pull]
    omega

/-- A neighbour discovery message, as `parse_icmpv6` fills it in. -/
structure NdMessage where
  rsoFlags : BitVec 32
  ndTarget : Option (BitVec 128) := none
  options : NdOptions := {}

/-- `parse_icmpv6`, after the ICMPv6 header `icmp6`. -/
def parseIcmpv6 (c : Cursor) (icmp6 : List Byte) : Option NdMessage :=
  if u8 icmp6 1 ≠ 0 ∨ (u8 icmp6 0 ≠ 135 ∧ u8 icmp6 0 ≠ 136) then none
  else
    let rsoFlags := be32 icmp6 4
    match c.tryPull 16 with
    | none => some { rsoFlags }
    | some rest =>
      match parseNdOptions rest {} with
      | (options, true) => some { rsoFlags, ndTarget := some (be128 c.data 0), options }
      | (options, false) => some { rsoFlags, options := { optType := options.optType } }

structure CtPorts where
  src : BitVec 16 := 0
  dst : BitVec 16 := 0

/-- The ports of a packet, with those of the original tuple. -/
def pushPorts (mf : Miniflow) (src dst : BitVec 16) (ct : CtPorts) : Miniflow :=
  mf.push [.tpSrc] fun flow =>
    { flow with tpSrc := src, tpDst := dst, ctTpSrc := ct.src, ctTpDst := ct.dst }

/-- A neighbour discovery message in a flow. -/
def pushNd (mf : Miniflow) (nd : NdMessage) (type code : BitVec 16) : Miniflow :=
  let mf :=
    match nd.ndTarget with
    | some ndTarget => mf.push [.ndTarget] fun flow => { flow with ndTarget }
    | none => mf
  let mf := mf.push [.arpSha, .arpTha] fun flow =>
    { flow with
      arpSha := nd.options.sll
      arpTha := nd.options.tll
      tcpFlags := nd.options.optType.setWidth 16 }
  let mf := mf.push [.tpSrc] fun flow => { flow with tpSrc := type, tpDst := code }
  mf.push [.igmpGroupIp4] fun flow => { flow with igmpGroupIp4 := nd.rsoFlags }

/-- The part of `miniflow_extract` for the transport layer. -/
def extractTransport (mf : Miniflow) (c : Cursor) (nwProto : BitVec 8) (ct : CtPorts) :
    Miniflow :=
  if nwProto = ipprotoTcp then
    if c.size ≥ 20 then
      let mf := mf.push [.arpTha] fun flow =>
        { flow with tcpFlags := be16 c.data 12 &&& 0x0fff }
      pushPorts mf (be16 c.data 0) (be16 c.data 2) ct
    else mf
  else if nwProto = ipprotoUdp then
    if c.size ≥ 8 then pushPorts mf (be16 c.data 0) (be16 c.data 2) ct else mf
  else if nwProto = ipprotoSctp then
    if c.size ≥ 12 then pushPorts mf (be16 c.data 0) (be16 c.data 2) ct else mf
  else if nwProto = ipprotoIcmp then
    if c.size ≥ 8 then
      pushPorts mf ((u8 c.data 0).setWidth 16) ((u8 c.data 1).setWidth 16) ct
    else mf
  else if nwProto = ipprotoIgmp then
    if c.size ≥ 8 then
      let mf := pushPorts mf ((u8 c.data 0).setWidth 16) ((u8 c.data 1).setWidth 16) ct
      mf.push [.igmpGroupIp4] fun flow => { flow with igmpGroupIp4 := be32 c.data 4 }
    else mf
  else if nwProto = ipprotoIcmpv6 then
    if c.size ≥ 8 then
      let type := (u8 c.data 0).setWidth 16
      let code := (u8 c.data 1).setWidth 16
      match parseIcmpv6 (c.pull 8) c.data with
      | some nd => pushNd mf nd type code
      | none => pushPorts mf type code ct
    else mf
  else mf

/-! ## 4. Extraction -/

def flowTnlDstIsSet (tunnel : Tunnel) : Bool := tunnel.ipDst ≠ 0 || tunnel.ipv6Dst ≠ 0

def flowTnlFUdpif : BitVec 16 := 0x10

def pushTunnel (mf : Miniflow) (tunnel : Tunnel) : Miniflow :=
  let mf := mf.push [.tunnel] fun flow => { flow with tunnel := { tunnel with metadata := {} } }
  let metadata := tunnel.metadata
  if tunnel.flags &&& flowTnlFUdpif = 0 then
    if metadata.present ≠ 0 then mf.push [.tunMetadata] fun flow => { flow with tunnel := tunnel }
    else mf
  else
    let len := (metadata.present.setWidth 8 : BitVec 8).toNat
    let words := (len + 7) / 8
    if len ≠ 0 then
      mf.push (.tunPresent :: (List.range words).map .tunOpts) fun flow =>
        { flow with tunnel := { tunnel with
          metadata := { present := metadata.present, opts := metadata.opts.take (8 * words) } } }
    else mf

def extractMetadata (md : PktMetadata) (packetType : BitVec 32) : Miniflow :=
  let mf : Miniflow := {}
  let mf := if flowTnlDstIsSet md.tunnel then pushTunnel mf md.tunnel else mf
  let mf :=
    if md.skbPriority ≠ 0 || md.pktMark ≠ 0 then
      mf.push [.skbPriority] fun flow =>
        { flow with skbPriority := md.skbPriority, pktMark := md.pktMark }
    else mf
  let mf := mf.push [.dpHash] fun flow => { flow with dpHash := md.dpHash, inPort := md.inPort }
  if md.ctState ≠ 0 then
    let mf := mf.push [.recircId, .ctMark] fun flow =>
      { flow with
        recircId := md.recircId, ctState := md.ctState, ctZone := md.ctZone
        ctMark := md.ctMark, packetType }
    if md.ctLabel ≠ 0 then mf.push [.ctLabel] fun flow => { flow with ctLabel := md.ctLabel }
    else mf
  else
    let mf :=
      if md.recircId ≠ 0 then mf.push [.recircId] fun flow => { flow with recircId := md.recircId }
      else mf
    mf.push [.ctMark] fun flow => { flow with packetType }

/-- The layer offsets of a packet, and the size of its padding. -/
structure Layers where
  l25Ofs : Option Nat := none
  l3Ofs : Option Nat := none
  l4Ofs : Option Nat := none
  l2PadSize : Nat := 0
deriving DecidableEq

/-- The original tuple of a tracked connection, in a packet of the same IP version. -/
def pushCtTuple (mf : Miniflow) (md : PktMetadata) (ipv6 : Bool) : Miniflow × CtPorts :=
  if md.ctState = 0 then (mf, {})
  else
    match md.ctOrigTuple, ipv6 with
    | .ipv4 src dst srcPort dstPort proto, false =>
      let mf := { mf with flow := { mf.flow with ctNwProto := proto } }
      if proto ≠ 0 then
        (mf.push [.ctNwSrc] fun flow => { flow with ctNwSrc := src, ctNwDst := dst },
          ⟨srcPort, dstPort⟩)
      else (mf, {})
    | .ipv6 src dst srcPort dstPort proto, true =>
      let mf := { mf with flow := { mf.flow with ctNwProto := proto } }
      if proto ≠ 0 then
        (mf.push [.ctIpv6Src] fun flow => { flow with ctIpv6Src := src, ctIpv6Dst := dst },
          ⟨srcPort, dstPort⟩)
      else (mf, {})
    | _, _ => (mf, {})

/-- The network header in a miniflow, and the transport layer after it. -/
def extractIp (mf : Miniflow) (c : Cursor) (label : BitVec 32)
    (nwFrag nwTos nwTtl nwProto : BitVec 8) (ct : CtPorts) : Miniflow :=
  let mf := mf.push [.ipv6Label] fun flow =>
    { flow with ipv6Label := label, nwFrag, nwTos, nwTtl, nwProto }
  if nwFrag &&& flowNwFragLater = 0 then extractTransport mf c nwProto ct else mf

def extractIpv4 (md : PktMetadata) (mf : Miniflow) (layers : Layers) (ofs : Nat) (c : Cursor) :
    Miniflow × Layers :=
  match ipv4SanityCheck c with
  | none => (mf, layers)
  | some (ipLen, totLen) =>
    let layers := { layers with l2PadSize := c.size - totLen }
    -- Never pull padding.
    let c := { c with size := totLen }
    let mf := mf.push [.nwSrc] fun flow =>
      { flow with nwSrc := be32 c.data 12, nwDst := be32 c.data 16 }
    let (mf, ct) := pushCtTuple mf md false
    (extractIp mf (c.pull ipLen) 0 (ipv4GetNwFrag c.data) (u8 c.data 1) (u8 c.data 8)
        (u8 c.data 9) ct,
      { layers with l4Ofs := some (ofs + ipLen) })

def extractIpv6 (md : PktMetadata) (mf : Miniflow) (layers : Layers) (ofs : Nat) (c : Cursor) :
    Miniflow × Layers :=
  if !ipv6SanityCheck c then (mf, layers)
  else
    let rest := c.pull 40
    let plen := (be16 c.data 4).toNat
    let layers := { layers with l2PadSize := rest.size - plen }
    -- Never pull padding.
    let rest := { rest with size := plen }
    let mf := mf.push [.ipv6Src] fun flow =>
      { flow with ipv6Src := be128 c.data 8, ipv6Dst := be128 c.data 24 }
    let (mf, ct) := pushCtTuple mf md true
    let tcFlow := be32 c.data 0
    match parseIpv6ExtHdrs rest (u8 c.data 6) 0 with
    | none => (mf, layers)
    | some (l4, nwProto, nwFrag) =>
      (extractIp mf l4 (tcFlow &&& 0x000fffff) nwFrag ((tcFlow >>> 20).setWidth 8)
          (u8 c.data 7) nwProto ct,
        { layers with l4Ofs := some (ofs + 40 + (plen - l4.size)) })

def extractArp (mf : Miniflow) (c : Cursor) : Miniflow :=
  if c.size ≥ 28 ∧ be16 c.data 0 = 1 ∧ be16 c.data 2 = ethTypeIp ∧ u8 c.data 4 = 6
      ∧ u8 c.data 5 = 4 then
    let mf := mf.push [.nwSrc] fun flow =>
      { flow with nwSrc := be32 c.data 14, nwDst := be32 c.data 24 }
    let mf :=
      if be16 c.data 6 ≤ 0xff then
        mf.push [.ipv6Label] fun flow => { flow with nwProto := u8 c.data 7 }
      else mf
    mf.push [.arpSha, .arpTha] fun flow =>
      { flow with arpSha := be48 c.data 8, arpTha := be48 c.data 18 }
  else mf

/-- The part of `miniflow_extract` after the Ethernet type.  `ofs` is the distance of the cursor
    from the start of the frame. -/
def extractNetwork (md : PktMetadata) (mf : Miniflow) (ofs : Nat) (c : Cursor)
    (dlType : BitVec 16) : Miniflow × Layers :=
  let (mf, layers, ofs, c) :=
    if ethTypeMpls dlType then
      let (rest, labels) := parseMpls c
      let count := min labels.length flowMaxMplsLabels
      let mf := mf.push ((List.range ((count + 1) / 2)).map .mplsLse) fun flow =>
        { flow with
          mplsLse := labels.take count ++ List.replicate (flowMaxMplsLabels - count) 0 }
      (mf, ({ l25Ofs := some ofs } : Layers), ofs + 4 * labels.length, rest)
    else (mf, {}, ofs, c)
  let layers := { layers with l3Ofs := some ofs }
  if dlType = ethTypeIp then extractIpv4 md mf layers ofs c
  else if dlType = ethTypeIpv6 then extractIpv6 md mf layers ofs c
  else if dlType = ethTypeArp ∨ dlType = ethTypeRarp then (extractArp mf c, layers)
  else if dlType = ethTypeNsh then
    match parseNsh c with
    | some nsh => (mf.push [.nsh] fun flow => { flow with nsh }, layers)
    | none => (mf, layers)
  else (mf, layers)

def pushEthernet (mf : Miniflow) (data : List Byte) (dlType : BitVec 16) (vlans : List VlanHdr) :
    Miniflow :=
  let mf := mf.push [.dlDst, .dlType] fun flow =>
    { flow with dlDst := be48 data 0, dlSrc := be48 data 6, dlType }
  if vlans.length > 0 then
    mf.push [.vlans] fun flow =>
      { flow with vlans := vlans ++ List.replicate (flowMaxVlanHeaders - vlans.length) {} }
  else mf

/-- `miniflow_extract`, with `flow_vlan_limit` and the bytes of the packet. -/
def miniflowExtract (limit : Nat) (md : PktMetadata) (packetType : BitVec 32)
    (frame : List Byte) : Miniflow × Layers :=
  let mf := extractMetadata md packetType
  let c : Cursor := { data := frame, size := frame.length }
  if packetType = 0 then
    if c.size < 14 then (mf, {})
    else
      let (rest, vlans) := parseVlan limit c
      let (rest, dlType) := parseEthertype rest
      extractNetwork md (pushEthernet mf frame dlType vlans) (frame.length - rest.size) rest dlType
  else
    let dlType : BitVec 16 := packetType.setWidth 16
    extractNetwork md (mf.push [.dlType] fun flow => { flow with dlType }) 0 c dlType

end Ovsgw.Headers
