/-
  **Flows and miniflows** (`struct flow`, `struct miniflow` and `struct pkt_metadata`), and
  reading from the bytes of a packet.

  A miniflow is kept as the words of `struct flow` that its map has, with the flow that it stands
  for: the fields that are in none of these words are zero.  Fields in network byte order are kept
  by their value.  The fields of `struct flow` that `miniflow_extract` never fills in are left out.
-/
import Mathlib.Data.BitVec
import Ovsgw.Lib.Bytes

namespace Ovsgw.Headers

open Lib (Byte)

/-! ## 1. Reading -/

/-- The byte at a distance from a pointer.  A pointer is what follows it in the packet. -/
def u8 (data : List Byte) (ofs : Nat) : BitVec 8 := data.getD ofs 0

def be16 (data : List Byte) (ofs : Nat) : BitVec 16 := u8 data ofs ++ u8 data (ofs + 1)

def be32 (data : List Byte) (ofs : Nat) : BitVec 32 := be16 data ofs ++ be16 data (ofs + 2)

def be48 (data : List Byte) (ofs : Nat) : BitVec 48 := be16 data ofs ++ be32 data (ofs + 2)

def be64 (data : List Byte) (ofs : Nat) : BitVec 64 := be32 data ofs ++ be32 data (ofs + 4)

def be128 (data : List Byte) (ofs : Nat) : BitVec 128 := be64 data ofs ++ be64 data (ofs + 8)

/-- The pair of a pointer and a size that the parser moves along. -/
structure Cursor where
  data : List Byte
  size : Nat

def Cursor.pull (c : Cursor) (size : Nat) : Cursor :=
  { data := c.data.drop size, size := c.size - size }

def Cursor.tryPull (c : Cursor) (size : Nat) : Option Cursor :=
  if c.size ≥ size then some (c.pull size) else none

/-! ## 2. Metadata -/

/-- `struct tun_metadata`.  `present` is the map of the options, or their length in its first
    byte. -/
structure TunMetadata where
  present : BitVec 64 := 0
  tab : Nat := 0
  opts : List Byte := []
deriving DecidableEq

/-- `struct flow_tnl`.  The members that are only copied are in `others`. -/
structure Tunnel where
  ipDst : BitVec 32 := 0
  ipv6Dst : BitVec 128 := 0
  flags : BitVec 16 := 0
  others : List Byte := []
  metadata : TunMetadata := {}
deriving DecidableEq

/-- `struct ovs_key_ct_tuple_ipv4` and `struct ovs_key_ct_tuple_ipv6`. -/
inductive CtTuple where
  | ipv4 (src dst : BitVec 32) (srcPort dstPort : BitVec 16) (proto : BitVec 8)
  | ipv6 (src dst : BitVec 128) (srcPort dstPort : BitVec 16) (proto : BitVec 8)
deriving DecidableEq

/-- The part of `struct pkt_metadata` that ends up in a flow.  The constructor of `ctOrigTuple`
    is `ct_orig_tuple_ipv6`. -/
structure PktMetadata where
  recircId : BitVec 32 := 0
  dpHash : BitVec 32 := 0
  skbPriority : BitVec 32 := 0
  pktMark : BitVec 32 := 0
  ctState : BitVec 8 := 0
  ctZone : BitVec 16 := 0
  ctMark : BitVec 32 := 0
  ctLabel : BitVec 128 := 0
  inPort : BitVec 32 := 0
  ctOrigTuple : CtTuple := .ipv4 0 0 0 0 0
  tunnel : Tunnel := {}
deriving DecidableEq

/-! ## 3. Flows -/

structure VlanHdr where
  tpid : BitVec 16 := 0
  tci : BitVec 16 := 0
deriving DecidableEq

structure NshKey where
  flags : BitVec 8 := 0
  ttl : BitVec 8 := 0
  mdtype : BitVec 8 := 0
  np : BitVec 8 := 0
  pathHdr : BitVec 32 := 0
  context : List (BitVec 32) := [0, 0, 0, 0]
deriving DecidableEq

def flowMaxVlanHeaders : Nat := 2

def flowMaxMplsLabels : Nat := 3

structure Flow where
  tunnel : Tunnel := {}
  skbPriority : BitVec 32 := 0
  pktMark : BitVec 32 := 0
  dpHash : BitVec 32 := 0
  inPort : BitVec 32 := 0
  recircId : BitVec 32 := 0
  ctState : BitVec 8 := 0
  ctNwProto : BitVec 8 := 0
  ctZone : BitVec 16 := 0
  ctMark : BitVec 32 := 0
  packetType : BitVec 32 := 0
  ctLabel : BitVec 128 := 0
  dlDst : BitVec 48 := 0
  dlSrc : BitVec 48 := 0
  dlType : BitVec 16 := 0
  vlans : List VlanHdr := List.replicate flowMaxVlanHeaders {}
  mplsLse : List (BitVec 32) := List.replicate flowMaxMplsLabels 0
  nwSrc : BitVec 32 := 0
  nwDst : BitVec 32 := 0
  ctNwSrc : BitVec 32 := 0
  ctNwDst : BitVec 32 := 0
  ipv6Src : BitVec 128 := 0
  ipv6Dst : BitVec 128 := 0
  ctIpv6Src : BitVec 128 := 0
  ctIpv6Dst : BitVec 128 := 0
  ipv6Label : BitVec 32 := 0
  nwFrag : BitVec 8 := 0
  nwTos : BitVec 8 := 0
  nwTtl : BitVec 8 := 0
  nwProto : BitVec 8 := 0
  ndTarget : BitVec 128 := 0
  arpSha : BitVec 48 := 0
  arpTha : BitVec 48 := 0
  tcpFlags : BitVec 16 := 0
  nsh : NshKey := {}
  tpSrc : BitVec 16 := 0
  tpDst : BitVec 16 := 0
  ctTpSrc : BitVec 16 := 0
  ctTpDst : BitVec 16 := 0
  igmpGroupIp4 : BitVec 32 := 0
deriving DecidableEq

/-- The 64-bit words of `struct flow`, each named by its first field.  Words that are always
    pushed together have one name. -/
inductive Word where
  | tunnel | tunMetadata | tunPresent | tunOpts (i : Nat)
  | skbPriority | dpHash | recircId | ctMark | ctLabel
  | dlDst | dlType | vlans | mplsLse (i : Nat)
  | nwSrc | ctNwSrc | ipv6Src | ctIpv6Src | ipv6Label
  | ndTarget | arpSha | arpTha | nsh | tpSrc | igmpGroupIp4
deriving DecidableEq

structure Miniflow where
  map : List Word := []
  flow : Flow := {}
deriving DecidableEq

/-- The `miniflow_push_*` macros: fill in the fields of some words. -/
def Miniflow.push (mf : Miniflow) (words : List Word) (fill : Flow → Flow) : Miniflow :=
  { map := mf.map ++ words, flow := fill mf.flow }

end Ovsgw.Headers
