/-
  **The connection tracker** (`conntrack_execute` in `lib/conntrack.c`), one packet after the
  other, and what its flag `est` says.

  Connections are kept in a table with an ID each, so that a connection that is looked up is
  the same connection later on.  Keys are any type with a reversal, a zone, a protocol and a
  hash.  What address translation chooses, whether an application-layer expectation matches
  and whether the limits admit a connection come with each packet.
-/
import Ovsgw.Conntrack.Trackers

namespace Ovsgw.Conntrack

/-! ## 1. Connections and packets -/

class ConnKey (K : Type) where
  reverse : K → K
  zone : K → Nat
  proto : K → Proto
  hash : K → BitVec 32

structure CtState where
  new : Bool := false
  established : Bool := false
  related : Bool := false
  replyDir : Bool := false
  invalid : Bool := false
  tracked : Bool := false
  srcNat : Bool := false
  dstNat : Bool := false
deriving DecidableEq

/-- Whether the source, the destination or neither of them is translated. -/
inductive NatAction where
  | src | dst | neither
deriving DecidableEq

/-- `struct conn`.  `unNat` is the type `CT_CONN_TYPE_UN_NAT`, and `master` is the key of the
    control connection if the connection is `alg_related`. -/
structure Conn (K : Type) where
  id : Nat
  key : K
  revKey : K
  unNat : Bool := false
  tracker : Tracker
  expiration : Int
  master : Option K := none
  nat : Option NatAction := none
  natConn : Option Nat := none
  tpId : Nat := 0

structure Cached (K : Type) where
  conn : Conn K
  reply : Bool

/-- The connection tracking part of `struct pkt_metadata`.  `origKey` is the key that
    `check_orig_tuple` builds from the original tuple. -/
structure Metadata (K : Type) where
  ctState : CtState := {}
  ctZone : Nat := 0
  conn : Option (Cached K) := none
  origKey : Option K := none

/-- A packet, as `conn_key_extract` finds it.  `key` is missing if that fails. -/
structure Packet (K : Type) where
  key : Option K
  icmpRelated : Bool := false
  l4 : L4 := {}
  md : Metadata K := {}

/-- The arguments of `conntrack_execute`, and what the rest of the tracker answers for this packet:
    `nat` has the tuple of the reply direction that address translation chooses, or none if the
    range is exhausted; `expected` has the key of the control connection if there is an expectation
    for the packet; `admitted` says whether the limits allow one more connection. -/
structure Args (K : Type) where
  force : Bool := false
  commit : Bool := false
  zone : Nat := 0
  now : Int := 0
  tpId : Nat := 0
  nat : Option (NatAction × Option K) := none
  isAlgCtl : Bool := false
  expected : Option K := none
  admitted : Bool := true

structure Config where
  seqChk : Bool := true
  timeout : Nat → Timeout → Nat

structure Table (K : Type) where
  conns : List (Conn K) := []
  nextId : Nat := 0

section
variable {K : Type} [DecidableEq K] [ConnKey K]

def Conn.expired (conn : Conn K) (now : Int) : Bool := !conn.unNat && decide (conn.expiration ≤ now)

/-- `conn_key_lookup`: the connection, and whether the packet is a reply. -/
def Table.lookup (ct : Table K) (key : K) (hash : BitVec 32) (now : Int) :
    Option (Conn K × Bool) :=
  (ct.conns.find? fun conn =>
    decide (ConnKey.hash conn.key = hash) && (decide (conn.key = key) || decide (conn.revKey = key))
      && !conn.expired now).map
    fun conn => (conn, !decide (conn.key = key))

def Table.clean (ct : Table K) (conn : Conn K) : Table K :=
  { ct with conns := ct.conns.filter fun c => c.id != conn.id && some c.id != conn.natConn }

def Table.update (ct : Table K) (id : Nat) (tracker : Tracker) (expiration : Option Int) :
    Table K :=
  { ct with conns := ct.conns.map fun c =>
      if c.id = id then { c with tracker, expiration := expiration.getD c.expiration } else c }

/-! ## 2. Processing a packet -/

/-- A packet that was accepted for a connection, in one of the directions. -/
structure Seen where
  id : Nat
  reply : Bool
deriving DecidableEq

/-- What became of a packet on the way through `process_one`. -/
structure Step (K : Type) where
  ct : Table K
  state : CtState
  createNew : Bool := false
  seen : Option Seen := none
  conn : Option (Conn K) := none
  reply : Bool := false

/-- `conn_update_state`.  It asserts that the connection is not one for translating back. -/
def connUpdateState (cfg : Config) (ct : Table K) (conn : Conn K) (reply : Bool) (pkt : Packet K)
    (state : CtState) (now : Int) : Option (Step K) :=
  if conn.unNat then none
  else if pkt.icmpRelated then
    some { ct, conn, reply
           state := { state with related := true, replyDir := state.replyDir || reply } }
  else
    let state := if conn.master.isSome then { state with related := true } else state
    let (tracker, res, timeout) := connUpdate cfg.seqChk conn.tracker pkt.l4 reply
    let ct := ct.update conn.id tracker
      (timeout.map fun timeout => now + cfg.timeout conn.tpId timeout * 1000)
    match res with
    | .valid =>
      some { ct, conn, reply, seen := some ⟨conn.id, reply⟩, state := { state with
        established := true, new := false, replyDir := state.replyDir || reply } }
    | .invalid => some { ct, conn, reply, state := { invalid := true } }
    | .new =>
      let found := (ct.lookup conn.key (ConnKey.hash conn.key) now).isSome
      some { ct := if found then ct.clean conn else ct, conn, reply, state, createNew := true }
    | .validNew =>
      some { ct, conn, reply, seen := some ⟨conn.id, reply⟩, state := { state with new := true } }

/-- The bits that `nat_packet` and `un_nat_packet` set. -/
def natBits (state : CtState) (action : NatAction) (reply : Bool) : CtState :=
  match action, reply with
  | .src, false | .dst, true => { state with srcNat := true }
  | .dst, false | .src, true => { state with dstNat := true }
  | .neither, _ => state

def handleNat (state : CtState) (ctZone zone : Nat) (conn : Conn K) (reply : Bool) : CtState :=
  match conn.nat with
  | none => state
  | some action =>
    if !(state.srcNat || state.dstNat) then natBits state action reply
    else if zone ≠ ctZone then
      natBits { state with srcNat := false, dstNat := false } action reply
    else state

def connNotFound (cfg : Config) (ct : Table K) (key : K) (pkt : Packet K) (args : Args K) :
    Step K :=
  if !validNew (ConnKey.proto key) pkt.l4 then { ct, state := { invalid := true } }
  else
    let state : CtState := { new := true, related := args.expected.isSome }
    if !args.commit || !args.admitted then { ct, state }
    else
      let (tracker, timeout) := newConn (ConnKey.proto key) pkt.l4
      let conn : Conn K :=
        { id := ct.nextId, key, revKey := ConnKey.reverse key, tracker
          expiration := args.now + cfg.timeout args.tpId timeout * 1000
          master := args.expected, tpId := args.tpId }
      match args.nat with
      | none =>
        { ct := { conns := conn :: ct.conns, nextId := ct.nextId + 1 }
          state, seen := some ⟨conn.id, false⟩, conn }
      | some (_, none) => { ct, state }
      | some (action, some revKey) =>
        let conn := { conn with revKey, nat := some action, natConn := some (ct.nextId + 1) }
        let natConn := { conn with
          id := ct.nextId + 1, key := revKey, revKey := key, unNat := true, nat := none
          natConn := none }
        { ct := { conns := conn :: natConn :: ct.conns, nextId := ct.nextId + 2 }
          state := natBits state action false, seen := some ⟨conn.id, false⟩, conn }

/-- The connection that `process_one` finds, or the direction it has when it finds none. -/
inductive Found (K : Type) where
  | missing (reply : Bool)
  | conn (conn : Conn K) (reply : Bool)

/-- The first part of `process_one`: look the connection up, remove it if it is in the wrong
    direction, and go from the connection for translating back to the other one, which can be
    missing. -/
def findConn (ct : Table K) (key : K) (args : Args K) : Option (Table K × Option (Found K)) :=
  match ct.lookup key (ConnKey.hash key) args.now with
  | none => some (ct, some (.missing false))
  | some (conn, reply) =>
    if args.force && reply then
      if (ct.lookup conn.key (ConnKey.hash conn.key) args.now).isSome then
        -- `conn_clean` asserts the type of the connection.
        if conn.unNat then none else some (ct.clean conn, some (.missing true))
      else some (ct, some (.missing true))
    else if conn.unNat then
      match ct.lookup key (ConnKey.hash conn.revKey) args.now with
      | none => some (ct, none)
      | some (conn, reply) => some (ct, some (.conn conn reply))
    else some (ct, some (.conn conn reply))

def checkOrigTuple (ct : Table K) (pkt : Packet K) (state : CtState) (args : Args K) :
    Option (Conn K) :=
  match pkt.md.origKey with
  | some key =>
    if (state.srcNat || state.dstNat) && args.nat.isNone then
      (ct.lookup key (ConnKey.hash key) args.now).map (·.1)
    else none
  | none => none

/-- The middle part of `process_one`: what the connection makes of the packet. -/
def updateFound (cfg : Config) (ct : Table K) (found : Found K) (pkt : Packet K)
    (state : CtState) (args : Args K) : Option (Step K) :=
  match found with
  | .conn conn reply =>
    (connUpdateState cfg ct conn reply pkt state args.now).map fun step =>
      if args.nat.isSome && !step.createNew then
        { step with state := handleNat step.state pkt.md.ctZone args.zone conn reply }
      else step
  | .missing reply =>
    match checkOrigTuple ct pkt state args with
    | some conn => connUpdateState cfg ct conn reply pkt state args.now
    | none =>
      if pkt.icmpRelated then some { ct, state := { invalid := true } }
      else some { ct, state, createNew := true, reply }

/-- The last part of `process_one`: a connection for a packet that has none.  The direction is
    still that of the lookup. -/
def createConn (cfg : Config) (step : Step K) (key : K) (pkt : Packet K) (args : Args K) :
    Step K :=
  if step.createNew ∧ (step.ct.lookup key (ConnKey.hash key) args.now).isNone then
    { connNotFound cfg step.ct key pkt args with reply := step.reply }
  else step

/-- What `conntrack_execute` does for one packet. -/
structure Report (K : Type) where
  ct : Table K
  md : Metadata K
  seen : Option Seen := none

/-- The original tuple that `write_ct_md` writes: that of the control connection, if there is
    one. -/
def origKey (step : Step K) (key : K) (args : Args K) : K :=
  match step.conn with
  | some conn => conn.master.getD conn.key
  | none => args.expected.getD key

/-- The metadata after `write_ct_md` without a connection. -/
def writeCtMd (md : Metadata K) (state : CtState) (zone : Nat) : Metadata K :=
  { md with ctState := { state with tracked := true }, ctZone := zone, origKey := none }

/-- The state in a new zone starts anew. -/
def enterZone (md : Metadata K) (zone : Nat) : CtState :=
  if md.ctState ≠ {} ∧ md.ctZone ≠ zone then {} else md.ctState

/-- `process_one`, with `write_ct_md` and `set_cached_conn` at its end. -/
def processOne (cfg : Config) (ct : Table K) (key : K) (pkt : Packet K) (args : Args K) :
    Option (Report K) :=
  let state := enterZone pkt.md args.zone
  match findConn ct key args with
  | none => none
  | some (ct, none) => some { ct, md := writeCtMd pkt.md { state with invalid := true } args.zone }
  | some (ct, some found) =>
    (updateFound cfg ct found pkt state args).map fun step =>
      let step := createConn cfg step key pkt args
      { ct := step.ct
        seen := step.seen
        md := {
          ctState := { step.state with tracked := true }
          ctZone := args.zone
          conn := if args.nat.isNone then step.conn.map fun conn => ⟨conn, step.reply⟩ else none
          origKey := some (origKey step key args) } }

/-- A packet that is not known from an earlier pass. -/
def processKey (cfg : Config) (ct : Table K) (pkt : Packet K) (args : Args K) :
    Option (Report K) :=
  match pkt.key with
  | none => some { ct, md := writeCtMd pkt.md { invalid := true } args.zone }
  | some key => processOne cfg ct key pkt args

def Cached.usable (cached : Cached K) (args : Args K) : Bool :=
  ConnKey.zone cached.conn.key = args.zone ∧ !args.force ∧ !args.isAlgCtl

def processOneFast (ct : Table K) (cached : Cached K) (pkt : Packet K) (args : Args K) :
    Report K :=
  let md := { pkt.md with ctZone := args.zone }
  if args.nat.isSome then
    let state := handleNat pkt.md.ctState pkt.md.ctZone args.zone cached.conn cached.reply
    { ct, md := { md with ctState := state, conn := none } }
  else { ct, md }

/-- `conntrack_execute` for one packet. -/
def conntrackExecute (cfg : Config) (ct : Table K) (pkt : Packet K) (args : Args K) :
    Option (Report K) :=
  if pkt.md.ctState = { invalid := true } then
    some { ct, md := writeCtMd pkt.md pkt.md.ctState args.zone }
  else
    match pkt.md.conn.filter (·.usable args) with
    | some cached => some (processOneFast ct cached pkt args)
    | none => processKey cfg ct pkt args

/-- The reports about a sequence of packets, with the table after the last one. -/
def execute (cfg : Config) : Table K → List (Packet K × Args K) →
    Option (List (Report K) × Table K)
  | ct, [] => some ([], ct)
  | ct, (pkt, args) :: packets => do
    let report ← conntrackExecute cfg ct pkt args
    let (reports, ct) ← execute cfg report.ct packets
    return (report :: reports, ct)

end

end Ovsgw.Conntrack
