/-
  **The text form of datapath actions** (`format_odp_actions` and
  `odp_actions_from_string` in `lib/odp-util.c`).

  The actions are the tree of their Netlink attributes.  The parser appends to a buffer,
  whose size it looks at when a nested list ends, so the size goes along.  It takes the
  text apart with `ovs_scan`, one kind of action after the other; the kinds with a syntax of
  their own (`userspace`, `set`, `sample`, `push_nsh`, `ct`, `tnl_push`) are a parameter.
-/
import Ovsgw.GatewayText
import Ovsgw.Lib.Bytes

namespace Ovsgw

open Lib (ByteOrder htonl)

/-! ## 1. Actions -/

/-- Netlink attributes of type `enum ovs_action_attr`.  The gateway actions have the members of
    `struct ofpact_config_gw` and `struct ofpact_handle_gw` as they are in memory; other numbers in
    network byte order are the numbers they stand for.  `other` is an attribute of another type
    with its payload. -/
inductive OdpAction where
  | output (port : BitVec 32)
  | lbOutput (bondId : BitVec 32)
  | trunc (maxLen : BitVec 32)
  | recirc (recircId : BitVec 32)
  | pushVlan (tpid tci : BitVec 16)
  | popVlan
  | meter (meterId : BitVec 32)
  | clone (actions : List OdpAction)
  | popNsh
  | tunnelPop (port : BitVec 32)
  | ctClear
  | checkPktLen (pktLen : BitVec 16) (greater lessEqual : List OdpAction)
  | drop (reason : BitVec 32)
  | configGw (configGw : OfpactConfigGw)
  | handleGw (handleGw : OfpactHandleGw)
  | other (type : Nat) (payload : List (BitVec 8))

mutual

def OdpAction.size : OdpAction → Nat
  | .output _ | .lbOutput _ | .trunc _ | .recirc _ | .pushVlan _ _ | .meter _ | .tunnelPop _
  | .drop _ => 8
  | .popVlan | .popNsh | .ctClear => 4
  | .clone actions => 4 + sizeOfActions actions
  | .checkPktLen _ greater lessEqual =>
    12 + (4 + sizeOfActions greater) + (4 + sizeOfActions lessEqual)
  | .configGw _ => 52
  | .handleGw _ => 24
  | .other _ payload => 4 + (payload.length + 3) / 4 * 4

def sizeOfActions : List OdpAction → Nat
  | [] => 0
  | action :: actions => action.size + sizeOfActions actions

end

/-! ## 2. Printing -/

/-- The parameters of the functions here: the byte order of the machine, the names of ports for
    the printer and for the parser, and what they do for the actions with a syntax of their own. -/
structure OdpContext where
  order : ByteOrder
  portnoNames : BitVec 32 → Option (List Char) := fun _ => none
  portNames : List Char → Option (BitVec 32) := fun _ => none
  formatOther : Nat → List (BitVec 8) → List Char
  parseOther : Nat → List Char → Except Nat (List OdpAction × List Char)

/-- `odp_portno_name_format`. -/
def OdpContext.portText (ctx : OdpContext) (port : BitVec 32) : List Char :=
  (ctx.portnoNames port).getD (Nat.toDigits 10 port.toNat)

def hexText (n : Nat) : List Char := if n = 0 then ['0'] else '0' :: 'x' :: Nat.toDigits 16 n

def vlanTciToVid (tci : BitVec 16) : Nat := tci.toNat % 2 ^ 12

def vlanTciToPcp (tci : BitVec 16) : Nat := tci.toNat / 2 ^ 13

/-- `format_vlan_tci` with a mask of all ones. -/
def formatVlanTci (tci : BitVec 16) : List Char :=
  "vid=".toList ++ (Nat.toDigits 10 (vlanTciToVid tci) ++
    (",pcp=".toList ++ (Nat.toDigits 10 (vlanTciToPcp tci) ++
    if tci.getLsbD 12 then [] else ",cfi=0".toList)))

def formatPushVlan (tpid tci : BitVec 16) : List Char :=
  "push_vlan(".toList ++
    ((if tpid ≠ 0x8100 then "tpid=0x".toList ++ (hexits 4 tpid.toNat ++ [',']) else []) ++
    (formatVlanTci tci ++ [')']))

section
variable (order : ByteOrder)

def formatOdpConfigGwAction (a : OfpactConfigGw) : List Char :=
  "config_gw(".toList ++ (numberField 10 "param1=" a.param1 ++
    (numberField 16 ",param2=" (htonl order a.param2) ++ (ethAddrField ",param3=" a.param3 ++
    (numberField 10 ",param4=" a.param4 ++ (numberField 16 ",param5=" (htonl order a.param5) ++
    (ethAddrField ",param6=" a.param6 ++ (numberField 10 ",param7=" a.param7 ++
    (numberField 16 ",param8=" (htonl order a.param8) ++ (ethAddrField ",param9=" a.param9 ++
    [')'])))))))))

def formatOdpHandleGwAction (a : OfpactHandleGw) : List Char :=
  "handle_gw(".toList ++ (numberField 16 "pipeline1=" (htonl order a.pipeline1) ++
    (numberField 16 ",pipeline2=" (htonl order a.pipeline2) ++
    (numberField 16 ",pipeline3=" (htonl order a.pipeline3) ++
    (numberField 16 ",pipeline4=" (htonl order a.pipeline4) ++
    (numberField 16 ",pipeline5=" (htonl order a.pipeline5) ++ [')'])))))

end

/-- An action with arguments in parentheses, from its name with the opening one. -/
def callText (start : String) (args : List Char) : List Char := start.toList ++ (args ++ [')'])

def flagText (name : String) : List Char := name.toList

/-- `format_odp_check_pkt_len_action`, from the texts of the lists. -/
def checkPktLenText (pktLen : BitVec 16) (greater lessEqual : List Char) : List Char :=
  "check_pkt_len(size=".toList ++ (Nat.toDigits 10 pktLen.toNat ++
    (",gt(".toList ++ (greater ++ ("),le(".toList ++ (lessEqual ++ [')', ')'])))))

mutual

def formatOdpAction (ctx : OdpContext) : OdpAction → List Char
  | .meter meterId => callText "meter(" (Nat.toDigits 10 meterId.toNat)
  | .output port => ctx.portText port
  | .lbOutput bondId => callText "lb_output(" (Nat.toDigits 10 bondId.toNat)
  | .trunc maxLen => callText "trunc(" (Nat.toDigits 10 maxLen.toNat)
  | .tunnelPop port => callText "tnl_pop(" (ctx.portText port)
  | .recirc recircId => callText "recirc(" (hexText recircId.toNat)
  | .pushVlan tpid tci => formatPushVlan tpid tci
  | .popVlan => flagText "pop_vlan"
  | .ctClear => flagText "ct_clear"
  | .clone actions => callText "clone(" (formatOdpActions ctx actions)
  | .popNsh => flagText "pop_nsh()"
  | .checkPktLen pktLen greater lessEqual =>
    checkPktLenText pktLen (formatOdpActions ctx greater) (formatOdpActions ctx lessEqual)
  | .drop _ => flagText "drop"
  | .configGw configGw => formatOdpConfigGwAction ctx.order configGw
  | .handleGw handleGw => formatOdpHandleGwAction ctx.order handleGw
  | .other type payload => ctx.formatOther type payload

def formatOdpActions (ctx : OdpContext) : List OdpAction → List Char
  | [] => flagText "drop"
  | action :: actions => formatOdpAction ctx action ++ formatMore ctx actions

def formatMore (ctx : OdpContext) : List OdpAction → List Char
  | [] => []
  | action :: actions => ',' :: (formatOdpAction ctx action ++ formatMore ctx actions)

end

/-! ## 3. Parsing -/

def eInval : Nat := 22

def eFbig : Nat := 27

/-- What a part of the parser yields: an error number, or the attributes that it appended
    and the text after what it parsed. -/
abbrev Parsed := Except Nat (List OdpAction × List Char)

/-- `parse_action_list`, with `parse` for `parse_odp_action`.  The text gets shorter with each
    action, so that `fuel` above its length is enough. -/
def parseActionList (parse : Nat → List Char → Parsed) : Nat → Nat → List Char → Parsed
  | 0, _, _ => .error eInval
  | fuel + 1, size, s =>
    let s := s.dropWhile (· ∈ delimiters)
    if s.head? = some ')' then
      if size > 65535 then .error eFbig else .ok ([], s)
    else
      match parse size s with
      | .error error => .error error
      | .ok (actions, rest) =>
        match parseActionList parse fuel (size + sizeOfActions actions) rest with
        | .error error => .error error
        | .ok (more, rest) => .ok (actions ++ more, rest)

/-- The number that `sscanf` reads for `%lli`, and the text after it. -/
def sscanfLli (s : List Char) : Option (Int × List Char) :=
  let s := s.dropWhile isSpace
  let negative := s.head? == some '-'
  let s := if s.head? = some '-' ∨ s.head? = some '+' then s.tail else s
  let (base, s) := scanBase 0 s
  let digits := s.takeWhile (isDigitIn base)
  if digits = [] then none
  else
    let n := digitsValue base digits 0
    some (if negative then -(min n (2 ^ 63) : Nat) else (min n (2 ^ 63 - 1) : Nat),
      s.dropWhile (isDigitIn base))

/-- The action `push_vlan` from the numbers in its text. -/
def pushVlanOf (tpid vid pcp cfi : BitVec 64) (rest : List Char) : Parsed :=
  let vid := vid.setWidth 32
  let pcp := pcp.setWidth 32
  if vid &&& ~~~0xfff#32 ≠ 0 ∨ pcp &&& ~~~7#32 ≠ 0 then .error eInval
  else
    let tci := vid ||| pcp <<< 13 ||| (if cfi.setWidth 32 = 0 then 0 else 0x1000#32)
    .ok ([.pushVlan (tpid.setWidth 16) (tci.setWidth 16)], rest)

/-- The four forms of `push_vlan`. -/
def parsePushVlan (s : List Char) : Option Parsed :=
  match ovsScan (literal "push_vlan(vid=" ++ .int 0 :: (literal ",pcp=" ++
      [.int 0, .lit ')'])) s with
  | some ([vid, pcp], rest) => some (pushVlanOf 0x8100 vid pcp 1 rest)
  | _ =>
  match ovsScan (literal "push_vlan(vid=" ++ .int 0 :: (literal ",pcp=" ++
      .int 0 :: (literal ",cfi=" ++ [.int 0, .lit ')']))) s with
  | some ([vid, pcp, cfi], rest) => some (pushVlanOf 0x8100 vid pcp cfi rest)
  | _ =>
  match ovsScan (literal "push_vlan(tpid=" ++ .int 0 :: (literal ",vid=" ++
      .int 0 :: (literal ",pcp=" ++ [.int 0, .lit ')']))) s with
  | some ([tpid, vid, pcp], rest) => some (pushVlanOf tpid vid pcp 1 rest)
  | _ =>
  match ovsScan (literal "push_vlan(tpid=" ++ .int 0 :: (literal ",vid=" ++
      .int 0 :: (literal ",pcp=" ++ .int 0 :: (literal ",cfi=" ++ [.int 0, .lit ')'])))) s with
  | some ([tpid, vid, pcp, cfi], rest) => some (pushVlanOf tpid vid pcp cfi rest)
  | _ => none

/-- An action with one number. -/
def parseNumber (format : List Directive) (action : BitVec 64 → OdpAction) (s : List Char) :
    Option Parsed :=
  match ovsScan format s with
  | some ([value], rest) => some (.ok ([action value], rest))
  | _ => none

/-- An action without arguments, of which only the start is compared. -/
def parseFlag (name : String) (action : OdpAction) (s : List Char) : Option Parsed :=
  if name.toList.isPrefixOf s then some (.ok ([action], s.drop name.length)) else none

/-- The meter is read by `sscanf`. -/
def parseMeter (s : List Char) : Option Parsed :=
  if "meter(".toList.isPrefixOf s then
    match sscanfLli (s.drop 6) with
    | some (meterId, ')' :: rest) => some (.ok ([.meter (BitVec.ofInt 32 meterId)], rest))
    | _ => none
  else none

def parseClone (list : Nat → List Char → Parsed) (size : Nat) (s : List Char) : Option Parsed :=
  if "clone(".toList.isPrefixOf s then
    some <|
      match list (size + 4) (s.drop 6) with
      | .error error => .error error
      | .ok (actions, rest) => .ok ([.clone actions], rest.drop 1)
  else none

def startsWithDrop (s : List Char) : Bool := (s.take 4).map Char.toLower == "drop".toList

/-- One of the lists of `check_pkt_len`. -/
def parseBranch (list : Nat → List Char → Parsed) (size : Nat) (s : List Char) : Parsed :=
  if startsWithDrop s then .ok ([], s.drop 4) else list size s

def parseCheckPktLen (list : Nat → List Char → Parsed) (size : Nat) (s : List Char) :
    Option Parsed :=
  match ovsScan (literal "check_pkt_len(size=" ++ .int 0 :: literal ",gt(") s with
  | some ([pktLen], rest) =>
    some <|
      match parseBranch list (size + 16) rest with
      | .error error => .error error
      | .ok (greater, rest) =>
        match ovsScan (literal "),le(") rest with
        | none => .error eInval
        | some (_, rest) =>
          match parseBranch list (size + 16 + sizeOfActions greater + 4) rest with
          | .error error => .error error
          | .ok (lessEqual, rest) =>
            if rest[1]? = some ')' then
              .ok ([.checkPktLen (pktLen.setWidth 16) greater lessEqual], rest.drop 2)
            else .error eInval
  | _ => none

/-- An action with a syntax of its own, if the text starts as such an action does. -/
def OdpContext.parseOtherAt (ctx : OdpContext) (start : String) (size : Nat) (s : List Char) :
    Option Parsed :=
  if start.toList.isPrefixOf s then some (ctx.parseOther size s) else none

def OdpContext.parsePortName (ctx : OdpContext) (s : List Char) : Option Parsed :=
  let isName : Char → Bool := fun c => c ∉ delimiters
  (ctx.portNames (s.takeWhile isName)).map fun port => .ok ([.output port], s.dropWhile isName)

/-- `parse_odp_action__`, with `list` for `parse_action_list`. -/
def parseOdpActionBody (ctx : OdpContext) (list : Nat → List Char → Parsed) (size : Nat)
    (s : List Char) : Parsed :=
  (parseNumber [.int 0] (fun port => .output (port.setWidth 32)) s <|>
    parseNumber (literal "lb_output(" ++ [.int 10, .lit ')'])
      (fun bondId => .lbOutput (bondId.setWidth 32)) s <|>
    parseNumber (literal "trunc(" ++ [.int 0, .lit ')'])
      (fun maxLen => .trunc (maxLen.setWidth 32)) s <|>
    ctx.parsePortName s <|>
    parseNumber (literal "recirc(" ++ [.int 10, .lit ')'])
      (fun recircId => .recirc (recircId.setWidth 32)) s <|>
    ctx.parseOtherAt "userspace(" size s <|>
    ctx.parseOtherAt "set(" size s <|>
    parsePushVlan s <|>
    parseFlag "pop_vlan" .popVlan s <|>
    parseMeter s <|>
    ctx.parseOtherAt "sample(sample=" size s <|>
    parseClone list size s <|>
    ctx.parseOtherAt "push_nsh(" size s <|>
    parseFlag "pop_nsh()" .popNsh s <|>
    parseNumber (literal "tnl_pop(" ++ [.int 0, .lit ')'])
      (fun port => .tunnelPop (port.setWidth 32)) s <|>
    parseFlag "ct_clear" .ctClear s <|>
    parseCheckPktLen list size s <|>
    ctx.parseOtherAt "ct" size s <|>
    ctx.parseOtherAt "tnl_push(tnl_port(" size s).getD (.error eInval)

/-- `parse_odp_action`.  The first argument is the number of levels below `MAX_ODP_NESTED`. -/
def parseOdpAction (ctx : OdpContext) : Nat → Nat → List Char → Parsed
  | 0, _, _ => .error eInval
  | levels + 1, size, s =>
    parseOdpActionBody ctx
      (fun size s => parseActionList (parseOdpAction ctx levels) (s.length + 1) size s) size s

/-- The loop of `odp_actions_from_string`: what it returns, and the attributes that are appended. -/
def fromStringLoop (parse : Nat → List Char → Parsed) :
    Nat → Nat → List Char → Int × List OdpAction
  | 0, _, _ => (eInval, [])
  | fuel + 1, size, s =>
    let s := s.dropWhile (· ∈ delimiters)
    if s = [] then (0, [])
    else
      match parse size s with
      | .error error => (error, [])
      | .ok (actions, rest) =>
        if rest.head?.all (· ∈ delimiters) then
          match fromStringLoop parse fuel (size + sizeOfActions actions) rest with
          | (0, more) => (0, actions ++ more)
          | (error, _) => (error, [])
        else (-((s.length - rest.length : Nat) : Int), [])

/-- `odp_actions_from_string`, when the buffer has `size` bytes already. -/
def odpActionsFromString (ctx : OdpContext) (size : Nat) (s : List Char) : Int × List OdpAction :=
  if s.map Char.toLower = "drop".toList then (0, [.drop 0])
  else fromStringLoop (parseOdpAction ctx 31) (s.length + 1) size s

end Ovsgw
