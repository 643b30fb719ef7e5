/-
  **The gateway actions in both printed forms**: as OpenFlow actions (`lib/ofp-actions.c`) and,
  after `compose_config_gw_action` and `compose_handle_gw_action`
  (`ofproto/ofproto-dpif-xlate.c`), as datapath actions (`lib/odp-util.c`).

  The members are copied as they are.  The printer of the datapath actions takes most of them to
  be in network byte order, the printer of the OpenFlow actions takes none of them so.
-/
import Ovsgw.OdpActionText

namespace Ovsgw

open Datapath (EthAddr)
open Lib (ByteOrder htonl)

def composeConfigGwAction (a : OfpactConfigGw) : OdpAction := .configGw a

def composeHandleGwAction (a : OfpactHandleGw) : OdpAction := .handleGw a

/-- The members, some of them after the `ntohl` of the datapath's printer. -/
def OfpactConfigGw.swapped (order : ByteOrder) (a : OfpactConfigGw) : OfpactConfigGw :=
  { a with
    param2 := htonl order a.param2, param5 := htonl order a.param5, param8 := htonl order a.param8 }

def OfpactHandleGw.swapped (order : ByteOrder) (a : OfpactHandleGw) : OfpactHandleGw :=
  ⟨htonl order a.pipeline1, htonl order a.pipeline2, htonl order a.pipeline3,
    htonl order a.pipeline4, htonl order a.pipeline5⟩

/-- A parameter of an action, printed after `name`. -/
inductive Printed where
  | number (base : Nat) (name : String) (value : BitVec 32)
  | address (name : String) (value : EthAddr)

variable {order : ByteOrder} {a : OfpactConfigGw}

namespace Printed

def text : Printed → List Char
  | number base name value => numberField base name value
  | address name value => ethAddrField name value

/-- What is read after the name, in the base of the number.  Nothing is printed for zero. -/
def read : Printed → Nat ⊕ Option EthAddr
  | number base name value =>
    .inl (digitsValue base ((number base name value).text.drop name.toList.length) 0)
  | address name value => .inr (strToMac ((address name value).text.drop name.toList.length))

theorem read_number {base : Nat} (hb : 1 < base ∧ base ≤ 16) (name : String) (value : BitVec 32) :
    (number base name value).read = .inl value.toNat := by
  rw [read, text, numberField]
  split
  · rw [List.drop_left, digitsValue_toDigits hb.1 hb.2]
  next h =>
    rw [not_not.mp h, List.drop_nil]
    rfl

theorem read_address {name : String} {value : EthAddr} :
    (address name value).read = .inr (some value) := by
  rw [read, text, ethAddrField, List.drop_left, strToMac_ethAddrText]

end Printed

/-- An action with its parameters, from its name with the opening parenthesis. -/
def printed (start : String) (params : List Printed) : List Char :=
  start.toList ++ (params.flatMap Printed.text ++ [')'])

/-- The parameters of `config_gw`; the two printers differ in the base of three of them. -/
def configGwPrinted (base : Nat) (a : OfpactConfigGw) : List Printed :=
  [.number 10 "param1=" a.param1, .number base ",param2=" a.param2, .address ",param3=" a.param3,
    .number 10 ",param4=" a.param4, .number base ",param5=" a.param5, .address ",param6=" a.param6,
    .number 10 ",param7=" a.param7, .number base ",param8=" a.param8, .address ",param9=" a.param9]

def handleGwPrinted (a : OfpactHandleGw) : List Printed :=
  [.number 16 "pipeline1=" a.pipeline1, .number 16 ",pipeline2=" a.pipeline2,
    .number 16 ",pipeline3=" a.pipeline3, .number 16 ",pipeline4=" a.pipeline4,
    .number 16 ",pipeline5=" a.pipeline5]

theorem formatConfigGw_eq : formatConfigGw a = printed "config_gw(" (configGwPrinted 10 a) := by
  unfold formatConfigGw configGwArgs printed
  generalize "config_gw(".toList = start
  simp only [configGwPrinted, List.flatMap_cons, Printed.text, List.flatMap_nil, List.append_nil]

theorem formatOdpConfigGwAction_eq :
    formatOdpConfigGwAction order a =
      printed "config_gw(" (configGwPrinted 16 (a.swapped order)) := by
  unfold formatOdpConfigGwAction printed
  generalize "config_gw(".toList = start
  simp only [configGwPrinted, OfpactConfigGw.swapped, List.flatMap_cons, Printed.text,
    List.flatMap_nil, List.append_nil, List.append_assoc]

theorem formatHandleGw_eq {a : OfpactHandleGw} :
    formatHandleGw a = printed "handle_gw(" (handleGwPrinted a) := by
  unfold formatHandleGw handleGwArgs printed
  generalize "handle_gw(".toList = start
  simp only [handleGwPrinted, List.flatMap_cons, Printed.text, List.flatMap_nil, List.append_nil]

theorem formatOdpHandleGwAction_eq {a : OfpactHandleGw} :
    formatOdpHandleGwAction order a = printed "handle_gw(" (handleGwPrinted (a.swapped order)) := by
  unfold formatOdpHandleGwAction printed
  generalize "handle_gw(".toList = start
  simp only [handleGwPrinted, OfpactHandleGw.swapped, List.flatMap_cons, Printed.text,
    List.flatMap_nil, List.append_nil, List.append_assoc]

theorem configGw_read_iff {b : OfpactConfigGw} :
    (configGwPrinted 16 a).map Printed.read = (configGwPrinted 10 b).map Printed.read ↔ a = b := by
  have h10 := @Printed.read_number 10 (by decide)
  have h16 := @Printed.read_number 16 (by decide)
  simp only [configGwPrinted, List.map_cons, List.map_nil, h10, h16, Printed.read_address]
  cases a
  cases b
  simp [BitVec.toNat_inj]

theorem handleGw_read_iff {a b : OfpactHandleGw} :
    (handleGwPrinted a).map Printed.read = (handleGwPrinted b).map Printed.read ↔ a = b := by
  have h16 := @Printed.read_number 16 (by decide)
  simp only [handleGwPrinted, List.map_cons, List.map_nil, h16]
  cases a
  cases b
  simp [BitVec.toNat_inj]

/-- Both forms print the members in the same places, and the values that are read in them are the
    same exactly if the bytes of each number that goes through `ntohl` read the same backwards. -/
theorem gatewayActions_samePrinted (ctx : OdpContext) (a : OfpactConfigGw) (b : OfpactHandleGw) :
    ((formatOdpAction ctx (composeConfigGwAction a) =
          printed "config_gw(" (configGwPrinted 16 (a.swapped ctx.order)) ∧
        formatConfigGw a = printed "config_gw(" (configGwPrinted 10 a)) ∧
      ((configGwPrinted 16 (a.swapped ctx.order)).map Printed.read =
          (configGwPrinted 10 a).map Printed.read ↔
        htonl ctx.order a.param2 = a.param2 ∧ htonl ctx.order a.param5 = a.param5 ∧
          htonl ctx.order a.param8 = a.param8)) ∧
    (formatOdpAction ctx (composeHandleGwAction b) =
          printed "handle_gw(" (handleGwPrinted (b.swapped ctx.order)) ∧
        formatHandleGw b = printed "handle_gw(" (handleGwPrinted b)) ∧
      ((handleGwPrinted (b.swapped ctx.order)).map Printed.read =
          (handleGwPrinted b).map Printed.read ↔
        htonl ctx.order b.pipeline1 = b.pipeline1 ∧ htonl ctx.order b.pipeline2 = b.pipeline2 ∧
          htonl ctx.order b.pipeline3 = b.pipeline3 ∧ htonl ctx.order b.pipeline4 = b.pipeline4 ∧
          htonl ctx.order b.pipeline5 = b.pipeline5) := by
  rw [composeConfigGwAction, composeHandleGwAction, formatOdpAction, formatOdpAction]
  refine ⟨⟨⟨formatOdpConfigGwAction_eq, formatConfigGw_eq⟩, ?_⟩,
    ⟨formatOdpHandleGwAction_eq, formatHandleGw_eq⟩, ?_⟩
  · rw [configGw_read_iff]
    cases a
    simp [OfpactConfigGw.swapped]
  · rw [handleGw_read_iff]
    cases b
    simp [OfpactHandleGw.swapped]

/-- The first pipeline is printed as 1 and as 1000000. -/
theorem handleGw_printed_swapped :
    formatHandleGw { pipeline1 := 1 } = "handle_gw(pipeline1=1)".toList ∧
      formatOdpAction
        { order := .little, formatOther := fun _ _ => [], parseOther := fun _ _ => .error eInval }
        (composeHandleGwAction { pipeline1 := 1 }) = "handle_gw(pipeline1=1000000)".toList := by
  constructor <;> rfl

end Ovsgw
