/-
  **Reading back the text of datapath actions.**

  For each kind of action it is said what the parser makes of its text, whatever comes after
  it; lists follow by induction on the actions, and nested lists by induction on the levels that
  the parser has left.  What is not read back are the kinds that the parser does not know or
  reads in another way than they are printed, empty clones, and lists that are nested too deeply
  or grow too long.
-/
import Ovsgw.OdpActionText

namespace Ovsgw

open List
open BitVec (ofNat)
open Nat (toDigits)

/-! ## 1. Numbers in actions -/

theorem setWidth_ofNat_toNat {w : Nat} (x : BitVec w) (h : w ≤ 64) :
    (ofNat 64 x.toNat).setWidth w = x := by
  apply BitVec.eq_of_toNat_eq
  have hlt : x.toNat < 2 ^ 64 := x.isLt.trans_le (Nat.pow_le_pow_right (by decide) h)
  rw [BitVec.toNat_setWidth, BitVec.toNat_ofNat, Nat.mod_eq_of_lt hlt, Nat.mod_eq_of_lt x.isLt]

variable {n : Nat} {port : BitVec 32} {actions : List OdpAction} {rest : List Char}

section
variable {ctx : OdpContext} {list : Nat → List Char → Parsed} {size : Nat} {s rest : List Char}

theorem sscanfLli_toDigits (hlt : n < 2 ^ 63) (h : endsNumber rest = true) :
    sscanfLli (toDigits 10 n ++ rest) = some ((n : Int), rest) := by
  obtain ⟨b, hle, hbase, hall, hvalue⟩ := scanBase_zero_toDigits n h
  have hstop := not_isDigitIn_of_ends hle h
  have hspace : (toDigits 10 n ++ rest).dropWhile isSpace = toDigits 10 n ++ rest :=
    @dropWhile_append_stop [] _ _ (by simp) head?_toDigits_not_space
  have hminus : (toDigits 10 n ++ rest).head? ≠ some '-' :=
    head?_ne_of_digits Nat.toDigits_ne_nil hall (isDigitIn_eq_false rfl)
  have hplus : (toDigits 10 n ++ rest).head? ≠ some '+' :=
    head?_ne_of_digits Nat.toDigits_ne_nil hall (isDigitIn_eq_false rfl)
  have hmin : min n (2 ^ 63 - 1) = n := by omega
  simp only [sscanfLli, hspace, hminus, hplus, or_self, if_false, hbase,
    takeWhile_append_stop hall hstop, dropWhile_append_stop hall hstop, Nat.toDigits_ne_nil,
    beq_eq_false_iff_ne.mpr hminus, hvalue, hmin]
  rfl

/-- An action `name(number)`. -/
theorem parseNumber_toDigits {name : String} {action : BitVec 64 → OdpAction} :
    parseNumber (literal name ++ [.int 0, .lit ')']) action
      (name.toList ++ (toDigits 10 n ++ ')' :: rest)) =
      some (.ok ([action (ofNat 64 n)], rest)) := by
  rw [parseNumber, ovsScan_literal, ovsScan_zero_toDigits _ rfl, ovsScan_lit]
  rfl

/-! ## 2. VLAN tags -/

section

variable (tpid tci : BitVec 16) (rest : List Char)

theorem setWidth_vid :
    (ofNat 64 (vlanTciToVid tci)).setWidth 32 = tci.setWidth 32 &&& 0xfff#32 := by
  apply BitVec.eq_of_toNat_eq
  have hlt := tci.isLt
  have hmask : tci.toNat &&& 4095 = tci.toNat % 2 ^ 12 := Nat.and_two_pow_sub_one_eq_mod _ 12
  rw [BitVec.toNat_setWidth, BitVec.toNat_ofNat, BitVec.toNat_and, BitVec.toNat_setWidth,
    Nat.mod_eq_of_lt (show tci.toNat < 2 ^ 32 by omega), vlanTciToVid]
  change _ = tci.toNat &&& 4095
  omega

theorem setWidth_pcp :
    (ofNat 64 (vlanTciToPcp tci)).setWidth 32 = tci.setWidth 32 >>> 13 := by
  apply BitVec.eq_of_toNat_eq
  have hlt := tci.isLt
  simp only [vlanTciToPcp, BitVec.toNat_setWidth, BitVec.toNat_ofNat, BitVec.toNat_ushiftRight,
    Nat.shiftRight_eq_div_pow]
  omega

theorem tci_of_fields : ((tci.setWidth 32 &&& 0xfff#32) ||| (tci.setWidth 32 >>> 13) <<< 13 |||
      (if tci.getLsbD 12 = false then 0 else 0x1000#32)).setWidth 16 = tci := by
  apply BitVec.eq_of_getLsbD_eq
  intro i hi
  cases hcfi : tci.getLsbD 12
  all_goals
    simp [hi]
    interval_cases i
  all_goals first
    | rfl
    | simp_all

theorem pushVlanOf_tci (tpid : BitVec 64) (tci : BitVec 16) (cfi : BitVec 64)
    (hcfi : cfi.setWidth 32 = 0 ↔ tci.getLsbD 12 = false) (rest : List Char) :
    pushVlanOf tpid (ofNat 64 (vlanTciToVid tci)) (ofNat 64 (vlanTciToPcp tci)) cfi
      rest = .ok ([.pushVlan (tpid.setWidth 16) tci], rest) := by
  have hvid : tci.setWidth 32 &&& 0xfff#32 &&& ~~~0xfff#32 = 0 := by
    rw [BitVec.and_assoc]
    exact BitVec.and_zero
  have hpcp : tci.setWidth 32 >>> 13 &&& ~~~7#32 = 0 := by
    apply BitVec.eq_of_getLsbD_eq
    intro i hi
    simp [hi]
    interval_cases i <;> simp
  simp only [pushVlanOf, setWidth_vid, setWidth_pcp, hvid, hpcp, hcfi, tci_of_fields, ne_eq,
    not_true_eq_false, or_self, if_false]

/-- What is printed of the flag of a tag, with the end of the action. -/
def cfiText (tci : BitVec 16) (rest : List Char) : List Char :=
  if tci.getLsbD 12 then ')' :: rest else ",cfi=0)".toList ++ rest

theorem formatVlanTci_append : formatVlanTci tci ++ ')' :: rest =
      "vid=".toList ++ (toDigits 10 (vlanTciToVid tci) ++
        (",pcp=".toList ++ (toDigits 10 (vlanTciToPcp tci) ++ cfiText tci rest))) := by
  rw [formatVlanTci, cfiText]
  simp only [append_assoc]
  cases tci.getLsbD 12 <;> rfl

theorem endsNumber_cfiText : endsNumber (cfiText tci rest) = true := by
  rw [cfiText]
  cases tci.getLsbD 12 <;> rfl

/-- The tag in an action, where `format` reads what comes after the priority. -/
theorem ovsScan_tag {format : List Directive} :
    ovsScan (literal "vid=" ++ .int 0 :: (literal ",pcp=" ++ .int 0 :: format))
      (formatVlanTci tci ++ ')' :: rest) =
      (ovsScan format (cfiText tci rest)).map fun (values, rest) =>
        (ofNat 64 (vlanTciToVid tci) :: ofNat 64 (vlanTciToPcp tci) :: values,
          rest) := by
  rw [formatVlanTci_append, ovsScan_literal, ovsScan_zero_toDigits _ rfl, ovsScan_literal,
    ovsScan_zero_toDigits _ (endsNumber_cfiText tci rest), Option.map_map]
  rfl

theorem ovsScan_close :
    ovsScan [.lit ')'] (cfiText tci rest) = if tci.getLsbD 12 then some ([], rest) else none := by
  rw [cfiText]
  cases tci.getLsbD 12 <;> rfl

theorem ovsScan_cfi {tci : BitVec 16} (hcfi : tci.getLsbD 12 = false) {rest : List Char} :
    ovsScan (literal ",cfi=" ++ [.int 0, .lit ')']) (cfiText tci rest) = some ([0], rest) := by
  rw [cfiText, hcfi]
  rfl

theorem parsePushVlan_8100 :
    parsePushVlan ("push_vlan(".toList ++ (formatVlanTci tci ++ ')' :: rest)) =
      some (.ok ([.pushVlan 0x8100 tci], rest)) := by
  have hscan (format : List Directive) :
      ovsScan (literal "push_vlan(vid=" ++ .int 0 :: (literal ",pcp=" ++ .int 0 :: format))
        ("push_vlan(".toList ++ (formatVlanTci tci ++ ')' :: rest)) = _ :=
    ovsScan_literal.trans (ovsScan_tag tci rest)
  rw [parsePushVlan, hscan, ovsScan_close]
  cases hcfi : tci.getLsbD 12 with
  | true => exact congrArg some (pushVlanOf_tci 0x8100 tci 1 (by rw [hcfi]; decide) rest)
  | false =>
    rw [hscan, ovsScan_cfi hcfi]
    exact congrArg some (pushVlanOf_tci 0x8100 tci 0 (by rw [hcfi]; decide) rest)

theorem parsePushVlan_tpid : parsePushVlan ("push_vlan(tpid=0x".toList ++
      (hexits 4 tpid.toNat ++ ',' :: (formatVlanTci tci ++ ')' :: rest))) =
      some (.ok ([.pushVlan tpid tci], rest)) := by
  have hscan (format : List Directive) :
      ovsScan (literal "push_vlan(tpid=" ++ .int 0 :: (literal ",vid=" ++
        .int 0 :: (literal ",pcp=" ++ .int 0 :: format)))
        ("push_vlan(tpid=0x".toList ++
          (hexits 4 tpid.toNat ++ ',' :: (formatVlanTci tci ++ ')' :: rest))) = _ :=
    ovsScan_literal.trans
      ((ovsScan_zero_hexits _ rfl tpid.isLt).trans (congrArg _ (ovsScan_tag tci rest)))
  have hvid (format : List Directive) (s : List Char) :
      ovsScan (literal "push_vlan(vid=" ++ format) ("push_vlan(tpid=0x".toList ++ s) = none := rfl
  have hpush (cfi : BitVec 64) (hcfi : cfi.setWidth 32 = 0 ↔ tci.getLsbD 12 = false) :
      pushVlanOf (ofNat 64 tpid.toNat) (ofNat 64 (vlanTciToVid tci))
        (ofNat 64 (vlanTciToPcp tci)) cfi rest = .ok ([.pushVlan tpid tci], rest) := by
    rw [pushVlanOf_tci _ tci cfi hcfi, setWidth_ofNat_toNat tpid (by decide)]
  rw [parsePushVlan, hvid, hvid, hscan, ovsScan_close]
  cases hcfi : tci.getLsbD 12 with
  | true => exact congrArg some (hpush 1 (by rw [hcfi]; decide))
  | false =>
    rw [hscan, ovsScan_cfi hcfi]
    exact congrArg some (hpush 0 (by rw [hcfi]; decide))

theorem append_close (a b c rest : List Char) :
    (a ++ (b ++ (c ++ [')']))) ++ rest = a ++ (b ++ (c ++ ')' :: rest)) := by
  simp

theorem formatPushVlan_append : formatPushVlan tpid tci ++ rest = "push_vlan(".toList ++
        ((if tpid ≠ 0x8100 then "tpid=0x".toList ++ (hexits 4 tpid.toNat ++ [',']) else []) ++
        (formatVlanTci tci ++ ')' :: rest)) :=
  append_close _ _ _ rest

theorem parsePushVlan_formatPushVlan :
    parsePushVlan (formatPushVlan tpid tci ++ rest) = some (.ok ([.pushVlan tpid tci], rest)) := by
  rw [formatPushVlan_append]
  by_cases htpid : tpid = 0x8100
  · rw [if_neg (not_not_intro htpid), htpid]
    exact parsePushVlan_8100 tci rest
  · have htext : (hexits 4 tpid.toNat ++ [',']) ++ (formatVlanTci tci ++ ')' :: rest) =
        hexits 4 tpid.toNat ++ ',' :: (formatVlanTci tci ++ ')' :: rest) := by
      simp
    have htag := parsePushVlan_tpid tpid tci rest
    rw [← htext] at htag
    rw [if_pos htpid]
    exact htag

end

/-! ## 3. Single actions -/

theorem parseBody_output (hends : endsNumber rest = true) :
    parseOdpActionBody ctx list size (toDigits 10 port.toNat ++ rest) =
      .ok ([.output port], rest) := by
  have hparse : parseNumber [.int 0] (fun port => .output (port.setWidth 32))
      (toDigits 10 port.toNat ++ rest) = some (.ok ([.output port], rest)) := by
    rw [parseNumber, ovsScan_zero_toDigits _ hends, ← setWidth_ofNat_toNat port (by decide)]
    simp [ovsScan]
  rw [parseOdpActionBody, hparse]
  rfl

theorem parseBody_trunc {maxLen : BitVec 32} : parseOdpActionBody ctx list size
      ("trunc(".toList ++ (toDigits 10 maxLen.toNat ++ ')' :: rest)) =
      .ok ([.trunc maxLen], rest) := by
  rw [parseOdpActionBody, parseNumber_toDigits]
  rw [setWidth_ofNat_toNat maxLen (by decide)]
  rfl

theorem parseBody_lbOutput {bondId : BitVec 32} : parseOdpActionBody ctx list size
      ("lb_output(".toList ++ (toDigits 10 bondId.toNat ++ ')' :: rest)) =
      .ok ([.lbOutput bondId], rest) := by
  have hparse : parseNumber (literal "lb_output(" ++ [.int 10, .lit ')'])
      (fun bondId => .lbOutput (bondId.setWidth 32))
      ("lb_output(".toList ++ (toDigits 10 bondId.toNat ++ ')' :: rest)) =
      some (.ok ([.lbOutput bondId], rest)) := by
    rw [parseNumber, ovsScan_literal, ovsScan_toDigits _ rfl, ovsScan_lit]
    dsimp only [ovsScan, Option.map_some]
    rw [setWidth_ofNat_toNat bondId (by decide)]
  rw [parseOdpActionBody, hparse]
  rfl

variable (hports : ctx.portNames = fun _ => none)
include hports

theorem parsePortName_none : ctx.parsePortName s = none := by
  rw [OdpContext.parsePortName, hports]
  rfl

theorem parseBody_tunnelPop : parseOdpActionBody ctx list size
      ("tnl_pop(".toList ++ (toDigits 10 port.toNat ++ ')' :: rest)) =
      .ok ([.tunnelPop port], rest) := by
  rw [parseOdpActionBody, parsePortName_none hports, parseNumber_toDigits]
  rw [setWidth_ofNat_toNat port (by decide)]
  rfl

theorem parseBody_meter {meterId : BitVec 32} : parseOdpActionBody ctx list size
      ("meter(".toList ++ (toDigits 10 meterId.toNat ++ ')' :: rest)) =
      .ok ([.meter meterId], rest) := by
  have hlt : meterId.toNat < 2 ^ 63 := meterId.isLt.trans (by decide)
  have hparse : parseMeter ("meter(".toList ++ (toDigits 10 meterId.toNat ++ ')' :: rest)) =
      some (.ok ([.meter meterId], rest)) := by
    have hdrop (s : List Char) : ("meter(".toList ++ s).drop 6 = s := rfl
    have hstart (s : List Char) : "meter(".toList.isPrefixOf ("meter(".toList ++ s) = true := rfl
    rw [parseMeter, if_pos (hstart _), hdrop, sscanfLli_toDigits hlt rfl]
    change some (Except.ok ([OdpAction.meter (BitVec.ofInt 32 (meterId.toNat : Int))], rest)) = _
    rw [BitVec.ofInt_natCast, BitVec.ofNat_toNat, BitVec.setWidth_eq]
  rw [parseOdpActionBody, parsePortName_none hports, hparse]
  rfl

theorem parseBody_clone : (parseOdpActionBody ctx list size ("clone(".toList ++ s)).toOption =
      (list (size + 4) s).toOption.map fun (actions, rest) => ([.clone actions], rest.drop 1) := by
  have hdrop : ("clone(".toList ++ s).drop 6 = s := rfl
  have hstart : "clone(".toList.isPrefixOf ("clone(".toList ++ s) = true := rfl
  rw [parseOdpActionBody, parsePortName_none hports, parseClone, if_pos hstart, hdrop]
  cases list (size + 4) s <;> rfl

theorem parseBody_checkPktLen (pktLen : BitVec 16) : (parseOdpActionBody ctx list size
      ("check_pkt_len(size=".toList ++
        (toDigits 10 pktLen.toNat ++ (",gt(".toList ++ s)))).toOption =
      (parseBranch list (size + 16) s).toOption.bind fun (greater, rest) =>
        (ovsScan (literal "),le(") rest).bind fun (_, rest) =>
          (parseBranch list (size + 16 + sizeOfActions greater + 4) rest).toOption.bind
            fun (lessEqual, rest) =>
              if rest[1]? = some ')' then
                some ([.checkPktLen pktLen greater lessEqual], rest.drop 2)
              else none := by
  have hsize : ovsScan (literal "check_pkt_len(size=" ++ .int 0 :: literal ",gt(")
      ("check_pkt_len(size=".toList ++ (toDigits 10 pktLen.toNat ++ (",gt(".toList ++ s))) =
      some ([ofNat 64 pktLen.toNat], s) := by
    rw [ovsScan_literal, ovsScan_zero_toDigits _ rfl]
    rfl
  have hparse : ∀ parsed, parseCheckPktLen list size
      ("check_pkt_len(size=".toList ++ (toDigits 10 pktLen.toNat ++ (",gt(".toList ++ s))) =
      some parsed → parseOdpActionBody ctx list size
      ("check_pkt_len(size=".toList ++ (toDigits 10 pktLen.toNat ++ (",gt(".toList ++ s))) =
      parsed := by
    intro parsed h
    rw [parseOdpActionBody, parsePortName_none hports, h]
    rfl
  rw [parseCheckPktLen, hsize] at hparse
  rw [hparse _ rfl, setWidth_ofNat_toNat pktLen (by decide)]
  cases parseBranch list (size + 16) s with
  | error error => rfl
  | ok found =>
    obtain ⟨greater, rest⟩ := found
    dsimp only [Except.toOption, Option.bind]
    cases ovsScan (literal "),le(") rest with
    | none => rfl
    | some found =>
      dsimp only
      cases parseBranch list (size + 16 + sizeOfActions greater + 4) found.2 with
      | error error => rfl
      | ok found =>
        by_cases hclose : found.2[1]? = some ')' <;> simp [hclose]

theorem parseBody_pushVlan {tpid tci : BitVec 16} :
    parseOdpActionBody ctx list size (formatPushVlan tpid tci ++ rest) =
      .ok ([.pushVlan tpid tci], rest) := by
  rw [parseOdpActionBody, parsePortName_none hports, parsePushVlan_formatPushVlan]
  rfl

end

/-! ## 4. Lists of actions -/

mutual

/-- The actions with a text that is known: not those with a syntax of their own, nor one that
    drops the packet. -/
def OdpAction.covered : OdpAction → Bool
  | .clone actions => allCovered actions
  | .checkPktLen _ greater lessEqual => allCovered greater && allCovered lessEqual
  | .drop _ | .other _ _ => false
  | _ => true

def allCovered : List OdpAction → Bool
  | [] => true
  | action :: actions => action.covered && allCovered actions

end

mutual

/-- The action is read back where the parser has so many levels left and the buffer has `size`
    bytes: it is not a gateway action, recirculation is to ID 0, a clone does something, and
    inner lists end below 64 kB.  An empty list in `check_pkt_len` is printed as `drop`. -/
def OdpAction.readable : OdpAction → (levels size : Nat) → Bool
  | _, 0, _ => false
  | .recirc recircId, _ + 1, _ => recircId == 0
  | .clone actions, levels + 1, size =>
    !actions.isEmpty && (allReadable actions levels (size + 4) &&
      decide (size + 4 + sizeOfActions actions ≤ 65535))
  | .checkPktLen _ greater lessEqual, levels + 1, size =>
    let middle := size + 16 + sizeOfActions greater
    (greater.isEmpty || (allReadable greater levels (size + 16) && decide (middle ≤ 65535))) &&
      (lessEqual.isEmpty || (allReadable lessEqual levels (middle + 4) &&
        decide (middle + 4 + sizeOfActions lessEqual ≤ 65535)))
  | .drop _, _ + 1, _ | .configGw _, _ + 1, _ | .handleGw _, _ + 1, _ | .other _ _, _ + 1, _ => false
  | _, _ + 1, _ => true

def allReadable : List OdpAction → (levels size : Nat) → Bool
  | [], _, _ => true
  | action :: actions, levels, size =>
    action.readable levels size && allReadable actions levels (size + action.size)

end

theorem allCovered_iff :
    allCovered actions = true ↔ ∀ action ∈ actions, action.covered = true := by
  induction actions with
  | nil => simp [allCovered]
  | cons action actions ih => simp [allCovered, ih]

/-- The text of an action: it is not skipped, does not end a list and is not `drop`. -/
def startsAction (text : List Char) : Bool :=
  text.head?.any fun c => c ∉ delimiters && c != ')' && c.toLower != 'd'

/-- An action whose text starts one, and that `parse` reads back just if it is readable. -/
structure OdpAction.ReadBack (ctx : OdpContext) (parse : Nat → List Char → Parsed) (levels : Nat)
    (action : OdpAction) : Prop where
  starts : startsAction (formatOdpAction ctx action) = true
  parses : ∀ size rest, endsNumber rest = true →
    (parse size (formatOdpAction ctx action ++ rest)).toOption =
      if action.readable levels size then some ([action], rest) else none

section
variable {ctx : OdpContext} {parse : Nat → List Char → Parsed} {action : OdpAction}
  {actions : List OdpAction} {fuel levels size : Nat} {s rest : List Char}

theorem startsAction_toDigits : startsAction (toDigits 10 n) = true := by
  obtain ⟨c, cs, hdigits⟩ := exists_cons_of_ne_nil (Nat.toDigits_ne_nil (n := n) (b := 10))
  have hc : c ∈ toDigits 10 n := hdigits ▸ mem_cons_self
  obtain ⟨m, hm, rfl⟩ := mem_toDigits (by decide) hc
  have hall : ∀ m : Fin 10, startsAction [Nat.digitChar m] = true := by decide
  rw [hdigits]
  exact hall ⟨m, hm⟩

theorem portText_eq (hnames : ctx.portnoNames = fun _ => none) :
    ctx.portText port = toDigits 10 port.toNat := by
  rw [OdpContext.portText, hnames]
  rfl

theorem startsAction_format (hnames : ctx.portnoNames = fun _ => none)
    (h : action.covered = true) : startsAction (formatOdpAction ctx action) = true := by
  cases action with
  | output port =>
    rw [formatOdpAction, portText_eq hnames]
    exact startsAction_toDigits
  | pushVlan => rfl
  | drop | other => simp [OdpAction.covered] at h
  | _ =>
    rw [formatOdpAction]
    rfl

theorem endsNumber_formatMore (hrest : endsNumber rest = true) :
    endsNumber (formatMore ctx actions ++ rest) = true := by
  cases actions with
  | nil => exact hrest
  | cons action actions => rfl

theorem exists_of_startsAction (h : startsAction s = true) :
    ∃ c t, s = c :: t ∧ c ∉ delimiters ∧ c ≠ ')' ∧ c.toLower ≠ 'd' := by
  cases s with
  | nil => cases h
  | cons c t => exact ⟨c, t, rfl, by simpa [startsAction, and_assoc] using h⟩

theorem skip_comma (hstarts : startsAction (formatOdpAction ctx action) = true)
    (actions : List OdpAction) (rest : List Char) :
    (formatMore ctx (action :: actions) ++ rest).dropWhile (· ∈ delimiters) =
      formatOdpAction ctx action ++ (formatMore ctx actions ++ rest) := by
  obtain ⟨c, s, htext, hc, -⟩ := exists_of_startsAction hstarts
  rw [formatMore, cons_append, append_assoc, htext,
    dropWhile_cons_of_pos (by decide), cons_append,
    dropWhile_cons_of_neg (by simpa using hc)]

theorem sizeOfActions_singleton : sizeOfActions [action] = action.size := by
  simp [sizeOfActions]

theorem length_le_formatMore (ctx : OdpContext) (actions : List OdpAction) :
    actions.length ≤ (formatMore ctx actions).length := by
  induction actions with
  | nil => exact Nat.zero_le _
  | cons action actions ih =>
    rw [formatMore, length_cons, length_cons, length_append]
    omega

theorem length_le_formatOdpActions (hstarts : startsAction (formatOdpAction ctx action) = true)
    (actions : List OdpAction) :
    (action :: actions).length ≤ (formatOdpActions ctx (action :: actions)).length := by
  have hmore := length_le_formatMore ctx actions
  obtain ⟨c, s, htext, -⟩ := exists_of_startsAction hstarts
  rw [formatOdpActions, htext, length_cons, length_append, length_cons]
  omega

theorem formatMore_cons :
    formatMore ctx (action :: actions) = ',' :: formatOdpActions ctx (action :: actions) := by
  rw [formatMore, formatOdpActions]

theorem parseActionList_toOption : (parseActionList parse (fuel + 1) size s).toOption =
      let s := s.dropWhile (· ∈ delimiters)
      if s.head? = some ')' then if size > 65535 then none else some ([], s)
      else
        (parse size s).toOption.bind fun (actions, rest) =>
          (parseActionList parse fuel (size + sizeOfActions actions) rest).toOption.map
            fun (more, rest) => (actions ++ more, rest) := by
  rw [parseActionList]
  dsimp only
  split
  · split <;> rfl
  · cases parse size (s.dropWhile (· ∈ delimiters)) with
    | error error => rfl
    | ok found =>
      dsimp only [Except.toOption, Option.bind]
      cases parseActionList parse fuel (size + sizeOfActions found.1) found.2 <;> rfl

section

variable (hreads : ∀ a ∈ actions, a.ReadBack ctx parse levels)
include hreads

/-- The loop of `parse_action_list` on the printed actions of a list. -/
theorem parseActionList_formatMore (hfuel : actions.length ≤ fuel) (rest : List Char) :
    (parseActionList parse (fuel + 1) size (formatMore ctx actions ++ ')' :: rest)).toOption =
      if allReadable actions levels size && decide (size + sizeOfActions actions ≤ 65535) then
        some (actions, ')' :: rest)
      else none := by
  induction actions generalizing fuel size with
  | nil =>
    rw [parseActionList_toOption]
    by_cases hle : size ≤ 65535
    · simp [formatMore, delimiters, allReadable, sizeOfActions, hle, Nat.not_lt.mpr hle]
    · simp [formatMore, delimiters, allReadable, sizeOfActions, hle, Nat.lt_of_not_le hle]
  | cons action actions ih =>
    obtain ⟨fuel, rfl⟩ := Nat.exists_eq_add_one_of_ne_zero (Nat.ne_zero_of_lt hfuel)
    obtain ⟨hstart, hparses⟩ := hreads action mem_cons_self
    rw [length_cons] at hfuel
    have hread := hparses size (formatMore ctx actions ++ ')' :: rest) (endsNumber_formatMore rfl)
    have hlist := @ih fuel (size + action.size)
      (fun a ha => hreads a (mem_cons_of_mem _ ha)) (by omega)
    have hparen : (formatOdpAction ctx action ++ (formatMore ctx actions ++ ')' :: rest)).head? ≠
        some ')' := by
      obtain ⟨c, s, htext, -, hc, -⟩ := exists_of_startsAction hstart
      simpa [htext] using hc
    rw [parseActionList_toOption, skip_comma hstart]
    rw [if_neg hparen, hread, allReadable, sizeOfActions, ← Nat.add_assoc, Bool.and_assoc]
    cases action.readable levels size with
    | false => rfl
    | true =>
      rw [if_pos rfl, Option.bind_some, Bool.true_and]
      dsimp only
      rw [sizeOfActions_singleton, hlist]
      split <;> rfl

theorem parseActionList_formatOdpActions (hne : actions ≠ []) :
    (parseActionList parse ((formatOdpActions ctx actions ++ ')' :: rest).length + 1) size
      (formatOdpActions ctx actions ++ ')' :: rest)).toOption =
      if allReadable actions levels size && decide (size + sizeOfActions actions ≤ 65535) then
        some (actions, ')' :: rest)
      else none := by
  obtain ⟨action, actions, rfl⟩ := exists_cons_of_ne_nil hne
  have hlength := length_le_formatOdpActions (hreads action mem_cons_self).starts actions
  have hfuel : (action :: actions).length ≤
      (formatOdpActions ctx (action :: actions) ++ ')' :: rest).length := by
    rw [length_append]
    omega
  have hlist := @parseActionList_formatMore _ _ _ _ _ size hreads hfuel rest
  rw [formatMore_cons] at hlist
  exact hlist

theorem parseBranch_formatOdpActions :
    (parseBranch (fun size s => parseActionList parse (s.length + 1) size s) size
      (formatOdpActions ctx actions ++ ')' :: rest)).toOption =
      if actions.isEmpty || (allReadable actions levels size &&
          decide (size + sizeOfActions actions ≤ 65535)) then
        some (actions, ')' :: rest)
      else none := by
  by_cases hne : actions = []
  · rw [hne, formatOdpActions]
    rfl
  · have hdrop : startsWithDrop (formatOdpActions ctx actions ++ ')' :: rest) = false := by
      obtain ⟨action, actions, rfl⟩ := exists_cons_of_ne_nil hne
      obtain ⟨c, s, htext, -, -, hc⟩ :=
        exists_of_startsAction (hreads action mem_cons_self).starts
      simp [formatOdpActions, htext, startsWithDrop, hc]
    rw [parseBranch, hdrop, isEmpty_eq_false_iff.mpr hne, Bool.false_or]
    exact parseActionList_formatOdpActions hreads hne

/-- The loop of `odp_actions_from_string` on the printed actions of a list. -/
theorem fromStringLoop_formatMore (hfuel : actions.length ≤ fuel) :
    fromStringLoop parse (fuel + 1) size (formatMore ctx actions) = (0, actions) ↔
      allReadable actions levels size = true := by
  induction actions generalizing fuel size with
  | nil => simp [fromStringLoop, formatMore, allReadable]
  | cons action actions ih =>
    obtain ⟨fuel, rfl⟩ := Nat.exists_eq_add_one_of_ne_zero (Nat.ne_zero_of_lt hfuel)
    obtain ⟨hstart, hparses⟩ := hreads action mem_cons_self
    rw [length_cons] at hfuel
    have hread := hparses size (formatMore ctx actions ++ []) (endsNumber_formatMore rfl)
    have hlist := @ih fuel (size + action.size)
      (fun a ha => hreads a (mem_cons_of_mem _ ha)) (by omega)
    have hskip := skip_comma hstart actions []
    rw [append_nil, append_nil] at hskip
    rw [append_nil] at hread
    have hne : formatOdpAction ctx action ++ formatMore ctx actions ≠ [] := by
      obtain ⟨c, s, htext, -⟩ := exists_of_startsAction hstart
      simp [htext]
    have hends : (formatMore ctx actions).head?.all (· ∈ delimiters) = true := by
      cases actions with
      | nil => rfl
      | cons action actions => rfl
    rw [fromStringLoop, hskip]
    rw [if_neg hne, allReadable, Bool.and_eq_true, ← hlist]
    cases hparse : parse size (formatOdpAction ctx action ++ formatMore ctx actions) with
    | error error =>
      rw [hparse] at hread
      cases hreadable : action.readable levels size with
      | false => simp
      | true =>
        rw [hreadable] at hread
        cases hread
    | ok found =>
      rw [hparse] at hread
      cases hreadable : action.readable levels size with
      | false =>
        rw [hreadable] at hread
        cases hread
      | true =>
        rw [hreadable] at hread
        obtain rfl : found = ([action], formatMore ctx actions) := Option.some.inj hread
        dsimp only
        rw [if_pos hends, sizeOfActions_singleton]
        split
        next more hloop => simp [hloop]
        next error more hnot hloop =>
          have hne : error ≠ 0 := hnot
          simp [hloop, hne]

end

end

/-! ## 5. What is printed is read back -/

theorem callText_append {start : String} {args : List Char} :
    callText start args ++ rest = start.toList ++ (args ++ ')' :: rest) := by
  simp [callText]

theorem append_five {a b c d e f : List Char} :
    (a ++ (b ++ (c ++ (d ++ (e ++ (f ++ [')', ')'])))))) ++ rest =
      a ++ (b ++ (c ++ (d ++ (e ++ (f ++ ')' :: ')' :: rest))))) := by
  simp

theorem checkPktLenText_append {pktLen : BitVec 16} {greater lessEqual : List Char} :
    checkPktLenText pktLen greater lessEqual ++ rest =
      "check_pkt_len(size=".toList ++ (toDigits 10 pktLen.toNat ++
        (",gt(".toList ++ (greater ++ ("),le(".toList ++ (lessEqual ++ ')' :: ')' :: rest))))) :=
  append_five

section
variable {ctx : OdpContext} (hnames : ctx.portnoNames = fun _ => none)
  (hports : ctx.portNames = fun _ => none)
include hnames hports

theorem parseOdpAction_reads (levels : Nat) (action : OdpAction) (hcovered : action.covered = true) :
    action.ReadBack ctx (parseOdpAction ctx levels) levels := by
  refine ⟨startsAction_format hnames hcovered, ?_⟩
  intro size rest hends
  induction levels generalizing action size rest with
  | zero => cases action <;> rfl
  | succ levels ih =>
    have hlist (actions : List OdpAction) (hall : allCovered actions = true) :
        ∀ a ∈ actions, a.ReadBack ctx (parseOdpAction ctx levels) levels := by
      intro a ha
      have hcovered := allCovered_iff.mp hall a ha
      exact ⟨startsAction_format hnames hcovered, ih a hcovered⟩
    rw [parseOdpAction]
    cases action with
    | output port =>
      rw [formatOdpAction, portText_eq hnames, parseBody_output hends]
      rfl
    | lbOutput bondId =>
      rw [formatOdpAction, callText_append, parseBody_lbOutput]
      rfl
    | trunc maxLen =>
      rw [formatOdpAction, callText_append, parseBody_trunc]
      rfl
    | recirc recircId =>
      rw [formatOdpAction, callText_append, parseOdpActionBody, parsePortName_none hports]
      by_cases hzero : recircId = 0
      · rw [hzero]
        rfl
      · -- The hexadecimal number is read up to the `x` only.
        have hne : recircId.toNat ≠ 0 := fun h => hzero (BitVec.eq_of_toNat_eq h)
        rw [hexText, if_neg hne, OdpAction.readable, beq_eq_false_iff_ne.mpr hzero]
        rfl
    | pushVlan tpid tci =>
      rw [formatOdpAction, parseBody_pushVlan hports]
      rfl
    | popVlan | popNsh | ctClear | configGw | handleGw =>
      rw [formatOdpAction, parseOdpActionBody, parsePortName_none hports]
      rfl
    | meter meterId =>
      rw [formatOdpAction, callText_append, parseBody_meter hports]
      rfl
    | clone actions =>
      rw [OdpAction.covered] at hcovered
      rw [formatOdpAction, callText_append, parseBody_clone hports, OdpAction.readable]
      by_cases hne : actions = []
      · rw [hne, parseActionList_toOption, formatOdpActions]
        have hdrop : parseOdpAction ctx levels (size + 4) ("drop".toList ++ ')' :: rest) =
            .error eInval := by
          cases levels with
          | zero => rfl
          | succ levels =>
            rw [parseOdpAction, parseOdpActionBody, parsePortName_none hports]
            rfl
        exact congrArg (fun parsed : Parsed => (parsed.toOption.bind _).map _) hdrop
      · rw [parseActionList_formatOdpActions (hlist actions hcovered) hne,
          isEmpty_eq_false_iff.mpr hne, Bool.not_false, Bool.true_and]
        split <;> rfl
    | tunnelPop port =>
      rw [formatOdpAction, portText_eq hnames, callText_append, parseBody_tunnelPop hports]
      rfl
    | checkPktLen pktLen greater lessEqual =>
      rw [OdpAction.covered, Bool.and_eq_true] at hcovered
      have hbetween : "),le(".toList ++ (formatOdpActions ctx lessEqual ++ ')' :: ')' :: rest) =
          ')' :: (",le(".toList ++ (formatOdpActions ctx lessEqual ++ ')' :: ')' :: rest)) := rfl
      have hscan (s : List Char) :
          ovsScan (literal "),le(") (')' :: (",le(".toList ++ s)) = some ([], s) := rfl
      rw [formatOdpAction, checkPktLenText_append, parseBody_checkPktLen hports, hbetween,
        parseBranch_formatOdpActions (hlist greater hcovered.1), OdpAction.readable]
      dsimp only
      cases greater.isEmpty || (allReadable greater levels (size + 16) &&
          decide (size + 16 + sizeOfActions greater ≤ 65535)) with
      | false => rfl
      | true =>
        rw [if_pos rfl, Option.bind_some, Bool.true_and]
        dsimp only
        rw [hscan, Option.bind_some, parseBranch_formatOdpActions (hlist lessEqual hcovered.2)]
        split <;> rfl
    | drop | other => cases hcovered

/-- The text of a list of actions gives the list back just if the list is not empty and all
    actions in it are readable. -/
theorem odpActionsFromString_formatOdpActions (size : Nat) (actions : List OdpAction)
    (hcovered : allCovered actions = true) :
    odpActionsFromString ctx size (formatOdpActions ctx actions) = (0, actions) ↔
      actions ≠ [] ∧ allReadable actions 31 size = true := by
  have hreads : ∀ a ∈ actions, a.ReadBack ctx (parseOdpAction ctx 31) 31 :=
    fun a ha => parseOdpAction_reads hnames hports 31 a (allCovered_iff.mp hcovered a ha)
  cases actions with
  | nil => simp [odpActionsFromString, formatOdpActions, flagText]
  | cons action actions =>
    have hstart := (hreads action mem_cons_self).starts
    have hdrop : (formatOdpActions ctx (action :: actions)).map Char.toLower ≠ "drop".toList := by
      obtain ⟨c, s, htext, -, -, hc⟩ := exists_of_startsAction hstart
      simp [formatOdpActions, htext, hc]
    have hlength := length_le_formatOdpActions hstart actions
    have hloop := @fromStringLoop_formatMore _ _ _ _ _ size hreads hlength
    rw [formatMore_cons] at hloop
    rw [odpActionsFromString, if_neg hdrop]
    exact hloop.trans (and_iff_right (cons_ne_nil _ _)).symm

end

def plainContext : OdpContext where
  order := .little
  formatOther := fun _ _ => []
  parseOther := fun _ _ => .error eInval

theorem odpActionsFromString_nested :
    let actions : List OdpAction := [.trunc 64, .clone [.pushVlan 0x88a8 0x2005, .output 3],
      .checkPktLen 1500 [] [.clone [.meter 7, .popVlan]], .recirc 0]
    odpActionsFromString plainContext 0 (formatOdpActions plainContext actions) = (0, actions) :=
  (odpActionsFromString_formatOdpActions rfl rfl 0 _ rfl).mpr ⟨cons_ne_nil _ _, by decide⟩

/-- The parser does not know the action that configures the gateway, and it takes the
    hexadecimal ID of a recirculation for a decimal one. -/
theorem odpActionsFromString_fails : let noAddr := ethAddr 0 0 0 0 0 0
    let configGw : OfpactConfigGw := ⟨1, 0, noAddr, 0, 0, noAddr, 0, 0, noAddr⟩
    odpActionsFromString plainContext 0 (formatOdpActions plainContext [.configGw configGw]) =
        (22, []) ∧
      odpActionsFromString plainContext 0 (formatOdpActions plainContext [.recirc 1]) =
        (22, []) := by
  constructor <;> rfl

end Ovsgw
