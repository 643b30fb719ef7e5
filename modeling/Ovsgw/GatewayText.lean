/-
  **The text forms of gateway parameters**: the actions `config_gw` and `handle_gw`
  (`lib/ofp-actions.c`) and the arguments of `dpctl set-gateway-params` (`lib/dpctl.c`).

  The actions are printed field by field and read back through
  `ofputil_parse_key_value`.  The pipelines of `handle_gw` are printed in base 16 and read
  in base 10.  The command reads its arguments into a variable that nobody initializes.
-/
import Ovsgw.Datapath.GatewayParams
import Ovsgw.Scan

namespace Ovsgw

open List
open Datapath (EthAddr DpConfigGw)

/-! ## 1. Ethernet addresses -/

def ethAddr (b0 b1 b2 b3 b4 b5 : BitVec 8) : EthAddr := ⟨[b0, b1, b2, b3, b4, b5], rfl⟩

def ethAddrText (a : EthAddr) : List Char :=
  [':'].intercalate (a.ea.map fun b => hexits 2 b.toNat)

def ethAddrScanFmt : List Directive :=
  [.int 16, .lit ':', .int 16, .lit ':', .int 16, .lit ':', .int 16, .lit ':', .int 16, .lit ':',
    .int 16]

def strToMac (s : List Char) : Option EthAddr :=
  match ovsScan ethAddrScanFmt s with
  | some ([v0, v1, v2, v3, v4, v5], _) =>
    some (ethAddr (v0.setWidth 8) (v1.setWidth 8) (v2.setWidth 8) (v3.setWidth 8) (v4.setWidth 8)
      (v5.setWidth 8))
  | _ => none

/-! ## 2. Gateway actions -/

/-- `struct ofpact_config_gw`, with zeros as `ofpact_init` leaves it. -/
structure OfpactConfigGw where
  param1 : BitVec 32 := 0
  param2 : BitVec 32 := 0
  param3 : EthAddr := ethAddr 0 0 0 0 0 0
  param4 : BitVec 32 := 0
  param5 : BitVec 32 := 0
  param6 : EthAddr := ethAddr 0 0 0 0 0 0
  param7 : BitVec 32 := 0
  param8 : BitVec 32 := 0
  param9 : EthAddr := ethAddr 0 0 0 0 0 0
deriving DecidableEq

structure OfpactHandleGw where
  pipeline1 : BitVec 32 := 0
  pipeline2 : BitVec 32 := 0
  pipeline3 : BitVec 32 := 0
  pipeline4 : BitVec 32 := 0
  pipeline5 : BitVec 32 := 0
deriving DecidableEq

/-- A field that is printed in base `base` unless it is zero. -/
def numberField (base : Nat) (name : String) (value : BitVec 32) : List Char :=
  if value ≠ 0 then name.toList ++ Nat.toDigits base value.toNat else []

/-- A field with an Ethernet address.  The test compares the address of an array with zero,
    so it is always printed. -/
def ethAddrField (name : String) (value : EthAddr) : List Char := name.toList ++ ethAddrText value

/-- What `format_CONFIG_GW` prints between the parentheses. -/
def configGwArgs (a : OfpactConfigGw) : List Char :=
  numberField 10 "param1=" a.param1 ++ (numberField 10 ",param2=" a.param2 ++
    (ethAddrField ",param3=" a.param3 ++ (numberField 10 ",param4=" a.param4 ++
    (numberField 10 ",param5=" a.param5 ++ (ethAddrField ",param6=" a.param6 ++
    (numberField 10 ",param7=" a.param7 ++ (numberField 10 ",param8=" a.param8 ++
    ethAddrField ",param9=" a.param9)))))))

def formatConfigGw (a : OfpactConfigGw) : List Char :=
  "config_gw(".toList ++ (configGwArgs a ++ [')'])

/-- What `format_HANDLE_GW` prints between the parentheses. -/
def handleGwArgs (a : OfpactHandleGw) : List Char :=
  numberField 16 "pipeline1=" a.pipeline1 ++ (numberField 16 ",pipeline2=" a.pipeline2 ++
    (numberField 16 ",pipeline3=" a.pipeline3 ++ (numberField 16 ",pipeline4=" a.pipeline4 ++
    numberField 16 ",pipeline5=" a.pipeline5)))

def formatHandleGw (a : OfpactHandleGw) : List Char :=
  "handle_gw(".toList ++ (handleGwArgs a ++ [')'])

/-- What `parse_CONFIG_GW` does with one pair.  Other names are ignored. -/
def setConfigGw (longBits : Nat) (a : OfpactConfigGw) (pair : List Char × List Char) :
    Option OfpactConfigGw :=
  let (name, value) := pair
  if name = "param1".toList then some { a with param1 := atoi longBits value }
  else if name = "param2".toList then some { a with param2 := atoi longBits value }
  else if name = "param3".toList then
    (strToMac value).map fun ethaddr => { a with param3 := ethaddr }
  else if name = "param4".toList then some { a with param4 := atoi longBits value }
  else if name = "param5".toList then some { a with param5 := atoi longBits value }
  else if name = "param6".toList then
    (strToMac value).map fun ethaddr => { a with param6 := ethaddr }
  else if name = "param7".toList then some { a with param7 := atoi longBits value }
  else if name = "param8".toList then some { a with param8 := atoi longBits value }
  else if name = "param9".toList then
    (strToMac value).map fun ethaddr => { a with param9 := ethaddr }
  else some a

/-- `parse_CONFIG_GW`: the action, or nothing if the text is rejected. -/
def parseConfigGw (longBits : Nat) (arg : List Char) : Option OfpactConfigGw :=
  (keyValues arg).foldlM (setConfigGw longBits) {}

/-- What `parse_HANDLE_GW` does with one pair. -/
def setHandleGw (longBits : Nat) (a : OfpactHandleGw) (pair : List Char × List Char) :
    OfpactHandleGw :=
  let (name, value) := pair
  if name = "pipeline1".toList then { a with pipeline1 := atoi longBits value }
  else if name = "pipeline2".toList then { a with pipeline2 := atoi longBits value }
  else if name = "pipeline3".toList then { a with pipeline3 := atoi longBits value }
  else if name = "pipeline4".toList then { a with pipeline4 := atoi longBits value }
  else if name = "pipeline5".toList then { a with pipeline5 := atoi longBits value }
  else a

/-- `parse_HANDLE_GW`, which rejects nothing. -/
def parseHandleGw (longBits : Nat) (arg : List Char) : OfpactHandleGw :=
  (keyValues arg).foldl (setHandleGw longBits) {}

/-! ## 3. The command `dpctl set-gateway-params` -/

/-- What `gw_dpif_parse_params` does with one pair. -/
def setDpConfigGw (longBits : Nat) (dpConfigGw : DpConfigGw) (pair : List Char × List Char) :
    Except String DpConfigGw :=
  let (key, value) := pair
  if value = [] then .error ("field " ++ String.ofList key ++ " missing value")
  else if key = "param1".toList then .ok { dpConfigGw with param1 := atoi longBits value }
  else if key = "param2".toList then .ok { dpConfigGw with param2 := atoi longBits value }
  else if key = "param3".toList then
    match strToMac value with
    | none => .error ("failed to parse field " ++ String.ofList key)
    | some ethaddr => .ok { dpConfigGw with param3 := ethaddr }
  else .error ("invalid field: " ++ String.ofList key)

/-- `gw_dpif_parse_params`, when the variable of the caller has the value `dpConfigGw`. -/
def gwDpifParseParams (longBits : Nat) (s : List Char) (dpConfigGw : DpConfigGw) :
    Except String DpConfigGw :=
  (keyValues s).foldlM (setDpConfigGw longBits) dpConfigGw

/-- The loop of `dpctl_set_gateway_params` over its arguments.  `memory i` is what the
    variable `dp_config_gw` holds before the argument number `i` is parsed. -/
def paramsList (longBits : Nat) (memory : Nat → DpConfigGw) :
    Nat → List (List Char) → Except String (List DpConfigGw)
  | _, [] => .ok []
  | i, arg :: args => do
    let dpConfigGw ← gwDpifParseParams longBits arg (memory i)
    let list ← paramsList longBits memory (i + 1) args
    return dpConfigGw :: list

/-- `dpctl_set_gateway_params` after the datapath is opened: the operation and the list
    that the kernel is sent. -/
def dpctlSetGatewayParams (longBits : Nat) (memory : Nat → DpConfigGw) :
    List (List Char) → Except String (Option (BitVec 32) × List DpConfigGw)
  -- The source reads the argument of a null pointer, and the command stops.
  | [] => .error ""
  | arg :: args =>
    if "operation=".toList.isPrefixOf arg then
      match ovsScan (literal "operation=" ++ [.int 10]) arg with
      | some ([operation], _) => do
        let list ← paramsList longBits memory 0 args
        return (some (operation.setWidth 32), list)
      | _ => .error "invalid operation"
    else do
      let list ← paramsList longBits memory 0 (arg :: args)
      return (none, list)

/-! ## 4. Printed fields -/

section
variable {base n longBits : Nat} {key rest : List Char} {name : String} {value : BitVec 32}
  {σ : Type}

/-- The pair that is found in the text of a number. -/
def numberPair (base : Nat) (key : List Char) (value : BitVec 32) : List (List Char × List Char) :=
  if value ≠ 0 then [(key, Nat.toDigits base value.toNat)] else []

variable {c : Char} {a : EthAddr}

theorem isPlain_of_isDigitIn (h : isDigitIn base c = true) : isPlain c = true := by
  by_contra hc
  rw [isPlain, decide_eq_true_eq, not_not] at hc
  have hnone : (['=', '(', ')'] ++ delimiters).all fun d => (hexitValue d).isNone := by decide
  have hvalue := Option.isNone_iff_eq_none.mp (all_eq_true.mp hnone c hc)
  rw [isDigitIn_eq_false hvalue] at h
  cases h

theorem isPlain_toDigits (hb : 1 < base) (hb16 : base ≤ 16) (h : c ∈ Nat.toDigits base n) :
    isPlain c = true :=
  isPlain_of_isDigitIn (isDigitIn_toDigits hb hb16 h)

theorem exists_ethAddr (a : EthAddr) : ∃ b0 b1 b2 b3 b4 b5, a = ethAddr b0 b1 b2 b3 b4 b5 := by
  obtain ⟨ea, size⟩ := a
  match ea, size with
  | [b0, b1, b2, b3, b4, b5], _ => exact ⟨b0, b1, b2, b3, b4, b5, rfl⟩

theorem ethAddrText_eq {b0 b1 b2 b3 b4 b5 : BitVec 8} : ethAddrText (ethAddr b0 b1 b2 b3 b4 b5) =
      hexits 2 b0.toNat ++ (':' :: (hexits 2 b1.toNat ++ (':' :: (hexits 2 b2.toNat ++
        (':' :: (hexits 2 b3.toNat ++ (':' :: (hexits 2 b4.toNat ++
        (':' :: hexits 2 b5.toNat))))))))) := by
  simp [ethAddrText, ethAddr, List.intercalate, List.intersperse]

theorem isPlain_ethAddrText (h : c ∈ ethAddrText a) : isPlain c = true := by
  obtain ⟨b0, b1, b2, b3, b4, b5, rfl⟩ := exists_ethAddr a
  have hhex : ∀ {n : Nat}, c ∈ hexits 2 n → isPlain c = true :=
    fun h => isPlain_of_isDigitIn (isDigitIn_hexits h)
  rw [ethAddrText_eq] at h
  simp only [mem_append, mem_cons] at h
  rcases h with h | rfl | h | rfl | h | rfl | h | rfl | h | rfl | h
  all_goals first
    | exact hhex h
    | rfl

/-- `str_to_mac` reads what `ETH_ADDR_FMT` prints. -/
theorem strToMac_ethAddrText : strToMac (ethAddrText a) = some a := by
  obtain ⟨b0, b1, b2, b3, b4, b5, rfl⟩ := exists_ethAddr a
  have hscan : ∀ (b : BitVec 8) {format : List Directive} {values : List (BitVec 64)}
      {s rest : List Char}, ovsScan format s = some (values, rest) →
      ovsScan (.int 16 :: .lit ':' :: format) (hexits 2 b.toNat ++ (':' :: s)) =
        some (BitVec.ofNat 64 b.toNat :: values, rest) := by
    intro b format values s rest hformat
    rw [ovsScan_hexits _ rfl b.isLt, ovsScan_lit, hformat]
    rfl
  have hlast : ovsScan [.int 16] (hexits 2 b5.toNat) = some ([BitVec.ofNat 64 b5.toNat], []) := by
    have h := @ovsScan_hexits _ [] 1 [] rfl b5.isLt
    rw [append_nil] at h
    exact h
  have hwidth : ∀ b : BitVec 8, (BitVec.ofNat 64 b.toNat).setWidth 8 = b := by
    intro b
    apply BitVec.eq_of_toNat_eq
    simp
  rw [strToMac, ethAddrText_eq, ethAddrScanFmt,
    hscan b0 (hscan b1 (hscan b2 (hscan b3 (hscan b4 hlast))))]
  simp only [hwidth]

def noParen (c : Char) : Bool := c != '(' && c != ')'

theorem noParen_of_isPlain (h : isPlain c = true) : noParen c = true := by
  rw [isPlain, decide_eq_true_eq] at h
  simp only [mem_append, mem_cons, not_mem_nil, or_false, not_or] at h
  simp [noParen, h]

/-- What comes after a field: nothing or the next field. -/
def StartsField (rest : List Char) : Prop := ∀ c ∈ rest.head?, c = ','

theorem startsField_nil : StartsField [] := by
  intro c hc
  cases hc

/-- `name` is what is printed before the value of a field with the key `key`: a comma,
    except for the first field, the key and an equals sign. -/
def isFieldName (first : Bool) (key name : String) : Bool :=
  key.toList.all (fun c => isPlain c && c != ':') && key.toList != [] &&
    name.toList == (if first then [] else [',']) ++ key.toList ++ ['=']

section
variable {first : Bool} {key name : String} {a : EthAddr}

section

variable (hname : isFieldName first key name = true)
include hname

theorem isFieldName_iff : (∀ c ∈ key.toList, isPlain c = true ∧ c ≠ ':') ∧ key.toList ≠ [] ∧
      name.toList = (if first then [] else [',']) ++ key.toList ++ ['='] := by
  simp only [isFieldName, Bool.and_eq_true, all_eq_true, bne_iff_ne, beq_iff_eq] at hname
  exact ⟨hname.1.1, hname.1.2, hname.2⟩

theorem noParen_of_isFieldName : name.toList.all noParen = true := by
  obtain ⟨hkey, -, heq⟩ := isFieldName_iff hname
  have hall : key.toList.all noParen = true :=
    all_eq_true.mpr fun c hc => noParen_of_isPlain (hkey c hc).1
  rw [heq, all_append, all_append, hall]
  cases first <;> rfl

theorem keyValues_field {text : List Char} (htext : ∀ c ∈ text, isPlain c = true)
    (hrest : StartsField rest) :
    keyValues (name.toList ++ text ++ rest) = (key.toList, text) :: keyValues rest := by
  obtain ⟨hkey, hne, heq⟩ := isFieldName_iff hname
  rw [← keyValues_pair hkey hne htext hrest, heq]
  cases first with
  | true => simp
  | false => simp [keyValues_comma]

theorem keyValues_numberField (hb : 1 < base) (hb16 : base ≤ 16) (hrest : StartsField rest) :
    keyValues (numberField base name value ++ rest) =
      numberPair base key.toList value ++ keyValues rest := by
  rw [numberField, numberPair]
  split
  · exact keyValues_field hname (fun c hc => isPlain_toDigits hb hb16 hc) hrest
  · rfl

end

variable (hname : isFieldName false key name = true)
include hname

theorem startsField_append {s : List Char} : StartsField (name.toList ++ s) := by
  rw [(isFieldName_iff hname).2.2]
  rintro c ⟨⟩
  rfl

theorem startsField_numberField (base : Nat) (value : BitVec 32) (hrest : StartsField rest) :
    StartsField (numberField base name value ++ rest) := by
  rw [numberField]
  split
  · rw [append_assoc]
    exact startsField_append hname
  · exact hrest

theorem startsField_ethAddrField : StartsField (ethAddrField name a ++ rest) := by
  rw [ethAddrField, append_assoc]
  exact startsField_append hname

theorem keyValues_ethAddrField (hrest : StartsField rest) :
    keyValues (ethAddrField name a ++ rest) = (key.toList, ethAddrText a) :: keyValues rest :=
  keyValues_field hname (fun _ hc => isPlain_ethAddrText hc) hrest

end

theorem foldlM_numberPair {f : σ → List Char × List Char → Option σ} {s s' : σ}
    (hset : f s (key, Nat.toDigits base value.toNat) = some s') (hzero : value = 0 → s' = s)
    (l : List (List Char × List Char)) :
    (numberPair base key value ++ l).foldlM f s = l.foldlM f s' := by
  rw [numberPair]
  split
  · rw [singleton_append, foldlM_cons, hset]
    rfl
  next h => rw [hzero (not_not.mp h), nil_append]

/-- Printed fields that take the parser `f` from the state `a` to the state `b`. -/
structure Fields (f : σ → List Char × List Char → Option σ) (first : Bool) (text : List Char)
    (a b : σ) : Prop where
  starts : first = false → StartsField text
  plain : text.all noParen = true
  run : (keyValues text).foldlM f a = some b

namespace Fields

variable {f : σ → List Char × List Char → Option σ} {a b : σ} {first : Bool} {name : String}

theorem nil : Fields f false [] a a :=
  ⟨fun _ => startsField_nil, rfl, rfl⟩

/-- A number, which is not printed if it is zero. -/
theorem number (key : String) (hb : 1 < base ∧ base ≤ 16)
    (hname : isFieldName first key name = true) (set : σ → σ)
    (hset : f a (key.toList, Nat.toDigits base value.toNat) = some (set a))
    (hzero : value = 0 → set a = a) (h : Fields f false rest (set a) b) :
    Fields f first (numberField base name value ++ rest) a b where
  starts hfirst := startsField_numberField (hfirst ▸ hname) base value (h.starts rfl)
  plain := by
    rw [numberField, all_append, h.plain, Bool.and_true]
    split
    · rw [all_append, noParen_of_isFieldName hname, Bool.true_and, all_eq_true]
      intro c hc
      exact noParen_of_isPlain (isPlain_toDigits hb.1 hb.2 hc)
    · rfl
  run := by
    rw [keyValues_numberField hname hb.1 hb.2 (h.starts rfl), foldlM_numberPair hset hzero]
    exact h.run

theorem ethAddr {addr : EthAddr} (key : String) (hname : isFieldName false key name = true)
    (set : σ → σ) (hset : f a (key.toList, ethAddrText addr) = some (set a))
    (h : Fields f false rest (set a) b) : Fields f false (ethAddrField name addr ++ rest) a b where
  starts _ := startsField_ethAddrField hname
  plain := by
    rw [ethAddrField, all_append, h.plain, Bool.and_true, all_append,
      noParen_of_isFieldName hname, Bool.true_and, all_eq_true]
    intro c hc
    exact noParen_of_isPlain (isPlain_ethAddrText hc)
  run := by
    rw [keyValues_ethAddrField hname (h.starts rfl), foldlM_cons, hset]
    exact h.run

end Fields

end

/-! ## 5. The actions are read back -/

/-- What `atoi` reads of a number that is printed in base `base`. -/
def readNumber (longBits base : Nat) (value : BitVec 32) : BitVec 32 :=
  atoi longBits (Nat.toDigits base value.toNat)

/-- What `parse_CONFIG_GW` makes of a printed action. -/
def OfpactConfigGw.readBack (longBits : Nat) (a : OfpactConfigGw) : OfpactConfigGw :=
  { a with
    param1 := readNumber longBits 10 a.param1
    param2 := readNumber longBits 10 a.param2
    param4 := readNumber longBits 10 a.param4
    param5 := readNumber longBits 10 a.param5
    param7 := readNumber longBits 10 a.param7
    param8 := readNumber longBits 10 a.param8 }

/-- The numbers of an action are read by `atoi` as they are. -/
structure OfpactConfigGw.Fits (longBits : Nat) (a : OfpactConfigGw) : Prop where
  param1 : a.param1.toNat < 2 ^ (longBits - 1)
  param2 : a.param2.toNat < 2 ^ (longBits - 1)
  param4 : a.param4.toNat < 2 ^ (longBits - 1)
  param5 : a.param5.toNat < 2 ^ (longBits - 1)
  param7 : a.param7.toNat < 2 ^ (longBits - 1)
  param8 : a.param8.toNat < 2 ^ (longBits - 1)

variable {longBits : Nat}

@[simp] theorem readNumber_zero {base : Nat} : readNumber longBits base 0#32 = 0#32 := by
  have hdigits : Nat.toDigits base 0 = Nat.toDigits 10 0 := by simp
  rw [readNumber, show (0#32).toNat = 0 from rfl, hdigits]
  exact atoi_toDigits (Nat.two_pow_pos _)

theorem readNumber_decimal {value : BitVec 32} :
    readNumber longBits 10 value = value ↔ value.toNat < 2 ^ (longBits - 1) := by
  rw [← atoi_toDigits_iff value.isLt, BitVec.ofNat_toNat, BitVec.setWidth_eq]
  rfl

theorem fields_configGwArgs (a : OfpactConfigGw) :
    Fields (setConfigGw longBits) true (configGwArgs a) {} (a.readBack longBits) := by
  have hten : 1 < 10 ∧ 10 ≤ 16 := by decide
  obtain ⟨p1, p2, p3, p4, p5, p6, p7, p8, p9⟩ := a
  let read := readNumber longBits 10
  rw [configGwArgs, ← append_nil (ethAddrField ",param9=" p9)]
  -- The fields are set one after another; a field that is not printed is zero.
  refine .number "param1" hten (by decide) ({ · with param1 := read p1 }) ?_ ?_ ?_
  · simp [setConfigGw, read, readNumber]
  · rintro rfl; simp [read]
  refine .number "param2" hten (by decide) ({ · with param2 := read p2 }) ?_ ?_ ?_
  · simp [setConfigGw, read, readNumber]
  · rintro rfl; simp [read]
  refine .ethAddr "param3" (by decide) ({ · with param3 := p3 }) ?_ ?_
  · simp [setConfigGw, strToMac_ethAddrText]
  refine .number "param4" hten (by decide) ({ · with param4 := read p4 }) ?_ ?_ ?_
  · simp [setConfigGw, read, readNumber]
  · rintro rfl; simp [read]
  refine .number "param5" hten (by decide) ({ · with param5 := read p5 }) ?_ ?_ ?_
  · simp [setConfigGw, read, readNumber]
  · rintro rfl; simp [read]
  refine .ethAddr "param6" (by decide) ({ · with param6 := p6 }) ?_ ?_
  · simp [setConfigGw, strToMac_ethAddrText]
  refine .number "param7" hten (by decide) ({ · with param7 := read p7 }) ?_ ?_ ?_
  · simp [setConfigGw, read, readNumber]
  · rintro rfl; simp [read]
  refine .number "param8" hten (by decide) ({ · with param8 := read p8 }) ?_ ?_ ?_
  · simp [setConfigGw, read, readNumber]
  · rintro rfl; simp [read]
  refine .ethAddr "param9" (by decide) ({ · with param9 := p9 }) ?_ ?_
  · simp [setConfigGw, strToMac_ethAddrText]
  exact .nil

theorem OfpactConfigGw.readBack_eq_iff {a : OfpactConfigGw} :
    a.readBack longBits = a ↔ a.Fits longBits := by
  obtain ⟨p1, p2, p3, p4, p5, p6, p7, p8, p9⟩ := a
  simp only [readBack, mk.injEq, readNumber_decimal, true_and, and_true]
  constructor
  · rintro ⟨h1, h2, h4, h5, h7, h8⟩
    exact ⟨h1, h2, h4, h5, h7, h8⟩
  · rintro ⟨h1, h2, h4, h5, h7, h8⟩
    exact ⟨h1, h2, h4, h5, h7, h8⟩

/-- What `parse_HANDLE_GW` makes of a printed action. -/
def OfpactHandleGw.readBack (longBits : Nat) (a : OfpactHandleGw) : OfpactHandleGw where
  pipeline1 := readNumber longBits 16 a.pipeline1
  pipeline2 := readNumber longBits 16 a.pipeline2
  pipeline3 := readNumber longBits 16 a.pipeline3
  pipeline4 := readNumber longBits 16 a.pipeline4
  pipeline5 := readNumber longBits 16 a.pipeline5

/-- The pipelines of an action have one decimal digit, which is also their digit in base
    16. -/
structure OfpactHandleGw.OneDigit (a : OfpactHandleGw) : Prop where
  pipeline1 : a.pipeline1.toNat < 10
  pipeline2 : a.pipeline2.toNat < 10
  pipeline3 : a.pipeline3.toNat < 10
  pipeline4 : a.pipeline4.toNat < 10
  pipeline5 : a.pipeline5.toNat < 10

theorem readNumber_hexadecimal (hlong : 32 ≤ longBits) {value : BitVec 32} :
    readNumber longBits 16 value = value ↔ value.toNat < 10 := by
  constructor
  · intro h
    refine @atoi_hexadecimal value.toNat longBits ?_ value.isLt
    rwa [BitVec.ofNat_toNat, BitVec.setWidth_eq]
  · intro h
    have hpow : 2 ^ 31 ≤ 2 ^ (longBits - 1) := Nat.pow_le_pow_right (by decide) (by omega)
    have hsame : Nat.toDigits 16 value.toNat = Nat.toDigits 10 value.toNat := by
      rw [Nat.toDigits_of_lt_base h, Nat.toDigits_of_lt_base (h.trans (by decide))]
    rw [readNumber, hsame]
    exact readNumber_decimal.mpr (by omega)

theorem fields_handleGwArgs (a : OfpactHandleGw) :
    Fields (fun a pair => some (setHandleGw longBits a pair)) true (handleGwArgs a) {}
      (a.readBack longBits) := by
  have hsixteen : 1 < 16 ∧ 16 ≤ 16 := by decide
  obtain ⟨p1, p2, p3, p4, p5⟩ := a
  let read := readNumber longBits 16
  rw [handleGwArgs, ← append_nil (numberField 16 ",pipeline5=" p5)]
  refine .number "pipeline1" hsixteen (by decide) ({ · with pipeline1 := read p1 }) ?_ ?_ ?_
  · simp [setHandleGw, read, readNumber]
  · rintro rfl; simp [read]
  refine .number "pipeline2" hsixteen (by decide) ({ · with pipeline2 := read p2 }) ?_ ?_ ?_
  · simp [setHandleGw, read, readNumber]
  · rintro rfl; simp [read]
  refine .number "pipeline3" hsixteen (by decide) ({ · with pipeline3 := read p3 }) ?_ ?_ ?_
  · simp [setHandleGw, read, readNumber]
  · rintro rfl; simp [read]
  refine .number "pipeline4" hsixteen (by decide) ({ · with pipeline4 := read p4 }) ?_ ?_ ?_
  · simp [setHandleGw, read, readNumber]
  · rintro rfl; simp [read]
  refine .number "pipeline5" hsixteen (by decide) ({ · with pipeline5 := read p5 }) ?_ ?_ ?_
  · simp [setHandleGw, read, readNumber]
  · rintro rfl; simp [read]
  exact .nil

theorem OfpactHandleGw.readBack_eq_iff (hlong : 32 ≤ longBits) {a : OfpactHandleGw} :
    a.readBack longBits = a ↔ a.OneDigit := by
  obtain ⟨p1, p2, p3, p4, p5⟩ := a
  simp only [readBack, mk.injEq, readNumber_hexadecimal hlong]
  constructor
  · rintro ⟨h1, h2, h3, h4, h5⟩
    exact ⟨h1, h2, h3, h4, h5⟩
  · rintro ⟨h1, h2, h3, h4, h5⟩
    exact ⟨h1, h2, h3, h4, h5⟩

theorem ofputilParseKeyValue_args {name args : List Char}
    (hname : name.all (fun c => isPlain c && c != ':') = true) (hne : name ≠ [])
    (hargs : args.all noParen = true) :
    ofputilParseKeyValue (name ++ '(' :: (args ++ [')'])) = some (name, args, []) := by
  apply ofputilParseKeyValue_call _ hne
  · intro c hc
    have hc := all_eq_true.mp hargs c hc
    simpa [noParen] using hc
  · intro c hc
    have hc := all_eq_true.mp hname c hc
    simpa using hc

/-- **The gateway actions are read back.**  The argument text of what is printed is parsed to
    the same action just if the numbers of `config_gw` fit in a `long int` and the pipelines of
    `handle_gw` have one digit. -/
theorem gatewayText_readBack (longBits : Nat) (hlong : 32 ≤ longBits) :
    (∀ a : OfpactConfigGw,
      (∃ arg, ofputilParseKeyValue (formatConfigGw a) = some ("config_gw".toList, arg, []) ∧
        parseConfigGw longBits arg = some a) ↔ a.Fits longBits) ∧
    ∀ a : OfpactHandleGw,
      (∃ arg, ofputilParseKeyValue (formatHandleGw a) = some ("handle_gw".toList, arg, []) ∧
        parseHandleGw longBits arg = a) ↔ a.OneDigit := by
  constructor
  · intro a
    have hformat : formatConfigGw a = "config_gw".toList ++ '(' :: (configGwArgs a ++ [')']) := rfl
    have hfields := @fields_configGwArgs longBits a
    have hrun : parseConfigGw longBits (configGwArgs a) = some (a.readBack longBits) := hfields.run
    rw [hformat, ofputilParseKeyValue_args (by decide) (by decide) hfields.plain,
      ← OfpactConfigGw.readBack_eq_iff]
    simp [hrun]
  · intro a
    have hformat : formatHandleGw a = "handle_gw".toList ++ '(' :: (handleGwArgs a ++ [')']) := rfl
    have hfields := @fields_handleGwArgs longBits a
    have hrun : parseHandleGw longBits (handleGwArgs a) = a.readBack longBits :=
      Option.some.inj (foldlM_pure.symm.trans hfields.run)
    rw [hformat, ofputilParseKeyValue_args (by decide) (by decide) hfields.plain,
      ← OfpactHandleGw.readBack_eq_iff hlong]
    simp [hrun]

/-- The largest numbers, where a `long int` has 64 bits, and the largest digit. -/
theorem gatewayText_readBack_long :
    (∃ arg, ofputilParseKeyValue (formatConfigGw { param1 := 0xffffffff, param8 := 5 }) =
        some ("config_gw".toList, arg, []) ∧
      parseConfigGw 64 arg = some { param1 := 0xffffffff, param8 := 5 }) ∧
    ∃ arg, ofputilParseKeyValue (formatHandleGw { pipeline2 := 9 }) =
        some ("handle_gw".toList, arg, []) ∧ parseHandleGw 64 arg = { pipeline2 := 9 } := by
  obtain ⟨hconfig, hhandle⟩ := gatewayText_readBack 64 (by decide)
  constructor
  · apply (hconfig _).mpr
    constructor <;> decide
  · apply (hhandle _).mpr
    constructor <;> decide

/-- A pipeline 16 is printed as 10 and read as ten. -/
theorem handleGw_misread : ∃ arg, ofputilParseKeyValue (formatHandleGw { pipeline1 := 16 }) =
        some ("handle_gw".toList, arg, []) ∧ parseHandleGw 64 arg = { pipeline1 := 10 } ∧
      parseHandleGw 64 arg ≠ { pipeline1 := 16 } := by
  refine ⟨"pipeline1=10".toList, ?_, ?_, ?_⟩ <;> decide

/-! ## 6. Arguments that set every field -/

def keysOf (s : List Char) : List (List Char) := (keyValues s).map Prod.fst

/-- An argument with a value for each of the three parameters. -/
def SetsAll (s : List Char) : Prop :=
  "param1".toList ∈ keysOf s ∧ "param2".toList ∈ keysOf s ∧ "param3".toList ∈ keysOf s

instance (s : List Char) : Decidable (SetsAll s) := inferInstanceAs (Decidable (_ ∧ _ ∧ _))

/-- Two entries have the same values for the parameters in `keys`. -/
structure AgreeOn (keys : List (List Char)) (a b : DpConfigGw) : Prop where
  param1 : "param1".toList ∈ keys → a.param1 = b.param1
  param2 : "param2".toList ∈ keys → a.param2 = b.param2
  param3 : "param3".toList ∈ keys → a.param3 = b.param3

section
variable {longBits : Nat} {keys : List (List Char)} {a b a' : DpConfigGw}

theorem mem_of_mem_append_singleton {key key' : List Char} (hne : key ≠ key')
    (h : key ∈ keys ++ [key']) : key ∈ keys := by
  rcases mem_append.mp h with h | h
  · exact h
  · exact absurd (mem_singleton.mp h) hne

theorem setDpConfigGw_agree (h : AgreeOn keys a b) {pair : List Char × List Char} :
    (∃ error, setDpConfigGw longBits a pair = .error error ∧
      setDpConfigGw longBits b pair = .error error) ∨
    ∃ a' b', setDpConfigGw longBits a pair = .ok a' ∧ setDpConfigGw longBits b pair = .ok b' ∧
      AgreeOn (keys ++ [pair.1]) a' b' := by
  obtain ⟨key, value⟩ := pair
  have h12 : "param1".toList ≠ "param2".toList := by decide
  have h13 : "param1".toList ≠ "param3".toList := by decide
  have h23 : "param2".toList ≠ "param3".toList := by decide
  simp only [setDpConfigGw]
  by_cases hvalue : value = []
  · simp only [if_pos hvalue]
    exact .inl ⟨_, rfl, rfl⟩
  simp only [if_neg hvalue]
  by_cases h1 : key = "param1".toList
  · subst h1
    simp only [if_true]
    exact .inr ⟨_, _, rfl, rfl, fun _ => rfl,
      fun hmem => h.param2 (mem_of_mem_append_singleton h12.symm hmem),
      fun hmem => h.param3 (mem_of_mem_append_singleton h13.symm hmem)⟩
  simp only [if_neg h1]
  by_cases h2 : key = "param2".toList
  · subst h2
    simp only [if_true]
    exact .inr ⟨_, _, rfl, rfl, fun hmem => h.param1 (mem_of_mem_append_singleton h12 hmem),
      fun _ => rfl, fun hmem => h.param3 (mem_of_mem_append_singleton h23.symm hmem)⟩
  simp only [if_neg h2]
  by_cases h3 : key = "param3".toList
  · subst h3
    simp only [if_true]
    cases strToMac value with
    | none => exact .inl ⟨_, rfl, rfl⟩
    | some ethaddr =>
      exact .inr ⟨_, _, rfl, rfl, fun hmem => h.param1 (mem_of_mem_append_singleton h13 hmem),
        fun hmem => h.param2 (mem_of_mem_append_singleton h23 hmem), fun _ => rfl⟩
  simp only [if_neg h3]
  exact .inl ⟨_, rfl, rfl⟩

theorem foldlM_agree {pairs : List (List Char × List Char)} (h : AgreeOn keys a b) :
    (∃ error, pairs.foldlM (setDpConfigGw longBits) a = .error error ∧
      pairs.foldlM (setDpConfigGw longBits) b = .error error) ∨
    ∃ a' b', pairs.foldlM (setDpConfigGw longBits) a = .ok a' ∧
      pairs.foldlM (setDpConfigGw longBits) b = .ok b' ∧
      AgreeOn (keys ++ pairs.map Prod.fst) a' b' := by
  induction pairs generalizing keys a b with
  | nil =>
    rw [map_nil, append_nil]
    exact .inr ⟨a, b, rfl, rfl, h⟩
  | cons pair pairs ih =>
    rw [foldlM_cons, foldlM_cons]
    rcases setDpConfigGw_agree h with ⟨error, ha, hb⟩ | ⟨a', b', ha, hb, hagree⟩
    · rw [ha, hb]
      exact .inl ⟨error, rfl, rfl⟩
    · rw [ha, hb, map_cons, ← singleton_append, ← append_assoc]
      exact ih hagree

theorem gwDpifParseParams_congr {s : List Char} (h : SetsAll s) :
    gwDpifParseParams longBits s a = gwDpifParseParams longBits s b := by
  have hnone : AgreeOn [] a b := by constructor <;> intro h <;> cases h
  rw [gwDpifParseParams, gwDpifParseParams]
  rcases foldlM_agree hnone with ⟨error, ha, hb⟩ | ⟨a', b', ha, hb, hagree⟩
  · rw [ha, hb]
  · rw [ha, hb]
    rw [nil_append] at hagree
    obtain ⟨a1, a2, a3⟩ := a'
    obtain ⟨b1, b2, b3⟩ := b'
    have h1 : a1 = b1 := hagree.param1 h.1
    have h2 : a2 = b2 := hagree.param2 h.2.1
    have h3 : a3 = b3 := hagree.param3 h.2.2
    rw [h1, h2, h3]

/-- What an accepted pair does not name keeps its value. -/
theorem setDpConfigGw_keeps {pair : List Char × List Char}
    (h : setDpConfigGw longBits a pair = .ok a') :
    (pair.1 ≠ "param1".toList → a'.param1 = a.param1) ∧
      (pair.1 ≠ "param2".toList → a'.param2 = a.param2) ∧
      (pair.1 ≠ "param3".toList → a'.param3 = a.param3) := by
  obtain ⟨key, value⟩ := pair
  simp only [setDpConfigGw] at h
  split at h
  · cases h
  split at h
  · next hkey =>
    cases h
    exact ⟨fun hne => absurd hkey hne, fun _ => rfl, fun _ => rfl⟩
  split at h
  · next hkey =>
    cases h
    exact ⟨fun _ => rfl, fun hne => absurd hkey hne, fun _ => rfl⟩
  split at h
  · next hkey =>
    split at h
    · cases h
    · cases h
      exact ⟨fun _ => rfl, fun _ => rfl, fun hne => absurd hkey hne⟩
  · cases h

theorem foldlM_keeps {pairs : List (List Char × List Char)}
    (h : pairs.foldlM (setDpConfigGw longBits) a = .ok a') :
    ("param1".toList ∉ pairs.map Prod.fst → a'.param1 = a.param1) ∧
      ("param2".toList ∉ pairs.map Prod.fst → a'.param2 = a.param2) ∧
      ("param3".toList ∉ pairs.map Prod.fst → a'.param3 = a.param3) := by
  induction pairs generalizing a with
  | nil =>
    cases h
    exact ⟨fun _ => rfl, fun _ => rfl, fun _ => rfl⟩
  | cons pair pairs ih =>
    rw [foldlM_cons] at h
    cases hset : setDpConfigGw longBits a pair with
    | error e =>
      rw [hset] at h
      cases h
    | ok b =>
      rw [hset] at h
      obtain ⟨h1, h2, h3⟩ := ih h
      obtain ⟨k1, k2, k3⟩ := setDpConfigGw_keeps hset
      simp only [map_cons, mem_cons, not_or]
      exact ⟨fun hmem => (h1 hmem.2).trans (k1 (Ne.symm hmem.1)),
        fun hmem => (h2 hmem.2).trans (k2 (Ne.symm hmem.1)),
        fun hmem => (h3 hmem.2).trans (k3 (Ne.symm hmem.1))⟩

/-- Memory with other values in all members. -/
def otherMemory (m : DpConfigGw) : DpConfigGw where
  param1 := m.param1 + 1
  param2 := m.param2 + 1
  param3 := if m.param3 = ethAddr 0 0 0 0 0 0 then ethAddr 1 0 0 0 0 0 else ethAddr 0 0 0 0 0 0

/-- An accepted argument that lacks a parameter passes on what was in memory. -/
theorem setsAll_of_gwDpifParseParams {s : List Char}
    (h : gwDpifParseParams longBits s a = .ok a')
    (hother : gwDpifParseParams longBits s (otherMemory a) = .ok a') : SetsAll s := by
  obtain ⟨h1, h2, h3⟩ := foldlM_keeps h
  obtain ⟨k1, k2, k3⟩ := foldlM_keeps hother
  have hone : ∀ v : BitVec 32, v ≠ v + 1 := by
    intro v heq
    have heq := BitVec.toNat_eq.mp heq
    have hlt := v.isLt
    rw [BitVec.toNat_add, show (1 : BitVec 32).toNat = 1 from rfl] at heq
    omega
  refine ⟨?_, ?_, ?_⟩ <;> by_contra hmem
  · exact hone _ ((h1 hmem).symm.trans (k1 hmem))
  · exact hone _ ((h2 hmem).symm.trans (k2 hmem))
  · have heq := (h3 hmem).symm.trans (k3 hmem)
    rw [otherMemory] at heq
    dsimp only at heq
    split at heq
    · next hzero => exact absurd (hzero.symm.trans heq) (by decide)
    · next hzero => exact hzero heq

theorem paramsList_cons {memory : Nat → DpConfigGw} {i : Nat} {arg : List Char}
    {args : List (List Char)} {list : List DpConfigGw}
    (h : paramsList longBits memory i (arg :: args) = .ok list) :
    ∃ e rest, list = e :: rest ∧ gwDpifParseParams longBits arg (memory i) = .ok e ∧
      paramsList longBits memory (i + 1) args = .ok rest := by
  rw [paramsList] at h
  cases harg : gwDpifParseParams longBits arg (memory i) with
  | error e =>
    rw [harg] at h
    cases h
  | ok e =>
    rw [harg] at h
    cases hargs : paramsList longBits memory (i + 1) args with
    | error e =>
      simp only [hargs] at h
      cases h
    | ok rest =>
      simp only [hargs] at h
      cases h
      exact ⟨e, rest, rfl, rfl, rfl⟩

/-- The list that accepted arguments give is the same from all memory just if each of them sets
    every parameter. -/
theorem paramsList_congr_iff {args : List (List Char)} {memory : Nat → DpConfigGw} {i : Nat}
    {list : List DpConfigGw} (h : paramsList longBits memory i args = .ok list) :
    (∀ memory', paramsList longBits memory' i args = .ok list) ↔ ∀ arg ∈ args, SetsAll arg := by
  constructor
  · intro hall
    have hother := hall fun i => otherMemory (memory i)
    clear hall
    induction args generalizing i list with
    | nil => simp
    | cons arg args ih =>
      obtain ⟨e, rest, rfl, harg, hargs⟩ := paramsList_cons h
      obtain ⟨_, _, ⟨⟩, harg', hargs'⟩ := paramsList_cons hother
      exact forall_mem_cons.mpr ⟨setsAll_of_gwDpifParseParams harg harg', ih hargs hargs'⟩
  · intro hall memory'
    rw [← h]
    clear h
    induction args generalizing i with
    | nil => rfl
    | cons arg args ih =>
      rw [paramsList, paramsList, gwDpifParseParams_congr (hall arg mem_cons_self),
        ih fun arg harg => hall arg (mem_cons_of_mem _ harg)]

end

/-- The arguments that are parsed as parameters: an operation may come before them. -/
def paramArgs : List (List Char) → List (List Char)
  | [] => []
  | arg :: args => if "operation=".toList.isPrefixOf arg then args else arg :: args

theorem dpctlSetGatewayParams_eq (longBits : Nat) (args : List (List Char)) :
    ∃ operation : Except String (Option (BitVec 32)), ∀ memory,
      dpctlSetGatewayParams longBits memory args =
        operation.bind fun operation =>
          (paramsList longBits memory 0 (paramArgs args)).map (operation, ·) := by
  cases args with
  | nil => exact ⟨.error "", fun _ => rfl⟩
  | cons arg args =>
    simp only [dpctlSetGatewayParams, paramArgs]
    split
    · split
      · exact ⟨.ok (some _), fun _ => rfl⟩
      · exact ⟨.error "invalid operation", fun _ => rfl⟩
    · exact ⟨.ok none, fun _ => rfl⟩

/-- **The parameters that the kernel is sent depend on the command line only**, just if each of the
    accepted arguments sets all of them. -/
theorem dpctlSetGatewayParams_congr {longBits : Nat} {memory : Nat → DpConfigGw}
    {args : List (List Char)} {sent : Option (BitVec 32) × List DpConfigGw}
    (h : dpctlSetGatewayParams longBits memory args = .ok sent) :
    (∀ memory', dpctlSetGatewayParams longBits memory' args = .ok sent) ↔
      ∀ arg ∈ paramArgs args, SetsAll arg := by
  obtain ⟨operation, heq⟩ := dpctlSetGatewayParams_eq longBits args
  simp only [heq] at h ⊢
  cases operation with
  | error e => cases h
  | ok operation =>
    cases hlist : paramsList longBits memory 0 (paramArgs args) with
    | error e =>
      rw [hlist] at h
      cases h
    | ok list =>
      rw [hlist] at h
      cases h
      rw [← paramsList_congr_iff hlist]
      apply forall_congr'
      intro memory'
      cases paramsList longBits memory' 0 (paramArgs args) <;> simp [Except.bind, Except.map]

/-- An argument with all parameters gives the same from two memories. -/
theorem dpctlSetGatewayParams_full :
    dpctlSetGatewayParams 64 (fun _ => ⟨1, 2, ethAddr 0 0 0 0 0 0⟩)
        ["param1=3,param2=4,param3=00:11:22:33:44:55".toList] =
      .ok (none, [⟨3, 4, ethAddr 0 0x11 0x22 0x33 0x44 0x55⟩]) ∧
    dpctlSetGatewayParams 64 (fun _ => ⟨5, 6, ethAddr 1 1 1 1 1 1⟩)
        ["param1=3,param2=4,param3=00:11:22:33:44:55".toList] =
      .ok (none, [⟨3, 4, ethAddr 0 0x11 0x22 0x33 0x44 0x55⟩]) := by
  have h : dpctlSetGatewayParams 64 (fun _ => ⟨1, 2, ethAddr 0 0 0 0 0 0⟩)
      ["param1=3,param2=4,param3=00:11:22:33:44:55".toList] =
        .ok (none, [⟨3, 4, ethAddr 0 0x11 0x22 0x33 0x44 0x55⟩]) := by rfl
  exact ⟨h, (dpctlSetGatewayParams_congr h).mpr (by decide) _⟩

/-- Without `param2` the entry has what was in memory. -/
theorem dpctlSetGatewayParams_memory :
    dpctlSetGatewayParams 64 (fun _ => ⟨1, 2, ethAddr 0 0 0 0 0 0⟩) ["param1=3".toList] =
        .ok (none, [⟨3, 2, ethAddr 0 0 0 0 0 0⟩]) ∧
      dpctlSetGatewayParams 64 (fun _ => ⟨1, 6, ethAddr 0 0 0 0 0 0⟩) ["param1=3".toList] =
        .ok (none, [⟨3, 6, ethAddr 0 0 0 0 0 0⟩]) := by
  constructor <;> rfl

end Ovsgw
