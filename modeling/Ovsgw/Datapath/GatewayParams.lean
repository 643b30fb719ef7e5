/-
  **Gateway parameters from user space to the kernel** (`dpif_netlink_gw_set_params` in
  `lib/dpif-netlink.c`, with the functions of `lib/netlink.c` that it uses, and `ovs_dp_change` and
  `ovs_gw_set_params` in `datapath/datapath.c`).

  User space puts one `struct ovs_dp_config_gw` after the other into an attribute;
  the kernel walks over the attribute in steps of the size of the struct, but
  rounds the length of the attribute up first.

  A message is the list of its bytes after `struct ovs_header`.  Numbers are in the
  byte order of the machine, which is the same on both sides.
-/
import Ovsgw.Lib.Bytes

namespace Ovsgw.Datapath

open Lib List

/-! ## 1. Parameters -/

/-- `struct eth_addr` and `struct ovs_eth_addr`. -/
@[ext] structure EthAddr where
  ea : List Byte
  size : ea.length = 6
deriving DecidableEq

/-- `struct dp_config_gw`.  `param2` is in network byte order on both sides and never converted. -/
structure DpConfigGw where
  param1 : BitVec 32
  param2 : BitVec 32
  param3 : EthAddr
deriving DecidableEq

/-- `sizeof(struct ovs_dp_config_gw)`: the two bytes after `param3` are padding. -/
def dpConfigGwSize : Nat := 16

/-! ## 2. Netlink messages -/

/-- `NLA_ALIGN` and `NLMSG_ALIGN`. -/
def nlaAlign (size : Nat) : Nat := (size + 3) / 4 * 4

def nlaHdrlen : Nat := 4

def ovsDpAttrGwOperations : Nat := 6

def ovsDpAttrGwParams : Nat := 7

def nlAttrOversized (payloadSize : Nat) : Bool := payloadSize > 65535 - nlaHdrlen

def nlMsgPut (msg data : List Byte) : List Byte :=
  msg ++ data ++ List.replicate (nlaAlign data.length - data.length) 0

def nlaHeader (order : ByteOrder) (len type : Nat) : List Byte :=
  u16Bytes order len ++ u16Bytes order type

/-- `nl_msg_put_u32`.  Four bytes are not too many for an attribute. -/
def nlMsgPutU32 (order : ByteOrder) (msg : List Byte) (type : Nat) (value : BitVec 32) :
    List Byte :=
  nlMsgPut msg (nlaHeader order (nlaHdrlen + 4) type ++ u32Bytes order value)

/-- `nl_msg_start_nested`.  The offset that it returns is the length of `msg`. -/
def nlMsgStartNested (order : ByteOrder) (msg : List Byte) (type : Nat) : List Byte :=
  nlMsgPut msg (nlaHeader order nlaHdrlen type)

/-- `nl_msg_end_nested`, which fails an assertion if the attribute is too large. -/
def nlMsgEndNested (order : ByteOrder) (msg : List Byte) (offset : Nat) : Option (List Byte) :=
  if nlAttrOversized (msg.length - offset - nlaHdrlen) then none
  else some (msg.take offset ++ u16Bytes order (msg.length - offset) ++ msg.drop (offset + 2))

/-- `struct ovs_dp_config_gw` in memory.  Nothing sets the padding. -/
def dpConfigGwBytes (order : ByteOrder) (padding : Byte × Byte) (params : DpConfigGw) :
    List Byte :=
  u32Bytes order params.param1 ++ u32Bytes order params.param2 ++ params.param3.ea ++
    [padding.1, padding.2]

/-- The loop of `dpif_netlink_gw_set_params`.  `padding` is what the memory of the struct
    holds when the message has a given length. -/
def putParams (order : ByteOrder) (padding : Nat → Byte × Byte) :
    List DpConfigGw → List Byte → List Byte
  | [], msg => msg
  | params :: list, msg =>
    putParams order padding list (nlMsgPut msg (dpConfigGwBytes order (padding msg.length) params))

/-- `dpif_netlink_gw_set_params`, up to `nl_transact`. -/
def dpifNetlinkGwSetParams (order : ByteOrder) (padding : Nat → Byte × Byte)
    (operation : Option (BitVec 32)) (list : List DpConfigGw) : Option (List Byte) :=
  let request := operation.elim [] (nlMsgPutU32 order [] ovsDpAttrGwOperations)
  if list = [] then some request
  else
    nlMsgEndNested order
      (putParams order padding list (nlMsgStartNested order request ovsDpAttrGwParams))
      request.length

/-! ## 3. The kernel -/

/-- `struct nlattr`: its type, the length of its payload, and the memory from the start
    of the payload on. -/
structure Nlattr where
  type : Nat
  len : Nat
  data : Nat → Byte

/-- The bytes of a field in the order of their significance, from the memory at `i`. -/
def fieldAt (order : ByteOrder) (data : Nat → Byte) (i size : Nat) : Nat :=
  ofBytes (order.arrange ((range size).map fun j => data (i + j)))

def memoryAt (msg : List Byte) (i : Nat) : Byte := msg.getD i 0

theorem nlaAlign_pos {len : Nat} (h : 4 ≤ len) : 0 < nlaAlign len := by
  unfold nlaAlign
  omega

/-- `nla_for_each_attr`: the attributes of a message. -/
def nlaParse (order : ByteOrder) (msg : List Byte) : List Nlattr :=
  let len := fieldAt order (memoryAt msg) 0 2
  if _h : nlaHdrlen ≤ msg.length ∧ nlaHdrlen ≤ len ∧ len ≤ msg.length then
    { type := fieldAt order (memoryAt msg) 2 2 % 2 ^ 14
      len := len - nlaHdrlen
      data := fun i => memoryAt msg (nlaHdrlen + i) } ::
    nlaParse order (msg.drop (nlaAlign len))
  else []
termination_by msg.length
decreasing_by
  obtain ⟨hmsg, hlen, -⟩ := _h
  have hpos := nlaAlign_pos hlen
  have hmsg : 4 ≤ msg.length := hmsg
  rw [List.length_drop]
  exact Nat.sub_lt (by omega) hpos

/-- `a[type]`: the attribute of a type, the last one if there are several. -/
def attrOf (attrs : List Nlattr) (type : Nat) : Option Nlattr :=
  attrs.reverse.find? fun nla => nla.type == type

/-- A computation that reads the payload.  The state has the offsets that were read. -/
abbrev Reads := StateT (List Nat) Option

def readByte (data : Nat → Byte) (i : Nat) : Reads Byte := do
  modify (· ++ [i])
  return data i

def readBytes (data : Nat → Byte) (i size : Nat) : Reads (List Byte) :=
  (range size).mapM fun j => readByte data (i + j)

def readU32 (order : ByteOrder) (data : Nat → Byte) (i : Nat) : Reads (BitVec 32) := do
  let bytes ← readBytes data i 4
  return BitVec.ofNat 32 (ofBytes (order.arrange bytes))

def readEthAddr (data : Nat → Byte) (i : Nat) : Reads EthAddr := do
  let bytes ← readBytes data i 6
  return ⟨bytes.takeD 6 0, List.takeD_length 6 bytes 0⟩

/-- The body of the loop of `ovs_gw_set_params`. -/
def readDpConfigGw (order : ByteOrder) (data : Nat → Byte) (i : Nat) : Reads DpConfigGw := do
  let param1 ← readU32 order data i
  let param2 ← readU32 order data (i + 4)
  let param3 ← readEthAddr data (i + 8)
  return { param1, param2, param3 }

/-- `rem >= size` for a signed `rem` and an unsigned `size`: a negative number becomes a
    large one. -/
def geUnsigned (rem : Int) (size : Nat) : Bool := decide (rem < 0) || decide ((size : Int) ≤ rem)

/-- The loop of `ovs_gw_set_params`, if it ends within `fuel` rounds: the parameters that
    it visits, and the number of bytes that are left over. -/
def gwLoop (order : ByteOrder) (data : Nat → Byte) : Nat → Int → Nat → Reads (List DpConfigGw × Int)
  | 0, _, _ => failure
  | fuel + 1, rem, i =>
    if geUnsigned rem dpConfigGwSize then do
      let params ← readDpConfigGw order data i
      let (list, left) ←
        gwLoop order data fuel (rem - nlaAlign dpConfigGwSize) (i + nlaAlign dpConfigGwSize)
      return (params :: list, left)
    else return ([], rem)

def ovsGwSetParams (order : ByteOrder) (fuel : Nat) (nla : Nlattr) :
    Reads (List DpConfigGw × Int) :=
  gwLoop order nla.data fuel (nlaAlign nla.len) 0

/-- `ovs_dp_change`, as far as it is about the gateway: the attribute that it passes to
    `ovs_gw_set_params`, if any. -/
def ovsDpChange (attrs : List Nlattr) : Option Nlattr :=
  match attrOf attrs ovsDpAttrGwOperations with
  | some _ => attrOf attrs ovsDpAttrGwParams
  | none => none

/-! ## 4. What the loop reads -/

variable (order : ByteOrder) (data : Nat → Byte) (i : Nat) (reads : List Nat)
  {α : Type} {fuel : Nat}

theorem bind_run {β : Type} (m : Reads α) (f : α → Reads β) :
    (m >>= f) reads = (m reads).bind fun result => f result.1 result.2 := rfl

theorem pure_run (a : α) : (pure a : Reads α) reads = some (a, reads) := rfl

theorem readByte_run : readByte data i reads = some (data i, reads ++ [i]) := rfl

theorem readBytes_run (size : Nat) : readBytes data i size reads =
      some ((range size).map fun j => data (i + j), reads ++ (range size).map (i + ·)) := by
  unfold readBytes
  generalize range size = js
  induction js generalizing reads with
  | nil =>
    rw [mapM_nil, pure_run]
    simp
  | cons j js ih =>
    rw [mapM_cons]
    simp only [bind_run, readByte_run, ih, pure_run, Option.bind_some, map_cons,
      append_assoc, singleton_append]

def dpConfigGwAt (order : ByteOrder) (data : Nat → Byte) (i : Nat) : DpConfigGw :=
  { param1 := BitVec.ofNat 32 (fieldAt order data i 4)
    param2 := BitVec.ofNat 32 (fieldAt order data (i + 4) 4)
    param3 := ⟨(range 6).map fun j => data (i + 8 + j), rfl⟩ }

theorem readDpConfigGw_run : readDpConfigGw order data i reads =
      some (dpConfigGwAt order data i, reads ++ (range 14).map (i + ·)) := by
  have hrange : (range 14).map (i + ·) =
      (range 4).map (i + ·) ++ (range 4).map (i + 4 + ·) ++
        (range 6).map (i + 8 + ·) := rfl
  simp only [readDpConfigGw, readU32, readEthAddr, bind_run, readBytes_run, pure_run,
    Option.bind_some, hrange, append_assoc]
  rfl

theorem gwLoop_run {k r : Nat} (hr : r < 16) (hfuel : k < fuel) :
    gwLoop order data fuel ((16 * k + r : Nat) : Int) i reads =
      some (((range k).map fun j => dpConfigGwAt order data (i + 16 * j), (r : Int)),
        reads ++ (range k).flatMap fun j => (range 14).map (i + 16 * j + ·)) := by
  induction k generalizing fuel i reads with
  | zero =>
    obtain ⟨fuel, rfl⟩ := Nat.exists_eq_add_of_lt hfuel
    have hstop : geUnsigned ((16 * 0 + r : Nat) : Int) dpConfigGwSize = false := by
      simp [geUnsigned, dpConfigGwSize]
      omega
    rw [gwLoop, hstop, if_neg Bool.false_ne_true, pure_run]
    simp
  | succ k ih =>
    obtain ⟨fuel, rfl⟩ : ∃ n, fuel = n + 1 := ⟨fuel - 1, by omega⟩
    have hgo : geUnsigned ((16 * (k + 1) + r : Nat) : Int) dpConfigGwSize = true := by
      simp [geUnsigned, dpConfigGwSize]
      omega
    have hrem : ((16 * (k + 1) + r : Nat) : Int) - nlaAlign dpConfigGwSize =
        ((16 * k + r : Nat) : Int) := by
      simp [nlaAlign, dpConfigGwSize]
      omega
    have hnext : ∀ j, i + nlaAlign dpConfigGwSize + 16 * j = i + 16 * (j + 1) := by
      intro j
      simp [nlaAlign, dpConfigGwSize]
      omega
    rw [gwLoop, if_pos hgo, hrem, range_succ_eq_map (n := k)]
    simp only [bind_run, readDpConfigGw_run, Option.bind_some,
      ih _ _ (Nat.lt_of_succ_lt_succ hfuel), pure_run, hnext, map_cons, map_map,
      flatMap_cons, flatMap_map, Function.comp_def, Nat.mul_zero, Nat.add_zero,
      append_assoc, Nat.succ_eq_add_one]

theorem ovsGwSetParams_run (nla : Nlattr) (h : nla.len < fuel) :
    ovsGwSetParams order fuel nla [] = some (((range (nlaAlign nla.len / 16)).map fun j =>
          dpConfigGwAt order nla.data (0 + 16 * j), ((nlaAlign nla.len % 16 : Nat) : Int)),
        [] ++ (range (nlaAlign nla.len / 16)).flatMap fun j =>
          (range 14).map (0 + 16 * j + ·)) := by
  have hle : nlaAlign nla.len / 16 ≤ nla.len := by
    unfold nlaAlign
    omega
  have hrun := gwLoop_run order nla.data 0 [] (Nat.mod_lt (nlaAlign nla.len) (by decide : 16 > 0))
    (Nat.lt_of_le_of_lt hle h)
  rwa [Nat.div_add_mod] at hrun

/-- Rounding up makes room for a struct whose last field is not all in the payload exactly
    if three bytes of the struct are missing. -/
theorem reads_lt_iff (n : Nat) :
    (∀ i ∈ (range (nlaAlign n / 16)).flatMap fun j => (range 14).map (0 + 16 * j + ·),
      i < n) ↔ n % 16 ≠ 13 := by
  simp only [mem_flatMap, mem_map, mem_range, nlaAlign]
  constructor
  · intro h hmod
    have hlast := h n ⟨n / 16, by omega, 13, by decide, by omega⟩
    omega
  · rintro hmod i ⟨j, hj, t, ht, rfl⟩
    omega

/-! ## 5. Memory -/

/-- The memory has the given bytes at `i`. -/
def HoldsAt (data : Nat → Byte) (i : Nat) (bytes : List Byte) : Prop :=
  (range bytes.length).map (fun j => data (i + j)) = bytes

variable {data i}

theorem holdsAt_append {a b : List Byte} :
    HoldsAt data i (a ++ b) ↔ HoldsAt data i a ∧ HoldsAt data (i + a.length) b := by
  have hsplit : (range (a ++ b).length).map (fun j => data (i + j)) =
      (range a.length).map (fun j => data (i + j)) ++
        (range b.length).map (fun j => data (i + a.length + j)) := by
    rw [length_append, range_add, map_append, map_map]
    simp only [Function.comp_def, Nat.add_assoc]
  unfold HoldsAt
  rw [hsplit]
  constructor
  · intro h
    exact append_inj h (by simp)
  · rintro ⟨ha, hb⟩
    rw [ha, hb]

theorem holdsAt_memoryAt (msg : List Byte) : HoldsAt (memoryAt msg) 0 msg := by
  apply ext_getElem
  · simp
  · intro j _ hj
    simp [memoryAt, getElem?_eq_getElem hj]

@[simp] theorem length_nlaHeader (len type : Nat) : (nlaHeader order len type).length = 4 := by
  simp [nlaHeader]

@[simp] theorem length_dpConfigGwBytes (padding : Byte × Byte) (params : DpConfigGw) :
    (dpConfigGwBytes order padding params).length = 16 := by
  simp [dpConfigGwBytes, params.param3.size]

variable {order}

theorem fieldAt_of_holdsAt {bytes : List Byte} (h : HoldsAt data i (order.arrange bytes)) :
    fieldAt order data i bytes.length = ofBytes bytes := by
  unfold HoldsAt at h
  rw [length_arrange] at h
  rw [fieldAt, h, arrange_arrange]

theorem fieldAt_u16 {n : Nat} (hn : n < 65536)
    (h : HoldsAt data i (u16Bytes order n)) : fieldAt order data i 2 = n := by
  refine (fieldAt_of_holdsAt h).trans ?_
  simp [ofBytes, byteOf]
  omega

theorem fieldAt_u32 {w : BitVec 32}
    (h : HoldsAt data i (u32Bytes order w)) : BitVec.ofNat 32 (fieldAt order data i 4) = w := by
  have hw := w.isLt
  have hfield : fieldAt order data i 4 = w.toNat := by
    refine (fieldAt_of_holdsAt h).trans ?_
    simp [ofBytes, byteOf]
    omega
  rw [hfield, BitVec.ofNat_toNat, BitVec.setWidth_eq]

theorem dpConfigGwAt_of_holdsAt {padding : Byte × Byte} {params : DpConfigGw}
    (h : HoldsAt data i (dpConfigGwBytes order padding params)) :
    dpConfigGwAt order data i = params := by
  obtain ⟨param1, param2, ea, size⟩ := params
  simp only [dpConfigGwBytes, holdsAt_append, length_append, length_u32Bytes] at h
  obtain ⟨⟨⟨h1, h2⟩, h3⟩, -⟩ := h
  unfold HoldsAt at h3
  rw [size] at h3
  simp only [dpConfigGwAt, fieldAt_u32 h1, fieldAt_u32 h2, DpConfigGw.mk.injEq, true_and]
  exact EthAddr.ext h3

/-! ## 6. From user space to the kernel -/

theorem nlMsgPut_of_aligned (msg : List Byte) {data : List Byte} (h : data.length % 4 = 0) :
    nlMsgPut msg data = msg ++ data := by
  have hpad : nlaAlign data.length - data.length = 0 := by
    unfold nlaAlign
    omega
  rw [nlMsgPut, hpad, replicate_zero, append_nil]

variable (order)

theorem putParams_eq (padding : Nat → Byte × Byte) (list : List DpConfigGw) (msg : List Byte) :
    ∃ bytes, putParams order padding list msg = msg ++ bytes ∧ bytes.length = 16 * list.length ∧
      ∀ data i, HoldsAt data i bytes →
        ((range list.length).map fun j => dpConfigGwAt order data (i + 16 * j)) = list := by
  induction list generalizing msg with
  | nil => exact ⟨[], by simp [putParams], rfl, fun _ _ _ => rfl⟩
  | cons params list ih =>
    have hput : nlMsgPut msg (dpConfigGwBytes order (padding msg.length) params) =
        msg ++ dpConfigGwBytes order (padding msg.length) params :=
      nlMsgPut_of_aligned msg (by simp)
    obtain ⟨bytes, hbytes, hlen, hread⟩ :=
      ih (msg ++ dpConfigGwBytes order (padding msg.length) params)
    refine ⟨dpConfigGwBytes order (padding msg.length) params ++ bytes, ?_, ?_, ?_⟩
    · rw [putParams, hput, hbytes, append_assoc]
    · simp [hlen, Nat.mul_succ]
      omega
    · intro data i hdata
      obtain ⟨hfirst, hrest⟩ := holdsAt_append.mp hdata
      rw [length_dpConfigGwBytes] at hrest
      rw [length_cons, range_succ_eq_map, map_cons, map_map, Nat.mul_zero,
        Nat.add_zero, dpConfigGwAt_of_holdsAt hfirst]
      congr 1
      refine Eq.trans ?_ (hread data (i + 16) hrest)
      simp only [Function.comp_def, Nat.succ_eq_add_one, Nat.mul_succ, Nat.add_assoc, Nat.add_comm]

variable {type : Nat}

theorem nlaParse_header {payload : List Byte} (rest : List Byte)
    (htype : type < 2 ^ 14) (hlen : 4 + payload.length < 65536) (halign : payload.length % 4 = 0) :
    ∃ data, HoldsAt data 0 payload ∧
      nlaParse order (nlaHeader order (4 + payload.length) type ++ payload ++ rest) =
        { type, len := payload.length, data } :: nlaParse order rest := by
  set msg := nlaHeader order (4 + payload.length) type ++ payload ++ rest with hmsg
  have hmem := holdsAt_memoryAt msg
  rw [hmsg, nlaHeader] at hmem
  simp only [holdsAt_append, length_append, length_u16Bytes, Nat.zero_add] at hmem
  obtain ⟨⟨⟨hl, ht⟩, hp⟩, -⟩ := hmem
  rw [← nlaHeader, ← hmsg] at hl ht hp
  have hlenField := fieldAt_u16 hlen hl
  have htypeField := fieldAt_u16 (show type < 65536 by omega) ht
  refine ⟨fun i => memoryAt msg (4 + i), ?_, ?_⟩
  · unfold HoldsAt at hp ⊢
    simpa only [Nat.zero_add] using hp
  · have hdrop : msg.drop (nlaAlign (4 + payload.length)) = rest := by
      have hround : nlaAlign (4 + payload.length) = 4 + payload.length := by
        unfold nlaAlign
        omega
      rw [hround, hmsg]
      exact drop_left' (by simp)
    have hfits : nlaHdrlen ≤ msg.length ∧ nlaHdrlen ≤ 4 + payload.length ∧
        4 + payload.length ≤ msg.length := by
      simp only [hmsg, nlaHdrlen, length_append, length_nlaHeader]
      omega
    rw [nlaParse, hlenField, htypeField, dif_pos hfits, hdrop, Nat.mod_eq_of_lt htype]
    simp [nlaHdrlen]

theorem nlaParse_nil : nlaParse order [] = [] := by
  rw [nlaParse, dif_neg]
  rintro ⟨h, -⟩
  cases h

/-- The part of the message in front of the parameters. -/
def requestBytes (order : ByteOrder) (operation : Option (BitVec 32)) : List Byte :=
  operation.elim [] (nlMsgPutU32 order [] ovsDpAttrGwOperations)

theorem nlaParse_request (operation : Option (BitVec 32)) (rest : List Byte) :
    ∃ attrs, nlaParse order (requestBytes order operation ++ rest) = attrs ++ nlaParse order rest ∧
      (∀ nla ∈ attrs, nla.type = ovsDpAttrGwOperations) ∧ (operation.isSome → attrs ≠ []) := by
  cases operation with
  | none => exact ⟨[], rfl, by simp, by simp⟩
  | some value =>
    have hput : requestBytes order (some value) =
        nlaHeader order (4 + (u32Bytes order value).length) ovsDpAttrGwOperations ++
          u32Bytes order value := by
      rw [length_u32Bytes]
      exact nlMsgPut_of_aligned [] (by simp)
    have hsize : 4 + (u32Bytes order value).length < 65536 := by simp
    obtain ⟨data, -, hparse⟩ := nlaParse_header order rest
      (show ovsDpAttrGwOperations < 2 ^ 14 by decide) hsize (by simp)
    refine ⟨[_], by rw [hput]; exact hparse, ?_, fun _ => cons_ne_nil _ _⟩
    intro nla hnla
    rw [mem_singleton.mp hnla]

variable {order} {list : List DpConfigGw} {attrs : List Nlattr} {nla : Nlattr}

theorem dpifNetlinkGwSetParams_eq {padding : Nat → Byte × Byte}
    {operation : Option (BitVec 32)} {msg : List Byte}
    (hlist : list ≠ []) (h : dpifNetlinkGwSetParams order padding operation list = some msg) :
    ∃ payload, msg = requestBytes order operation ++
        (nlaHeader order (4 + payload.length) ovsDpAttrGwParams ++ payload ++ []) ∧
      payload.length = 16 * list.length ∧ 4 + payload.length < 65536 ∧
      ∀ data i, HoldsAt data i payload →
        ((range list.length).map fun j => dpConfigGwAt order data (i + 16 * j)) = list := by
  obtain ⟨payload, hput, hlen, hread⟩ := putParams_eq order padding list
    (nlMsgStartNested order (requestBytes order operation) ovsDpAttrGwParams)
  have hstart : nlMsgStartNested order (requestBytes order operation) ovsDpAttrGwParams =
      requestBytes order operation ++ nlaHeader order nlaHdrlen ovsDpAttrGwParams :=
    nlMsgPut_of_aligned _ (by simp)
  have hend : nlMsgEndNested order (requestBytes order operation ++
      nlaHeader order nlaHdrlen ovsDpAttrGwParams ++ payload) (requestBytes order operation).length =
      some msg := by
    rw [← hstart, ← hput, ← h]
    exact (if_neg hlist).symm
  have hsize : (requestBytes order operation ++ nlaHeader order nlaHdrlen ovsDpAttrGwParams ++
      payload).length - (requestBytes order operation).length = 4 + payload.length := by
    simp only [length_append, length_nlaHeader]
    omega
  rw [nlMsgEndNested, hsize] at hend
  split at hend
  · cases hend
  next hfits =>
    refine ⟨payload, ?_, hlen, ?_, hread⟩
    · rw [← Option.some.inj hend, append_assoc, append_assoc, take_left]
      have hdrop : (requestBytes order operation ++
          (nlaHeader order nlaHdrlen ovsDpAttrGwParams ++ payload)).drop
            ((requestBytes order operation).length + 2) =
          u16Bytes order ovsDpAttrGwParams ++ payload := by
        rw [← drop_drop, drop_left, nlaHeader, append_assoc]
        exact drop_left' (by simp)
      rw [hdrop, nlaHeader]
      simp only [append_assoc, append_nil]
    · simp [nlAttrOversized, nlaHdrlen] at hfits
      omega

theorem attrOf_append_of_ne (rest : List Nlattr)
    (h : ∀ nla ∈ attrs, nla.type ≠ type) : attrOf (attrs ++ rest) type = attrOf rest type := by
  have hnone : attrs.reverse.find? (fun nla => nla.type == type) = none := by
    rw [find?_eq_none]
    intro nla hnla
    simpa using h nla (mem_reverse.mp hnla)
  rw [attrOf, attrOf, reverse_append, find?_append, hnone, Option.or_none]

theorem isSome_attrOf (hmem : nla ∈ attrs)
    (htype : nla.type = type) : (attrOf attrs type).isSome := by
  rw [attrOf, find?_isSome]
  exact ⟨nla, mem_reverse.mpr hmem, by simpa using htype⟩

theorem ovsGwSetParams_of_structs
    (hlen : nla.len = 16 * list.length) (hread : ((range list.length).map fun j =>
      dpConfigGwAt order nla.data (0 + 16 * j)) = list) :
    ∃ reads, ∀ fuel > nla.len, ovsGwSetParams order fuel nla [] = some ((list, 0), reads) := by
  have hstructs : nlaAlign nla.len / 16 = list.length := by
    unfold nlaAlign
    omega
  have hleft : nlaAlign nla.len % 16 = 0 := by
    unfold nlaAlign
    omega
  refine ⟨(range list.length).flatMap fun j => (range 14).map (0 + 16 * j + ·), ?_⟩
  intro fuel hfuel
  rw [ovsGwSetParams_run order nla hfuel, hstructs, hleft, hread, nil_append]
  rfl

/-- A message that user space sends carries its parameters to the kernel: they are the ones that the
    loop visits, and no bytes are left.  On an attribute of any length the loop ends, and it stays
    inside of the payload exactly if the payload is not three bytes short of a number of structs. -/
theorem gatewayParams_transport (order : ByteOrder) (padding : Nat → Byte × Byte)
    (operation : Option (BitVec 32)) (list : List DpConfigGw) (attr : Nlattr) :
    (∀ msg, dpifNetlinkGwSetParams order padding operation list = some msg →
      if list = [] then attrOf (nlaParse order msg) ovsDpAttrGwParams = none
      else ∃ nla, attrOf (nlaParse order msg) ovsDpAttrGwParams = some nla ∧
        (operation.isSome → ovsDpChange (nlaParse order msg) = some nla) ∧
        ∃ reads, ∀ fuel > nla.len, ovsGwSetParams order fuel nla [] = some ((list, 0), reads)) ∧
    ∃ visits left reads,
      (∀ fuel > attr.len, ovsGwSetParams order fuel attr [] = some ((visits, left), reads)) ∧
      ((∀ i ∈ reads, i < attr.len) ↔ attr.len % 16 ≠ 13) := by
  constructor
  · intro msg h
    split
    next hlist =>
      have hmsg : msg = requestBytes order operation ++ [] := by
        rw [append_nil]
        rw [dpifNetlinkGwSetParams, if_pos hlist] at h
        exact (Option.some.inj h).symm
      obtain ⟨attrs, hparse, htypes, -⟩ := nlaParse_request order operation []
      rw [hmsg, hparse, nlaParse_nil, attrOf_append_of_ne]
      · rfl
      · intro nla hnla
        rw [htypes nla hnla]
        decide
    next hlist =>
      obtain ⟨payload, rfl, hlen, hfits, hread⟩ := dpifNetlinkGwSetParams_eq hlist h
      obtain ⟨data, hdata, hparams⟩ := nlaParse_header order []
        (show ovsDpAttrGwParams < 2 ^ 14 by decide) hfits (by omega)
      obtain ⟨attrs, hparse, htypes, hsome⟩ := nlaParse_request order operation
        (nlaHeader order (4 + payload.length) ovsDpAttrGwParams ++ payload ++ [])
      rw [hparams, nlaParse_nil] at hparse
      have hattr : attrOf (nlaParse order (requestBytes order operation ++
          (nlaHeader order (4 + payload.length) ovsDpAttrGwParams ++ payload ++ [])))
          ovsDpAttrGwParams = some { type := ovsDpAttrGwParams, len := payload.length, data } := by
        rw [hparse, attrOf_append_of_ne]
        · rfl
        · intro nla hnla
          rw [htypes nla hnla]
          decide
      refine ⟨_, hattr, fun hoperation => ?_, ovsGwSetParams_of_structs hlen (hread data 0 hdata)⟩
      obtain ⟨first, hfirst⟩ := exists_mem_of_ne_nil attrs (hsome hoperation)
      have hmem : first ∈ nlaParse order (requestBytes order operation ++
          (nlaHeader order (4 + payload.length) ovsDpAttrGwParams ++ payload ++ [])) := by
        rw [hparse]
        exact mem_append_left _ hfirst
      obtain ⟨op, hop⟩ := Option.isSome_iff_exists.mp (isSome_attrOf hmem (htypes first hfirst))
      rw [ovsDpChange, hop]
      exact hattr
  · exact ⟨_, _, _, fun fuel hfuel => ovsGwSetParams_run order attr hfuel, reads_lt_iff attr.len⟩

def sampleParams : List DpConfigGw :=
  [{ param1 := 1, param2 := 0x0100000a, param3 := ⟨[0, 0x1b, 0x21, 0, 0, 1], rfl⟩ },
    { param1 := 2, param2 := 0x0200000a, param3 := ⟨[0, 0x1b, 0x21, 0, 0, 2], rfl⟩ }]

theorem gatewayParams_transport_sample :
    ∃ msg nla, dpifNetlinkGwSetParams .little (fun _ => (0, 0)) (some 1) sampleParams =
        some msg ∧ ovsDpChange (nlaParse .little msg) = some nla ∧
      ∃ reads, ∀ fuel > nla.len,
        ovsGwSetParams .little fuel nla [] = some ((sampleParams, 0), reads) := by
  obtain ⟨nla, -, hchange, hrun⟩ := (gatewayParams_transport .little (fun _ => (0, 0)) (some 1)
    sampleParams { type := 0, len := 0, data := fun _ => 0 }).1 _ rfl
  exact ⟨_, nla, rfl, hchange rfl, hrun⟩

/-- A payload of 13 bytes is rounded up to one struct, whose byte 13 is read. -/
theorem ovsGwSetParams_reads_past_payload : ∃ visits left reads,
      ovsGwSetParams .little 14 { type := ovsDpAttrGwParams, len := 13, data := fun _ => 0 } [] =
        some ((visits, left), reads) ∧ 13 ∈ reads :=
  ⟨_, _, _, rfl, by decide⟩

end Ovsgw.Datapath
