/-
  **Rewriting a neighbor discovery message** (`packet_set_nd` in `lib/packets.c`).

  The loop over the options moves its pointer by the length of an option, and then takes from
  the number of bytes that remain the length of the option that the pointer has come to.  That
  length is read even if no option is left there.  So an option that is found, or one of
  length 0, should end the walk: after the last option of a message without them, the walk
  reads what follows the L4 payload, and if that looks like an option it goes on there.  An
  option that overruns the payload ends the walk only if it is long enough.
-/
import Ovsgw.Flow.Csum

namespace Ovsgw.Headers

open Lib (Byte ByteOrder)
open List

/-! ## 1. The source -/

/-- The bytes from the L4 header on, those behind the L4 payload included. -/
abbrev Memory := Nat → Byte

def Memory.read (mem : Memory) (ofs n : Nat) : List Byte := (range' ofs n).map mem

def Memory.write (mem : Memory) (ofs : Nat) (bytes : List Byte) : Memory :=
  fun i => if ofs ≤ i then bytes.getD (i - ofs) (mem i) else mem i

def recalcCsum16 (oldCsum old new : BitVec 16) : BitVec 16 :=
  csumFinish (csumAdd16 (csumAdd16 ((~~~ oldCsum).setWidth 32) (~~~ old)) new)

def recalcCsum48 (order : ByteOrder) : BitVec 16 → List Byte → List Byte → BitVec 16
  | csum, a :: b :: old, a' :: b' :: new =>
    recalcCsum48 order (recalcCsum16 csum (raw16 order a b) (raw16 order a' b')) old new
  | csum, _, _ => csum

/-- The two halves of each `ovs_be32`, the low half first. -/
def lowHalfFirst : ByteOrder → List Byte → List Byte
  | .big, a :: b :: c :: d :: bytes => c :: d :: a :: b :: lowHalfFirst .big bytes
  | _, bytes => bytes

def recalcCsum128 (order : ByteOrder) (csum : BitVec 16) (old new : List Byte) : BitVec 16 :=
  recalcCsum48 order csum (lowHalfFirst order old) (lowHalfFirst order new)

/-- The length byte of the option at an offset. -/
def Memory.optLen (mem : Memory) (opt : Nat) : Nat := (mem (opt + 1)).toNat

/-- A source or target link-layer address option. -/
def Memory.isLla (mem : Memory) (opt : Nat) : Bool :=
  (mem opt == 1 || mem opt == 2) && mem.optLen opt == 1

/-- What the loop over the options does: the options that it looks at, the bytes that it reads
    or writes, and the option whose address it sets.  Offsets are those from `ns->options`. -/
structure Walk where
  examined : List Nat := []
  accessed : List Nat := []
  found : Option Nat := none

def walkOptions (mem : Memory) (opt : Nat) (bytesRemain : Int) : Walk :=
  if bytesRemain < 8 then {}
  else if mem.optLen opt = 0 then { accessed := [opt + 1] }
  else if mem.isLla opt then
    { examined := [opt], accessed := range' opt 8, found := some opt }
  else
    let next := opt + 8 * mem.optLen opt
    let rest := walkOptions mem next (bytesRemain - 8 * mem.optLen next)
    { rest with
      examined := opt :: rest.examined
      accessed := opt :: (opt + 1) :: (next + 1) :: rest.accessed }
termination_by bytesRemain.toNat + if mem.optLen opt = 0 then 0 else 1
decreasing_by
  split
  · omega
  · omega

/-- Sets bytes of the message, and the checksum after them. -/
def setBytes (order : ByteOrder)
    (recalc : ByteOrder → BitVec 16 → List Byte → List Byte → BitVec 16) (mem : Memory) (ofs : Nat)
    (new : List Byte) : Memory :=
  let old := mem.read ofs new.length
  if old = new then mem
  else
    let csum := recalc order (raw16 order (mem 2) (mem 3)) old new
    (mem.write 2 (raw16Bytes order csum)).write ofs new

/-- The bytes from `ns->options` on. -/
def Memory.options (mem : Memory) : Memory := fun i => mem (24 + i)

def packetSetNd (order : ByteOrder) (mem : Memory) (size : Nat) (target : BitVec 128)
    (sll tll : BitVec 48) : Memory × Walk :=
  if size < 24 then (mem, {})
  else
    let mem := setBytes order recalcCsum128 mem 8 (be128Bytes target)
    let walk := walkOptions mem.options 0 (size - 24)
    let mem :=
      match walk.found with
      | none => mem
      | some opt =>
        setBytes order recalcCsum48 mem (24 + opt + 2)
          (be48Bytes (if mem.options opt = 1 then sll else tll))
    (mem, walk)

/-! ## 2. The options of a message -/

/-- How the options end: with an address option, with an option of length 0, with one that
    overruns the payload, or where there is no room for an option. -/
inductive OptionsEnd where
  | found (opt : Nat)
  | zero
  | overrun (opt : Nat)
  | past
deriving DecidableEq

def OptionsEnd.found? : OptionsEnd → Option Nat
  | found opt => some opt
  | _ => none

/-- The offsets of the options up to the first address option. -/
def ndOptions (mem : Memory) (size opt : Nat) : List Nat × OptionsEnd :=
  if size < opt + 2 then ([], .past)
  else if mem.optLen opt = 0 then ([], .zero)
  else if size < opt + 8 * mem.optLen opt then ([], .overrun opt)
  else if mem.isLla opt then ([opt], .found opt)
  else
    let next := opt + 8 * mem.optLen opt
    (opt :: (ndOptions mem size next).1, (ndOptions mem size next).2)
termination_by size - opt

/-- What ends the options ends the walk too.  By then the bytes that remain are wrong by the
    difference of the lengths of the first option and the last. -/
def OptionsEnd.Stops (mem : Memory) (size first : Nat) : OptionsEnd → Prop
  | found _ => True
  | zero => True
  | overrun opt => size + 8 * first < opt + 8 * mem.optLen opt + 8
  | past => size < 8

/-- The walk looks at the options of the message and stays in the area that holds them. -/
structure Walk.Follows (walk : Walk) (options : List Nat × OptionsEnd) (size : Nat) : Prop where
  examined : walk.examined = options.1
  found : walk.found = options.2.found?
  accessed : ∀ ofs ∈ walk.accessed, ofs < size

/-! ## 3. The walk -/

section
variable {mem : Memory} {size opt : Nat}

/-- `bytesRemain` may be wrong, but it is large enough as long as the options fit. -/
theorem walkOptions_follows_iff {first : Nat} (bytesRemain : Int) (hroom : ¬ size < opt + 2)
    (hfirst : mem.optLen opt ≠ 0 → first ≠ 0)
    (hremain : bytesRemain + 8 * mem.optLen opt = size - opt + 8 * first) :
    (walkOptions mem opt bytesRemain).Follows (ndOptions mem size opt) size ↔
      (ndOptions mem size opt).2.Stops mem size first := by
  fun_induction ndOptions mem size opt generalizing bytesRemain with
  | case1 opt hsize => exact absurd hsize hroom
  | case2 opt _ hzero =>
    refine iff_of_true ?_ trivial
    rw [walkOptions, if_pos hzero]
    split
    · exact ⟨rfl, rfl, nofun⟩
    · refine ⟨rfl, rfl, ?_⟩
      simp
      omega
  | case3 opt _ hzero hover =>
    rw [walkOptions, if_neg hzero]
    by_cases hshort : bytesRemain < 8
    · rw [if_pos hshort]
      exact iff_of_true ⟨rfl, rfl, nofun⟩ (show _ < _ by omega)
    · -- The walk takes the option up, although it overruns.
      rw [if_neg hshort]
      refine iff_of_false (fun h => ?_) (show ¬ _ < _ by omega)
      have hexamined := h.examined
      split at hexamined <;> cases hexamined
  | case4 opt _ hzero hover hlla =>
    have hone : mem.optLen opt = 1 := by simp_all [Memory.isLla]
    have hsome := hfirst hzero
    rw [walkOptions, if_neg (by omega), if_neg hzero, if_pos hlla]
    refine iff_of_true ⟨rfl, rfl, fun ofs hofs => ?_⟩ trivial
    rw [mem_range'_1] at hofs
    omega
  | case5 opt _ hzero hover hlla next ih =>
    have hsome := hfirst hzero
    rw [walkOptions, if_neg (by omega), if_neg hzero, if_neg hlla]
    by_cases hnext : size < next + 2
    · -- No option is left, and still the length of one is read.
      refine iff_of_false (fun h => ?_) ?_
      · have hread := h.accessed (next + 1) (by simp [next])
        omega
      · rw [ndOptions, if_pos hnext]
        exact fun h : size < 8 => by omega
    · rw [← ih (bytesRemain - 8 * mem.optLen next) hnext (fun _ => hsome) (by omega)]
      constructor
      · intro h
        exact ⟨(cons.inj h.examined).2, h.found,
          fun ofs hofs => h.accessed ofs (.tail _ (.tail _ (.tail _ hofs)))⟩
      · intro h
        refine ⟨congrArg (opt :: ·) h.examined, h.found, ?_⟩
        simp only [mem_cons, forall_eq_or_imp]
        exact ⟨by omega, by omega, by omega, h.accessed⟩

theorem setBytes_eq {order : ByteOrder}
    {recalc : ByteOrder → BitVec 16 → List Byte → List Byte → BitVec 16} {new : List Byte}
    {ofs i : Nat} (hcsum : i < 2 ∨ 4 ≤ i) (hnew : i < ofs ∨ ofs + new.length ≤ i) :
    setBytes order recalc mem ofs new i = mem i := by
  have hwrite : ∀ {mem : Memory} {ofs : Nat} {bytes : List Byte},
      i < ofs ∨ ofs + bytes.length ≤ i → mem.write ofs bytes i = mem i := by
    intro mem ofs bytes h
    rw [Memory.write]
    split
    · rw [getD_eq_getElem?_getD, getElem?_eq_none (by omega)]
      rfl
    · rfl
  rw [setBytes]
  dsimp only
  split
  · rfl
  · rw [hwrite hnew, hwrite]
    cases order <;> simpa [raw16Bytes] using hcsum

theorem walkOptions_options :
    (walkOptions mem 0 size).Follows (ndOptions mem size 0) size ↔
      (ndOptions mem size 0).2.Stops mem size (mem.optLen 0) := by
  by_cases hroom : size < 0 + 2
  · rw [walkOptions, if_pos (by omega), ndOptions, if_pos hroom]
    exact iff_of_true ⟨rfl, rfl, nofun⟩ (show size < 8 by omega)
  · exact walkOptions_follows_iff _ hroom id (by omega)

end

/-- The walk follows the options of the message, and only the checksum, the target and the first
    address option change, exactly if what ends the options ends the walk too. -/
theorem packetSetNd_follows (order : ByteOrder) (mem : Memory) (size : Nat) (target : BitVec 128)
    (sll tll : BitVec 48) :
    ((packetSetNd order mem size target sll tll).2.Follows
        (ndOptions mem.options (size - 24) 0) (size - 24) ∧
      ∀ ofs, (packetSetNd order mem size target sll tll).1 ofs ≠ mem ofs →
        24 ≤ size ∧ (2 ≤ ofs ∧ ofs < 4 ∨ 8 ≤ ofs ∧ ofs < 24 ∨
          ∃ opt, (ndOptions mem.options (size - 24) 0).2 = .found opt ∧
            24 + opt + 2 ≤ ofs ∧ ofs < 24 + opt + 8)) ↔
      (ndOptions mem.options (size - 24) 0).2.Stops mem.options (size - 24)
        (mem.options.optLen 0) := by
  by_cases hsize : size < 24
  · rw [packetSetNd, if_pos hsize, Nat.sub_eq_zero_of_le hsize.le, ndOptions]
    exact iff_of_true ⟨⟨rfl, rfl, nofun⟩, fun _ h => absurd rfl h⟩ (show 0 < 8 by decide)
  have hlength : (be128Bytes target).length = 16 := rfl
  have hoptions : (setBytes order recalcCsum128 mem 8 (be128Bytes target)).options =
      mem.options := by
    funext i
    exact setBytes_eq (by omega) (by omega)
  have hcast : (size : Int) - 24 = (size - 24 : Nat) := by omega
  rw [packetSetNd, if_neg hsize]
  dsimp only
  rw [hoptions, hcast, ← walkOptions_options]
  refine ⟨And.left, fun hwalk => ⟨hwalk, fun ofs hofs => ⟨by omega, ?_⟩⟩⟩
  by_contra hout
  simp only [not_or, not_exists, not_and] at hout
  apply hofs
  have htarget : setBytes order recalcCsum128 mem 8 (be128Bytes target) ofs = mem ofs :=
    setBytes_eq (by omega) (by omega)
  rw [hwalk.found]
  cases hlast : (ndOptions mem.options (size - 24) 0).2 with
  | found opt =>
    have hmac := hout.2.2 opt hlast
    exact (setBytes_eq (by omega) (show _ ∨ 24 + opt + 2 + 6 ≤ ofs by omega)).trans
      htarget
  | _ => exact htarget


/-- A message of 24 bytes and the bytes that follow them. -/
def ndMessage (bytes : List Byte) : Memory :=
  fun i => if i < 24 then 0 else bytes.getD (i - 24) 0

def longOption : Memory := ndMessage (14 :: 2 :: zeros 14 ++ [1, 1])

/-- The payload ends with an option of 16 bytes.  What follows it looks like an address option,
    and is rewritten. -/
theorem packetSetNd_outside : (ndOptions longOption.options (40 - 24) 0).1 = [0] ∧
    (packetSetNd .little longOption 40 0 1 0).2.examined = [0, 16] ∧
    longOption 47 = 0 ∧ (packetSetNd .little longOption 40 0 1 0).1 47 = 1 := by
  have hlong : longOption.options.optLen 0 = 2 := rfl
  have hlla : longOption.options.isLla 0 = false := rfl
  have hnext : longOption.options.optLen 16 = 1 := rfl
  have hnextLla : longOption.options.isLla 16 = true := rfl
  have hwalk : walkOptions longOption.options 0 16 =
      { examined := [0, 16], accessed := [0, 1, 17] ++ range' 16 8, found := some 16 } := by
    simp [walkOptions, hlong, hlla, hnext, hnextLla]
  have htarget : setBytes .little recalcCsum128 longOption 8 (be128Bytes 0) = longOption := by
    rw [setBytes]
    exact if_pos (by decide)
  refine ⟨by simp [ndOptions, hlong, hlla], ?_, rfl, ?_⟩
  · simp only [packetSetNd, htarget]
    exact congrArg Walk.examined hwalk
  · simp only [packetSetNd, htarget]
    norm_num [hwalk]
    rfl

end Ovsgw.Headers
