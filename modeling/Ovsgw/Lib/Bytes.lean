/-
  **Numbers as bytes**: the order in which a machine keeps the bytes of a number, and network
  byte order, which is that of a big-endian machine.
-/
import Mathlib.Data.List.TakeDrop
import Mathlib.Tactic.IntervalCases

namespace Ovsgw.Lib

open List

abbrev Byte := BitVec 8

inductive ByteOrder where
  | little
  | big
deriving DecidableEq

/-! ## 1. Bytes in memory -/

/-- A list of bytes from the least significant one, as it is in memory. -/
def ByteOrder.arrange : ByteOrder → List Byte → List Byte
  | .little, bytes => bytes
  | .big, bytes => bytes.reverse

/-- The `i`th byte of a number, from the least significant one. -/
def byteOf (n i : Nat) : Byte := BitVec.ofNat 8 (n / 256 ^ i)

def u16Bytes (order : ByteOrder) (n : Nat) : List Byte := order.arrange [byteOf n 0, byteOf n 1]

def u32Bytes (order : ByteOrder) (w : BitVec 32) : List Byte :=
  order.arrange [byteOf w.toNat 0, byteOf w.toNat 1, byteOf w.toNat 2, byteOf w.toNat 3]

def ofBytes (bytes : List Byte) : Nat := bytes.foldr (fun b n => b.toNat + 256 * n) 0

section
variable (order : ByteOrder)

@[simp] theorem arrange_arrange (bytes : List Byte) : order.arrange (order.arrange bytes) = bytes := by
  cases order with
  | little => rfl
  | big => exact reverse_reverse bytes

@[simp] theorem length_arrange (bytes : List Byte) : (order.arrange bytes).length = bytes.length := by
  cases order with
  | little => rfl
  | big => exact length_reverse

@[simp] theorem length_u16Bytes (n : Nat) : (u16Bytes order n).length = 2 :=
  length_arrange order _

@[simp] theorem length_u32Bytes (w : BitVec 32) : (u32Bytes order w).length = 4 :=
  length_arrange order _

end

/-! ## 2. Network byte order -/

/-- `htonl` and `ntohl`. -/
def htonl (order : ByteOrder) (x : BitVec 32) : BitVec 32 :=
  match order with
  | .little =>
    ((x &&& 0xff) <<< 24) ||| ((x &&& 0xff00) <<< 8) ||| ((x >>> 8) &&& 0xff00) ||| (x >>> 24)
  | .big => x

variable {order : ByteOrder} {x : BitVec 32} {i : Nat}

/-- On a little-endian machine the bytes are reversed, and the order of the bits in them is kept. -/
theorem getLsbD_htonl_little (hi : i < 32) :
    (htonl .little x).getLsbD i = x.getLsbD (8 * (3 - i / 8) + i % 8) := by
  interval_cases i <;> simp [htonl]

theorem htonl_and {y : BitVec 32} : htonl order x &&& htonl order y = htonl order (x &&& y) := by
  cases order with
  | big => rfl
  | little =>
    apply BitVec.eq_of_getLsbD_eq
    intro i hi
    rw [BitVec.getLsbD_and, getLsbD_htonl_little hi, getLsbD_htonl_little hi,
      getLsbD_htonl_little hi, BitVec.getLsbD_and]

theorem htonl_htonl (x : BitVec 32) : htonl order (htonl order x) = x := by
  cases order with
  | big => rfl
  | little =>
    apply BitVec.eq_of_getLsbD_eq
    intro i hi
    rw [getLsbD_htonl_little hi, getLsbD_htonl_little (by omega)]
    congr 1
    omega

theorem htonl_ne_zero : htonl order x ≠ 0 ↔ x ≠ 0 := by
  have hzero : htonl order 0 = 0 := by cases order <;> decide
  constructor
  · rintro h rfl
    exact h hzero
  · intro h hx
    apply h
    rw [← @htonl_htonl order x, hx, hzero]

end Ovsgw.Lib
