/-
  **Writing numbers, and the Internet checksum** (`lib/csum.c`).

  A checksum is computed on 16-bit words in the byte order of the machine, and written back in
  that order.
-/
import Ovsgw.Flow.Extract

namespace Ovsgw.Headers

open Lib (Byte ByteOrder)

/-! ## 1. Writing -/

def be16Bytes (v : BitVec 16) : List Byte := [v.extractLsb' 8 8, v.extractLsb' 0 8]

def be32Bytes (v : BitVec 32) : List Byte :=
  be16Bytes (v.extractLsb' 16 16) ++ be16Bytes (v.extractLsb' 0 16)

def be48Bytes (v : BitVec 48) : List Byte :=
  be16Bytes (v.extractLsb' 32 16) ++ be32Bytes (v.extractLsb' 0 32)

def be64Bytes (v : BitVec 64) : List Byte :=
  be32Bytes (v.extractLsb' 32 32) ++ be32Bytes (v.extractLsb' 0 32)

def be128Bytes (v : BitVec 128) : List Byte :=
  be64Bytes (v.extractLsb' 64 64) ++ be64Bytes (v.extractLsb' 0 64)

def zeros (n : Nat) : List Byte := List.replicate n 0

/-! ## 2. Checksums -/

/-- Two bytes in memory as a number of the machine. -/
def raw16 : ByteOrder → Byte → Byte → BitVec 16
  | .little, a, b => b ++ a
  | .big, a, b => a ++ b

def raw16Bytes : ByteOrder → BitVec 16 → List Byte
  | .little, v => [v.extractLsb' 0 8, v.extractLsb' 8 8]
  | .big, v => [v.extractLsb' 8 8, v.extractLsb' 0 8]

def csumAdd16 (sum : BitVec 32) (word : BitVec 16) : BitVec 32 := sum + word.setWidth 32

/-- The low half of a sum, with its carries added to it. -/
def csumFold (sum : BitVec 32) : BitVec 32 := (sum &&& 0xffff#32) + (sum >>> 16)

theorem toNat_csumFold (sum : BitVec 32) :
    (csumFold sum).toNat = sum.toNat % 2 ^ 16 + sum.toNat / 2 ^ 16 := by
  have hlow : (sum &&& 0xffff#32).toNat = sum.toNat % 2 ^ 16 := by
    rw [BitVec.toNat_and]
    exact Nat.and_two_pow_sub_one_eq_mod sum.toNat 16
  rw [csumFold, BitVec.toNat_add, BitVec.toNat_ushiftRight, hlow, Nat.shiftRight_eq_div_pow]
  omega

theorem ushiftRight_16_eq_zero (sum : BitVec 32) : sum >>> 16 = 0 ↔ sum.toNat / 2 ^ 16 = 0 := by
  rw [BitVec.toNat_eq, BitVec.toNat_ushiftRight, Nat.shiftRight_eq_div_pow]
  rfl

def csumFinish (sum : BitVec 32) : BitVec 16 :=
  if sum >>> 16 ≠ 0 then csumFinish (csumFold sum) else ~~~ sum.setWidth 16
termination_by sum.toNat
decreasing_by
  have hcarry := mt (ushiftRight_16_eq_zero sum).mpr ‹_›
  rw [toNat_csumFold]
  omega

/-- The sum of 16-bit words, with a zero after an odd last byte. -/
def wordSum (order : ByteOrder) : List Byte → Nat
  | a :: b :: data => (raw16 order a b).toNat + wordSum order data
  | [a] => (raw16 order a 0).toNat
  | [] => 0

end Ovsgw.Headers
