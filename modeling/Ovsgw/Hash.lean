/-
  **The hash functions** (`lib/hash.h`, `lib/hash.c`) in the form that does not
  depend on special machine instructions.

  Words are put together from bytes in little-endian order.
-/
import Mathlib.Data.BitVec

namespace Ovsgw

def hashRot (x : BitVec 32) (k : Nat) : BitVec 32 := (x <<< k) ||| (x >>> (32 - k))

/-- `mhash_add__` and `mhash_add`. -/
def mhashAdd (hash data : BitVec 32) : BitVec 32 :=
  let mixed :=
    if data = 0 then hash
    else hash ^^^ (hashRot (data * 0xcc9e2d51#32) 15 * 0x1b873593#32)
  hashRot mixed 13 * 5#32 + 0xe6546b64#32

def mhashFinish (hash : BitVec 32) : BitVec 32 :=
  let hash := (hash ^^^ (hash >>> 16)) * 0x85ebca6b#32
  let hash := (hash ^^^ (hash >>> 13)) * 0xc2b2ae35#32
  hash ^^^ (hash >>> 16)

def hashAdd (hash data : BitVec 32) : BitVec 32 := mhashAdd hash data

def hashFinish (hash final : BitVec 32) : BitVec 32 := mhashFinish (hash ^^^ final)

def hash2words (x y : BitVec 32) : BitVec 32 := hashFinish (hashAdd (hashAdd x 0) y) 8

def hash3words (a b c : BitVec 32) : BitVec 32 :=
  hashFinish (hashAdd (hashAdd (hashAdd a 0) b) c) 12

def hashInt (x basis : BitVec 32) : BitVec 32 := hash2words x basis

def hashBoolean (x : Bool) (basis : BitVec 32) : BitVec 32 :=
  (if x then 0xc2b73583#32 else 0xe90f1258#32) ^^^ hashRot basis 1

def hashDouble (x : BitVec 64) (basis : BitVec 32) : BitVec 32 :=
  hash3words (x.setWidth 32) ((x >>> 32).setWidth 32) basis

def word (bytes : List Nat) : BitVec 32 :=
  BitVec.ofNat 32 (bytes.foldr (fun byte rest => byte + 256 * rest) 0)

def hashBytesLoop (hash : BitVec 32) : List Nat → BitVec 32
  | a :: b :: c :: d :: bytes => hashBytesLoop (hashAdd hash (word [a, b, c, d])) bytes
  | [] => hash
  | bytes => hashAdd hash (word bytes)

def hashBytes (bytes : List Nat) (basis : BitVec 32) : BitVec 32 :=
  hashFinish (hashBytesLoop basis bytes) (BitVec.ofNat 32 bytes.length)

def hashString (s : String) (basis : BitVec 32) : BitVec 32 :=
  hashBytes (s.toList.map Char.toNat) basis

/-! ## Different words

Each step of the hash can be undone: the factors are odd, so that they have inverses, bits that
are rotated are all there, and a shift by at least a third of the word has no effect after three
times. -/

theorem mul_injective {c d x y : BitVec 32} (hunit : c * d = 1#32) (h : x * c = y * c) :
    x = y := by
  have hmul := congrArg (· * d) h
  simpa only [BitVec.mul_assoc, hunit, BitVec.mul_one] using hmul

theorem getLsbD_hashRot {x : BitVec 32} {k i : Nat} (hk : k ≤ 32) (hi : i < 32) :
    (hashRot x k).getLsbD (if i + k < 32 then i + k else i + k - 32) = x.getLsbD i := by
  rw [hashRot, BitVec.getLsbD_or, BitVec.getLsbD_shiftLeft, BitVec.getLsbD_ushiftRight]
  split
  next h =>
    have hlast : x.getLsbD (32 - k + (i + k)) = false := BitVec.getLsbD_of_ge _ _ (by omega)
    simp [h, hlast]
  next h =>
    have hsame : 32 - k + (i + k - 32) = i := by omega
    have hlow : i + k - 32 < k := by omega
    simp [hsame, hlow]

theorem hashRot_injective {k : Nat} {x y : BitVec 32} (hk : k ≤ 32)
    (h : hashRot x k = hashRot y k) : x = y := by
  apply BitVec.eq_of_getLsbD_eq
  intro i hi
  rw [← getLsbD_hashRot hk hi, h, getLsbD_hashRot hk hi]

theorem xorShift_injective {k : Nat} {x y : BitVec 32} (hk : 32 ≤ k + k + k)
    (h : x ^^^ (x >>> k) = y ^^^ (y >>> k)) : x = y := by
  have hstep (i : Nat) (hi : x.getLsbD (i + k) = y.getLsbD (i + k)) :
      x.getLsbD i = y.getLsbD i := by
    have hbit := congrArg (·.getLsbD i) h
    simpa [Nat.add_comm k i, hi] using hbit
  apply BitVec.eq_of_getLsbD_eq
  intro i hi
  apply hstep
  apply hstep
  apply hstep
  rw [BitVec.getLsbD_of_ge _ _ (by omega), BitVec.getLsbD_of_ge _ _ (by omega)]

theorem mhashFinish_injective {x y : BitVec 32} (h : mhashFinish x = mhashFinish y) : x = y := by
  unfold mhashFinish at h
  have hlast := xorShift_injective (by decide) h
  have hmiddle := xorShift_injective (by decide)
    (mul_injective (d := 0x7ed1b41d#32) (by decide) hlast)
  exact xorShift_injective (by decide) (mul_injective (d := 0xa5cb9243#32) (by decide) hmiddle)

theorem mhashAdd_eq {hash data : BitVec 32} : mhashAdd hash data =
    hashRot (hash ^^^ (hashRot (data * 0xcc9e2d51#32) 15 * 0x1b873593#32)) 13 * 5#32 +
      0xe6546b64#32 := by
  unfold mhashAdd
  split
  next h =>
    subst h
    simp [hashRot]
  · rfl

variable {hash hash' data data' final : BitVec 32}

theorem mixed_eq_of_hashAdd_eq (h : hashAdd hash data = hashAdd hash' data') :
    hash ^^^ (hashRot (data * 0xcc9e2d51#32) 15 * 0x1b873593#32) =
      hash' ^^^ (hashRot (data' * 0xcc9e2d51#32) 15 * 0x1b873593#32) := by
  rw [hashAdd, hashAdd, mhashAdd_eq, mhashAdd_eq] at h
  have hmul := (BitVec.add_left_inj _).mp h
  exact hashRot_injective (by decide) (mul_injective (d := 0xcccccccd#32) (by decide) hmul)

theorem hashAdd_left_injective (h : hashAdd hash data = hashAdd hash' data) : hash = hash' :=
  (BitVec.xor_left_inj _).mp (mixed_eq_of_hashAdd_eq h)

theorem hashAdd_right_injective (h : hashAdd hash data = hashAdd hash data') : data = data' := by
  have hmul := (BitVec.xor_right_inj _).mp (mixed_eq_of_hashAdd_eq h)
  have hrot := mul_injective (d := 0x56ed309b#32) (by decide) hmul
  exact mul_injective (d := 0xdee13bb1#32) (by decide) (hashRot_injective (by decide) hrot)

theorem hashFinish_injective (h : hashFinish hash final = hashFinish hash' final) :
    hash = hash' :=
  (BitVec.xor_left_inj _).mp (mhashFinish_injective h)

end Ovsgw
