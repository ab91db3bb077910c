import Mathlib

-- Numbers in little-endian bytes.

namespace Bytes

variable (b : Nat → UInt8) (i : Nat)

def u16 : UInt16 :=
  (b i).toUInt16 ||| (b (i + 1)).toUInt16 <<< 8

def u32 : UInt32 :=
  (u16 b i).toUInt32 ||| (u16 b (i + 2)).toUInt32 <<< 16

def u64 : UInt64 :=
  (u32 b i).toUInt64 ||| (u32 b (i + 4)).toUInt64 <<< 32

def put16 (v : UInt16) : Nat → UInt8 :=
  Function.update (Function.update b i v.toUInt8) (i + 1) (v >>> 8).toUInt8

-- The bytes of a number, over and over again.
def repeat32 (v : UInt32) : Nat → UInt8 := fun i =>
  UInt8.ofNat (v.toNat / 256 ^ (i % 4))

lemma u16_toNat : (u16 b i).toNat = (b i).toNat + 256 * (b (i + 1)).toNat := by
  have h0 := (b i).toNat_lt
  have h1 := (b (i + 1)).toNat_lt
  have hs : ((b (i + 1)).toUInt16 <<< 8).toNat = 2 ^ 8 * (b (i + 1)).toNat := by
    rw [UInt16.toNat_shiftLeft, UInt8.toNat_toUInt16]
    simp only [UInt16.reduceToNat, Nat.reduceMod, Nat.shiftLeft_eq, Nat.reducePow]
    omega
  unfold u16
  rw [UInt16.toNat_or, hs, UInt8.toNat_toUInt16, Nat.or_comm, ← Nat.two_pow_add_eq_or_of_lt h0]
  omega

lemma u32_toNat : (u32 b i).toNat = (u16 b i).toNat + 65536 * (u16 b (i + 2)).toNat := by
  have h0 := (u16 b i).toNat_lt
  have h1 := (u16 b (i + 2)).toNat_lt
  have hs : ((u16 b (i + 2)).toUInt32 <<< 16).toNat = 2 ^ 16 * (u16 b (i + 2)).toNat := by
    rw [UInt32.toNat_shiftLeft, UInt16.toNat_toUInt32]
    simp only [UInt32.reduceToNat, Nat.reduceMod, Nat.shiftLeft_eq, Nat.reducePow]
    omega
  unfold u32
  rw [UInt32.toNat_or, hs, UInt16.toNat_toUInt32, Nat.or_comm, ← Nat.two_pow_add_eq_or_of_lt h0]
  omega

variable {i}

lemma u32_repeat32 (v : UInt32) (h : i % 4 = 0) : u32 (repeat32 v) i = v := by
  have hlt := v.toNat_lt
  have h1 : (i + 1) % 4 = 1 := by omega
  have h2 : (i + 2) % 4 = 2 := by omega
  have h3 : (i + 2 + 1) % 4 = 3 := by omega
  refine UInt32.toNat_inj.mp ?_
  rw [u32_toNat, u16_toNat, u16_toNat]
  simp only [repeat32, UInt8.toNat_ofNat', h, h1, h2, h3]
  omega

end Bytes
