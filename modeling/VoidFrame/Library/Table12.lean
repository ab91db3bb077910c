import VoidFrame.Library.Bytes

-- Tables of 12-bit numbers, two of which share three bytes.

namespace Table12

open Bytes (u16)

def offset (i : Nat) : Nat :=
  i + i / 2

def get (t : Nat → UInt8) (i : Nat) : UInt16 :=
  let v := u16 t (offset i)
  if i % 2 = 1 then (v >>> 4) &&& 0x0FFF else v &&& 0x0FFF

-- The two bytes of the entry, together with a half of another one.
def word (t : Nat → UInt8) (i : Nat) (value : UInt16) : UInt16 :=
  let v := u16 t (offset i)
  let low : UInt16 := value &&& 0x0FFF
  if i % 2 = 1 then (v &&& (0x000F : UInt16)) ||| low <<< 4 else (v &&& (0xF000 : UInt16)) ||| low

def set (t : Nat → UInt8) (i : Nat) (value : UInt16) : Nat → UInt8 :=
  Bytes.put16 t (offset i) (word t i value)

variable {t : Nat → UInt8} {i j : Nat} {value : UInt16}

lemma and_mask (x : UInt16) : (x &&& 0x0FFF).toNat = x.toNat % 4096 := by
  rw [UInt16.toNat_and]
  exact Nat.and_two_pow_sub_one_eq_mod x.toNat 12

lemma and_high (x : UInt16) : (x &&& 0xF000).toNat = 2 ^ 12 * (x.toNat / 2 ^ 12) := by
  rw [UInt16.toNat_and]
  change x.toNat &&& 2 ^ 12 * (2 ^ 4 - 1) = _
  apply Nat.eq_of_testBit_eq
  intro k
  rw [Nat.testBit_and, Nat.testBit_two_pow_mul, Nat.testBit_two_pow_mul, Nat.testBit_div_two_pow,
    Nat.testBit_two_pow_sub_one]
  by_cases hk : k < 12
  case pos => simp [decide_eq_false (Nat.not_le.mpr hk)]
  have he : k - 12 + 12 = k := by omega
  by_cases h16 : k < 16
  case pos => simp [he, (by omega : k - 12 < 4), (by omega : 12 ≤ k)]
  have hx : x.toNat.testBit k = false :=
    Nat.testBit_lt_two_pow (x.toNat_lt.trans_le (Nat.pow_le_pow_right (by decide) (by omega)))
  simp [he, hx]

lemma get_odd (h : i % 2 = 1) :
    (get t i).toNat = (t (offset i)).toNat / 16 + 16 * (t (offset i + 1)).toNat := by
  have h0 := (t (offset i)).toNat_lt
  have h1 := (t (offset i + 1)).toNat_lt
  unfold get
  rw [if_pos h, and_mask, UInt16.toNat_shiftRight, Bytes.u16_toNat]
  simp only [UInt16.reduceToNat, Nat.reduceMod, Nat.shiftRight_eq_div_pow, Nat.reducePow]
  omega

lemma get_even (h : i % 2 ≠ 1) :
    (get t i).toNat = (t (offset i)).toNat + 256 * ((t (offset i + 1)).toNat % 16) := by
  have h0 := (t (offset i)).toNat_lt
  unfold get
  rw [if_neg h, and_mask, Bytes.u16_toNat]
  omega

lemma word_odd (h : i % 2 = 1) :
    (word t i value).toNat = (t (offset i)).toNat % 16 + 16 * (value.toNat % 4096) := by
  have hlow (x : UInt16) : (x &&& 0x000F).toNat = x.toNat % 16 := by
    rw [UInt16.toNat_and]
    exact Nat.and_two_pow_sub_one_eq_mod x.toNat 4
  have hlt : value.toNat % 4096 < 4096 := Nat.mod_lt _ (by decide)
  have hshift : ((value &&& 0x0FFF) <<< 4).toNat = 2 ^ 4 * (value.toNat % 4096) := by
    rw [UInt16.toNat_shiftLeft, and_mask]
    simp only [UInt16.reduceToNat, Nat.reduceMod, Nat.shiftLeft_eq, Nat.reducePow]
    omega
  unfold word
  rw [if_pos h, UInt16.toNat_or, hlow, hshift, Nat.or_comm,
    ← Nat.two_pow_add_eq_or_of_lt (Nat.mod_lt _ (by decide)), Bytes.u16_toNat]
  omega

lemma word_even (h : i % 2 ≠ 1) :
    (word t i value).toNat = 4096 * ((t (offset i + 1)).toNat / 16) + value.toNat % 4096 := by
  have h0 := (t (offset i)).toNat_lt
  unfold word
  rw [if_neg h, UInt16.toNat_or, and_high, and_mask,
    ← Nat.two_pow_add_eq_or_of_lt (Nat.mod_lt _ (by decide)), Bytes.u16_toNat]
  omega

lemma set_low : (set t i value (offset i)).toNat = (word t i value).toNat % 256 := by
  unfold set Bytes.put16
  rw [Function.update_of_ne (by omega), Function.update_self]
  simp

lemma set_high : (set t i value (offset i + 1)).toNat = (word t i value).toNat / 256 := by
  have hw := (word t i value).toNat_lt
  unfold set Bytes.put16
  rw [Function.update_self]
  simp [Nat.shiftRight_eq_div_pow]
  omega

lemma set_other (h0 : k ≠ offset i) (h1 : k ≠ offset i + 1) : set t i value k = t k := by
  unfold set Bytes.put16
  rw [Function.update_of_ne h1, Function.update_of_ne h0]

lemma get_set_self : (get (set t i value) i).toNat = value.toNat % 4096 := by
  have h0 := (t (offset i)).toNat_lt
  have h1 := (t (offset i + 1)).toNat_lt
  by_cases h : i % 2 = 1
  case pos =>
    rw [get_odd h, set_low, set_high, word_odd h]
    omega
  rw [get_even h, set_low, set_high, word_even h]
  omega

-- Two entries that share a byte keep to their halves of it.
lemma get_set_of_ne (h : j ≠ i) : get (set t i value) j = get t j := by
  have h0 := (t (offset i)).toNat_lt
  have h1 := (t (offset i + 1)).toNat_lt
  rw [← UInt16.toNat_inj]
  by_cases hpair : j / 2 = i / 2
  case neg =>
    have hl : set t i value (offset j) = t (offset j) :=
      set_other (by unfold offset; omega) (by unfold offset; omega)
    have hh : set t i value (offset j + 1) = t (offset j + 1) :=
      set_other (by unfold offset; omega) (by unfold offset; omega)
    by_cases hj : j % 2 = 1
    · rw [get_odd hj, get_odd hj, hl, hh]
    · rw [get_even hj, get_even hj, hl, hh]
  case pos =>
    by_cases hi : i % 2 = 1
    · have hj : j % 2 ≠ 1 := by omega
      have ho : offset j + 1 = offset i := by unfold offset; omega
      have hl : set t i value (offset j) = t (offset j) :=
        set_other (by omega) (by omega)
      rw [get_even hj, get_even hj, hl, ho, set_low, word_odd hi]
      omega
    · have hj : j % 2 = 1 := by omega
      have ho : offset j = offset i + 1 := by unfold offset; omega
      have hh : set t i value (offset j + 1) = t (offset j + 1) :=
        set_other (by omega) (by omega)
      rw [get_odd hj, get_odd hj, hh, ho, set_high, word_even hi]
      omega

lemma word_get : (word t i (get t i)).toNat = (t (offset i)).toNat + 256 * (t (offset i + 1)).toNat := by
  have h0 := (t (offset i)).toNat_lt
  have h1 := (t (offset i + 1)).toNat_lt
  by_cases h : i % 2 = 1
  case pos =>
    rw [word_odd h, get_odd h]
    omega
  rw [word_even h, get_even h]
  omega

lemma set_get : set t i (get t i) = t := by
  have h0 := (t (offset i)).toNat_lt
  funext k
  by_cases hl : k = offset i
  case pos =>
    rw [hl, ← UInt8.toNat_inj, set_low, word_get]
    omega
  by_cases hh : k = offset i + 1
  · rw [hh, ← UInt8.toNat_inj, set_high, word_get]
    omega
  · exact set_other hl hh

end Table12
