import Mathlib

-- Reflected cyclic redundancy checks. The lowest bit of a register is the coefficient of the highest power.

open Polynomial

namespace Crc

variable {w : Nat} (g : BitVec w)

def shift (c : BitVec w) : BitVec w :=
  if c.getLsbD 0 then g ^^^ (c >>> 1) else c >>> 1

def feed (c : BitVec w) (b : Bool) : BitVec w :=
  shift g (c ^^^ (BitVec.ofBool b).setWidth w)

section

variable {g}

lemma shift_xor (a b : BitVec w) : shift g (a ^^^ b) = shift g a ^^^ shift g b := by
  unfold shift
  rw [BitVec.getLsbD_xor, BitVec.ushiftRight_xor_distrib]
  cases a.getLsbD 0 <;> cases b.getLsbD 0
  case false.false => rfl
  case false.true => simp only [Bool.false_xor, ↓reduceIte, Bool.false_eq_true]; ac_rfl
  case true.false => simp only [Bool.xor_false, ↓reduceIte, Bool.false_eq_true]; ac_rfl
  case true.true =>
    calc a >>> 1 ^^^ b >>> 1
      _ = (g ^^^ g) ^^^ (a >>> 1 ^^^ b >>> 1) := by rw [BitVec.xor_self, BitVec.zero_xor]
      _ = (g ^^^ a >>> 1) ^^^ (g ^^^ b >>> 1) := by ac_rfl

lemma repeat_shift_xor (n : Nat) (a b : BitVec w) :
    Nat.repeat (shift g) n (a ^^^ b) = Nat.repeat (shift g) n a ^^^ Nat.repeat (shift g) n b := by
  induction n
  case zero => rfl
  case succ n ih => rw [Nat.repeat, ih, shift_xor]; rfl

lemma repeat_shift_of_low (h : ∀ i < n, c.getLsbD i = false) :
    Nat.repeat (shift g) n c = c >>> n := by
  induction n
  case zero => exact (BitVec.ushiftRight_zero c).symm
  case succ n ih =>
    have hlow : (c >>> n).getLsbD 0 = false := by
      rw [BitVec.getLsbD_ushiftRight]
      exact h n (Nat.lt_succ_self n)
    rw [Nat.repeat, ih fun i hi => h i (Nat.lt_succ_of_lt hi), shift, hlow, BitVec.shiftRight_add]
    rfl

-- A word that is added before its bits are shifted out, or bit by bit.
lemma repeat_shift_eq_foldl (hm : m ≤ w) (c : BitVec w) (y : BitVec m) :
    Nat.repeat (shift g) m (c ^^^ y.setWidth w) = ((List.range m).map y.getLsbD).foldl (feed g) c := by
  induction m
  case zero => simp [Nat.repeat, BitVec.eq_nil y]
  case succ m ih =>
    have hy : y.setWidth w = (y.setWidth m).setWidth w ^^^ (BitVec.ofBool (y.getLsbD m)).setWidth w <<< m := by
      apply BitVec.eq_of_getLsbD_eq
      intro i hi
      simp only [BitVec.getLsbD_xor, BitVec.getLsbD_setWidth, BitVec.getLsbD_shiftLeft, hi, decide_true, Bool.true_and]
      obtain hlt | rfl | hgt := lt_trichotomy i m
      · simp [hlt]
      · simp [Nat.zero_lt_of_lt hi]
      · simp [Nat.not_lt.mpr hgt.le, BitVec.getLsbD_of_ge y i hgt, BitVec.getLsbD_ofBool, Nat.sub_ne_zero_of_lt hgt]
    have hlast : Nat.repeat (shift g) m ((BitVec.ofBool (y.getLsbD m)).setWidth w <<< m) =
        (BitVec.ofBool (y.getLsbD m)).setWidth w := by
      rw [repeat_shift_of_low fun i hi => by simp [hi]]
      apply BitVec.eq_of_getLsbD_eq
      intro i hi
      rw [BitVec.getLsbD_ushiftRight, BitVec.getLsbD_shiftLeft]
      by_cases h0 : i = 0
      · simp [h0, Nat.lt_of_succ_le hm, Nat.zero_lt_of_lt hm]
      · simp [BitVec.getLsbD_setWidth, BitVec.getLsbD_ofBool, h0]
    have hbits : (List.range m).map (y.setWidth m).getLsbD = (List.range m).map y.getLsbD := by
      refine List.map_congr_left fun i hi => ?_
      rw [BitVec.getLsbD_setWidth, decide_eq_true (List.mem_range.mp hi), Bool.true_and]
    rw [List.range_succ, List.map_append, List.foldl_append, ← hbits, ← ih (by omega), hy, ← BitVec.xor_assoc,
      Nat.repeat, repeat_shift_xor, hlast]
    rfl

end

def coeff (b : Bool) : ZMod 2 :=
  if b then 1 else 0

lemma coeff_xor (a b : Bool) : coeff (a ^^ b) = coeff a + coeff b := by
  revert a b
  decide

noncomputable def poly (c : BitVec w) : (ZMod 2)[X] :=
  ∑ i ∈ Finset.range w, C (coeff (c.getLsbD i)) * X ^ (w - 1 - i)

noncomputable def generator : (ZMod 2)[X] :=
  X ^ w + poly g

-- The first bit of a message is the coefficient of the highest power.
noncomputable def message : List Bool → (ZMod 2)[X]
  | [] => 0
  | b :: l => C (coeff b) * X ^ l.length + message l

lemma poly_xor (a b : BitVec w) : poly (a ^^^ b) = poly a + poly b := by
  unfold poly
  rw [← Finset.sum_add_distrib]
  refine Finset.sum_congr rfl fun i _ => ?_
  rw [BitVec.getLsbD_xor, coeff_xor, C_add, add_mul]

lemma degree_poly_lt (c : BitVec w) : (poly c).degree < w := by
  rw [← mem_degreeLT]
  refine Submodule.sum_mem _ fun i hi => mem_degreeLT.mpr ?_
  refine (degree_C_mul_X_pow_le _ _).trans_lt ?_
  have := Finset.mem_range.mp hi
  exact_mod_cast (by omega : w - 1 - i < w)

lemma X_mul_poly (c : BitVec w) : X * poly c = C (coeff (c.getLsbD 0)) * X ^ w + poly (c >>> 1) := by
  rcases w with _ | w
  · simp [poly, coeff]
  unfold poly
  rw [Finset.sum_range_succ', Finset.sum_range_succ, mul_add, Finset.mul_sum, add_comm]
  congr 1
  · rw [Nat.add_sub_cancel, Nat.sub_zero, pow_succ]
    ring
  · have hlast : (c >>> 1).getLsbD w = false := by
      rw [BitVec.getLsbD_ushiftRight]
      exact BitVec.getLsbD_of_ge c _ (by omega)
    rw [hlast, coeff, if_neg Bool.false_ne_true, C_0, zero_mul, add_zero]
    refine Finset.sum_congr rfl fun i hi => ?_
    have hpow : w + 1 - 1 - i = w + 1 - 1 - (i + 1) + 1 := by
      have := Finset.mem_range.mp hi
      omega
    rw [BitVec.getLsbD_ushiftRight, add_comm 1 i, hpow, pow_succ]
    ring

lemma poly_bit (hw : 0 < w) (b : Bool) : X * poly ((BitVec.ofBool b).setWidth w) = C (coeff b) * X ^ w := by
  have hzero : (BitVec.ofBool b).setWidth w >>> 1 = 0#w := by
    apply BitVec.eq_of_getLsbD_eq
    intro i hi
    simp
  have hpoly : poly 0#w = 0 := by simp [poly, coeff]
  rw [X_mul_poly, hzero, hpoly, add_zero]
  simp [hw]

-- A shift multiplies with `X`, up to a multiple of the generator.
lemma poly_shift (c : BitVec w) : X * poly c = poly (shift g c) + generator g * C (coeff (c.getLsbD 0)) := by
  unfold shift generator
  rw [X_mul_poly]
  cases c.getLsbD 0
  case false => simp [coeff]
  have htwo : poly g + poly g = 0 := CharTwo.add_self_eq_zero _
  simp only [coeff, if_pos, C_1, one_mul, mul_one, poly_xor]
  linear_combination -htwo

lemma poly_foldl_feed (hw : 0 < w) (l : List Bool) (c : BitVec w) :
    ∃ q, poly (l.foldl (feed g) c) + generator g * q = message l * X ^ w + poly c * X ^ l.length := by
  induction l generalizing c
  case nil => exact ⟨0, by simp [message]⟩
  case cons b l ih =>
    obtain ⟨q, hq⟩ := ih (feed g c b)
    have hs := poly_shift g (c ^^^ (BitVec.ofBool b).setWidth w)
    rw [poly_xor, mul_add, poly_bit hw] at hs
    refine ⟨q + C (coeff ((c ^^^ (BitVec.ofBool b).setWidth w).getLsbD 0)) * X ^ l.length, ?_⟩
    rw [List.foldl_cons, message, List.length_cons]
    unfold feed at hq ⊢
    linear_combination hq - X ^ l.length * hs

-- What is left in the register is the remainder of the message.
lemma poly_foldl_eq_mod (hw : 0 < w) (l : List Bool) (c : BitVec w) :
    poly (l.foldl (feed g) c) = (message l * X ^ w + poly c * X ^ l.length) %ₘ generator g := by
  have hm : (generator g).Monic := monic_X_pow_add (degree_poly_lt g)
  have hd : (generator g).degree = w := by
    rw [generator, degree_add_eq_left_of_degree_lt] <;> rw [degree_X_pow]
    exact degree_poly_lt g
  obtain ⟨q, hq⟩ := poly_foldl_feed g hw l c
  exact (div_modByMonic_unique q _ hm ⟨hq, hd ▸ degree_poly_lt _⟩).2.symm

end Crc
