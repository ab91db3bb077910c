import Mathlib

-- One's-complement sums of 16-bit words: a carry out of the word is added to it again.

namespace OnesComplement

def add (a b : Nat) : Nat :=
  if a + b < 2 ^ 16 then a + b else a + b - (2 ^ 16 - 1)

def sum (l : List Nat) : Nat :=
  l.foldl add 0

-- The words of some bytes with the high byte first; an odd number of bytes is padded with a zero.
def words : List UInt8 → List Nat
  | hi :: lo :: l => (256 * hi.toNat + lo.toNat) :: words l
  | [b] => [256 * b.toNat]
  | [] => []

-- The sum over a message with its checksum has all of its bits.
def Verifies (l : List UInt8) : Prop :=
  sum (words l) = 0xFFFF

variable {a b n : Nat} {l : List Nat}

-- A sum is `n` up to multiples of `65535`, and it is 0 just if `n` is.
structure Folds (a n : Nat) : Prop where
  modEq : a ≡ n [MOD 65535]
  le : a ≤ 65535
  eq_zero : a = 0 ↔ n = 0

lemma Folds.of_le (h : n ≤ 65535) : Folds n n :=
  ⟨rfl, h, Iff.rfl⟩

lemma Folds.add (h : Folds a n) (hb : b ≤ 65535) : Folds (add a b) (n + b) := by
  have hm := h.modEq.add_right b
  have hl := h.le
  have hz := h.eq_zero
  unfold OnesComplement.add
  split
  case isTrue => exact ⟨hm, by omega, by omega⟩
  case isFalse hn =>
    refine ⟨Nat.ModEq.trans ?_ hm, by omega, by omega⟩
    have he : a + b - (2 ^ 16 - 1) + 65535 = a + b := by omega
    exact he ▸ (Nat.ModEq.symm (by simp [Nat.ModEq]))

lemma Folds.foldl (h : Folds a n) (hl : ∀ b ∈ l, b ≤ 65535) : Folds (l.foldl OnesComplement.add a) (n + l.sum) := by
  induction l generalizing a n
  case nil => exact h
  case cons b l ih =>
    rw [List.foldl_cons, List.sum_cons, ← Nat.add_assoc]
    exact ih (h.add (hl b List.mem_cons_self)) fun c hc => hl c (List.mem_cons_of_mem _ hc)

lemma folds_sum (hl : ∀ b ∈ l, b ≤ 65535) : Folds (sum l) l.sum := by
  have h := (Folds.of_le (Nat.zero_le 65535)).foldl hl
  rwa [Nat.zero_add] at h

lemma Folds.eq_of_dvd (h : Folds a n) (hd : 65535 ∣ n) (hn : n ≠ 0) : a = 65535 := by
  have hz : a ≡ 0 [MOD 65535] := h.modEq.trans ((Nat.modEq_zero_iff_dvd).mpr hd)
  have hda : 65535 ∣ a := Nat.modEq_zero_iff_dvd.mp hz
  have hle := h.le
  have hne : a ≠ 0 := fun h0 => hn (h.eq_zero.mp h0)
  exact le_antisymm hle (Nat.le_of_dvd (Nat.pos_of_ne_zero hne) hda)

lemma Folds.dvd_add (h : Folds a n) : 65535 ∣ n + (65535 - a) := by
  have hle := h.le
  have hm : a + (65535 - a) ≡ n + (65535 - a) [MOD 65535] := h.modEq.add_right _
  rw [Nat.add_sub_cancel' hle] at hm
  exact Nat.modEq_zero_iff_dvd.mp (hm.symm.trans (Nat.modEq_zero_iff_dvd.mpr (dvd_refl _)))

lemma Folds.add_ne_zero (h : Folds a n) : n + (65535 - a) ≠ 0 := by
  intro h0
  have hz := h.eq_zero
  omega

lemma words_le {l : List UInt8} : ∀ w ∈ words l, w ≤ 65535 := by
  induction l using words.induct
  case case1 hi lo l ih =>
    have := hi.toNat_lt
    have := lo.toNat_lt
    exact List.forall_mem_cons.mpr ⟨by omega, ih⟩
  case case2 b =>
    have := b.toNat_lt
    exact List.forall_mem_cons.mpr ⟨by omega, fun _ h => absurd h List.not_mem_nil⟩
  case case3 => exact fun _ h => absurd h List.not_mem_nil

end OnesComplement
