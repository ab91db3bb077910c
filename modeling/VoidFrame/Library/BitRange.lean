import VoidFrame.Library.Bitmap

-- The bits of a bitmap that are set, counted and changed by whole words.

namespace Bitmap

variable {w : Nat} [NeZero w] {m : Bitmap w} {i n : Nat}

section

def popcount (x : BitVec w) : Nat :=
  Nat.count (fun i => x.getLsbD i = true) w

def count (m : Bitmap w) (n : Nat) : Nat :=
  Nat.count (fun i => m.get i = true) n

omit [NeZero w] in
lemma count_eq_card (m : Bitmap w) (n : Nat) :
    m.count n = ((Finset.range n).filter (m.get · = true)).card :=
  Nat.count_eq_card_filter_range ..

lemma count_set (hi : i < n) (h : m.get i = false) : (m.set i).count n = m.count n + 1 := by
  have hs : (Finset.range n).filter ((m.set i).get · = true) =
      insert i ((Finset.range n).filter (m.get · = true)) := by
    ext j
    by_cases hj : j = i
    · simp [hj, hi]
    · simp [hj]
  rw [count_eq_card, count_eq_card, hs, Finset.card_insert_of_notMem (by simp [h])]

omit [NeZero w] in
lemma count_clear (hi : i < n) (h : m.get i = true) : (m.clear i).count n + 1 = m.count n := by
  have hs : (Finset.range n).filter ((m.clear i).get · = true) =
      ((Finset.range n).filter (m.get · = true)).erase i := by
    ext j
    by_cases hj : j = i
    · simp [hj]
    · simp [hj]
  rw [count_eq_card, count_eq_card, hs]
  exact Finset.card_erase_add_one (by simp [hi, h])

-- Bits that are clear do not count.
omit [NeZero w] in
lemma count_eq_of_le (hk : n ≤ k) (h : ∀ i, n ≤ i → m.get i = false) : m.count k = m.count n := by
  rw [count_eq_card, count_eq_card]
  congr 1
  ext j
  simp only [Finset.mem_filter, Finset.mem_range]
  refine ⟨fun ⟨_, hj⟩ => ⟨?_, hj⟩, fun ⟨hj, hg⟩ => ⟨hj.trans_le hk, hg⟩⟩
  by_contra hn
  rw [h j (Nat.le_of_not_lt hn)] at hj
  cases hj

lemma count_words (m : Bitmap w) (n : Nat) : m.count (n * w) = ∑ k ∈ Finset.range n, popcount (m k) := by
  induction n
  case zero => simp [count]
  case succ n ih =>
    rw [Finset.sum_range_succ, ← ih, Nat.succ_mul, count, Nat.count_add]
    congr 1
    rw [popcount, Nat.count_eq_card_filter_range, Nat.count_eq_card_filter_range]
    congr 1
    refine Finset.filter_congr fun j hj => ?_
    rw [get_word (Finset.mem_range.mp hj)]

lemma count_update (hk : k < n) :
    Bitmap.count (Function.update m k x) (n * w) + popcount (m k) = m.count (n * w) + popcount x := by
  have hmem : k ∈ Finset.range n := Finset.mem_range.mpr hk
  have he : ∑ j ∈ (Finset.range n).erase k, popcount (Function.update m k x j) =
      ∑ j ∈ (Finset.range n).erase k, popcount (m j) :=
    Finset.sum_congr rfl fun j hj => by rw [Function.update_of_ne (Finset.ne_of_mem_erase hj)]
  rw [count_words, count_words, ← Finset.add_sum_erase _ _ hmem,
    ← Finset.add_sum_erase _ (fun j => popcount (m j)) hmem, Function.update_self, he]
  omega

end

section

omit [NeZero w]

variable {x mask : BitVec w} {a : Nat}

lemma getLsbD_allOnes_shiftLeft : (BitVec.allOnes w <<< a).getLsbD i = decide (a ≤ i ∧ i < w) := by
  rw [BitVec.getLsbD_shiftLeft, BitVec.getLsbD_allOnes]
  grind

lemma getLsbD_allOnes_shiftRight (ha : a < w) :
    (BitVec.allOnes w >>> (w - 1 - a)).getLsbD i = decide (i ≤ a) := by
  rw [BitVec.getLsbD_ushiftRight, BitVec.getLsbD_allOnes]
  grind

lemma and_eq_zero : x &&& mask = 0 ↔ ∀ i < w, mask.getLsbD i = true → x.getLsbD i = false := by
  constructor
  · intro h i _ hm
    have hb := congrArg (BitVec.getLsbD · i) h
    simpa [hm] using hb
  · intro h
    apply BitVec.eq_of_getLsbD_eq
    intro i hi
    by_cases hm : mask.getLsbD i = true
    · simp [h i hi hm]
    · simp [hm]

end

end Bitmap
