import Mathlib

-- A bitmap that is stored in words of `w` bits, the lowest bit of each word first.
abbrev Bitmap (w : Nat) := Nat → BitVec w

namespace Bitmap

variable {w : Nat}

def get (m : Bitmap w) (i : Nat) : Bool :=
  (m (i / w)).getLsbD (i % w)

def set (m : Bitmap w) (i : Nat) : Bitmap w :=
  Function.update m (i / w) (m (i / w) ||| BitVec.twoPow w (i % w))

def clear (m : Bitmap w) (i : Nat) : Bitmap w :=
  Function.update m (i / w) (m (i / w) &&& ~~~BitVec.twoPow w (i % w))

-- The lowest clear bit of the first word among `n` that is not all ones.
def findZero (m : Bitmap w) (n : Nat) : Option Nat :=
  (List.range n).findSome? fun word =>
    let available := ~~~m word
    if available ≠ 0 then some (word * w + available.ctz.toNat) else none

lemma div_mod_inj (hd : i / w = j / w) (hm : i % w = j % w) : i = j := by
  rw [← Nat.div_add_mod i w, ← Nat.div_add_mod j w, hd, hm]

lemma ctz_not_lt {x : BitVec w} (hx : ~~~x ≠ 0) :
    (~~~x).ctz.toNat < w ∧ x.getLsbD (~~~x).ctz.toNat = false := by
  have h := BitVec.getLsbD_true_ctz_of_ne_zero hx
  simpa using h

lemma getLsbD_or_twoPow (hi : i < w) :
    (x ||| BitVec.twoPow w i).getLsbD j = (decide (j = i) || x.getLsbD j) := by
  by_cases h : j = i
  · simp [h, hi]
  · simp [h, Ne.symm h]

lemma getLsbD_and_not_twoPow :
    (x &&& ~~~BitVec.twoPow w i).getLsbD j = (!decide (j = i) && x.getLsbD j) := by
  by_cases hj : j < w
  · by_cases h : i = j <;> simp [h, hj, eq_comm]
  · simp [BitVec.getLsbD_of_ge _ _ (Nat.le_of_not_lt hj)]

variable [NeZero w] {m : Bitmap w} {i j n : Nat}

lemma mod_lt (i : Nat) : i % w < w :=
  Nat.mod_lt i (Nat.pos_of_neZero w)

@[simp]
lemma get_set : (m.set i).get j = (decide (j = i) || m.get j) := by
  unfold get set
  by_cases hd : j / w = i / w
  case pos =>
    have hm : j % w = i % w ↔ j = i := ⟨div_mod_inj hd, fun h => h ▸ rfl⟩
    simp only [hd, Function.update_self, getLsbD_or_twoPow (mod_lt i), hm]
  have hj : j ≠ i := fun h => hd (h ▸ rfl)
  simp [hd, hj]

omit [NeZero w] in
@[simp]
lemma get_clear : (m.clear i).get j = (!decide (j = i) && m.get j) := by
  unfold get clear
  by_cases hd : j / w = i / w
  case pos =>
    have hm : j % w = i % w ↔ j = i := ⟨div_mod_inj hd, fun h => h ▸ rfl⟩
    simp only [hd, Function.update_self, getLsbD_and_not_twoPow, hm]
  have hj : j ≠ i := fun h => hd (h ▸ rfl)
  simp [hd, hj]

lemma get_word (h : bit < w) : m.get (word * w + bit) = (m word).getLsbD bit := by
  have hd : (word * w + bit) / w = word := by
    rw [Nat.mul_comm, Nat.mul_add_div (Nat.pos_of_neZero w), Nat.div_eq_of_lt h, Nat.add_zero]
  have hm : (word * w + bit) % w = bit := by
    rw [Nat.mul_comm, Nat.mul_add_mod, Nat.mod_eq_of_lt h]
  rw [get, hd, hm]

lemma findZero_eq_some (h : m.findZero n = some i) : i < n * w ∧ m.get i = false := by
  have ⟨word, hw, hi⟩ := List.exists_of_findSome?_eq_some h
  dsimp only at hi
  split at hi <;> cases hi
  case isTrue hx =>
    have ⟨hlt, hg⟩ := ctz_not_lt hx
    refine ⟨?_, get_word hlt ▸ hg⟩
    calc word * w + (~~~m word).ctz.toNat
      _ < (word + 1) * w := by rw [Nat.succ_mul]; omega
      _ ≤ n * w := Nat.mul_le_mul_right w (List.mem_range.mp hw)

lemma findZero_eq_none (h : m.findZero n = none) (hi : i < n * w) : m.get i = true := by
  have hw : i / w < n := Nat.div_lt_of_lt_mul (Nat.mul_comm n w ▸ hi)
  have h := List.findSome?_eq_none_iff.mp h (i / w) (List.mem_range.mpr hw)
  have hx : ~~~m (i / w) = 0 := by simpa using h
  have hb := congrArg (BitVec.getLsbD · (i % w)) hx
  simpa [get, mod_lt] using hb

end Bitmap
