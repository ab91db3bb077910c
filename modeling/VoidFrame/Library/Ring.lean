import Mathlib

-- Circular buffers: `n` cells, of which `count` are in use from the cell `head` on.

namespace Ring

variable {n : Nat} [NeZero n] {α : Type*} {f : Fin n → α} {head : Fin n} {count i j : Nat} {a : α}

def index (head : Fin n) (i : Nat) : Fin n :=
  Fin.ofNat n (head + i)

lemma index_zero : index head 0 = head :=
  Fin.ext (Nat.mod_eq_of_lt head.isLt)

lemma index_add (i j : Nat) : index (index head i) j = index head (i + j) := by
  refine Fin.ext ?_
  simp [index, Nat.add_assoc]

lemma index_one : index head 1 = head + 1 := by
  refine Fin.ext ?_
  simp [index, Fin.val_add]

lemma index_succ : index (head + 1) i = index head (i + 1) := by
  rw [← index_one, index_add, Nat.add_comm]

lemma index_add_one : index head i + 1 = index head (i + 1) := by
  rw [← index_one, index_add]

lemma index_inj (hi : i < n) (hj : j < n) (h : index head i = index head j) : i = j := by
  have h : (head + i) % n = (head + j) % n := congrArg Fin.val h
  have hh := head.isLt
  have h := Nat.ModEq.add_left_cancel' (head : Nat) h
  rwa [Nat.ModEq, Nat.mod_eq_of_lt hi, Nat.mod_eq_of_lt hj] at h

def toList (f : Fin n → α) (head : Fin n) (count : Nat) : List α :=
  (List.range count).map fun i => f (index head i)

@[simp]
lemma length_toList : (toList f head count).length = count := by
  simp [toList]

lemma getElem_toList (h : i < (toList f head count).length) :
    (toList f head count)[i] = f (index head i) := by
  simp [toList]

lemma mem_toList : a ∈ toList f head count ↔ ∃ i, i < count ∧ f (index head i) = a := by
  simp [toList]

lemma toList_cons : toList f head (count + 1) = f head :: toList f (head + 1) count := by
  rw [toList, List.range_succ_eq_map]
  simp [toList, index_zero, index_succ, Function.comp_def]

lemma toList_concat : toList f head (count + 1) = toList f head count ++ [f (index head count)] := by
  simp [toList, List.range_succ]

lemma toList_update_of_le (hc : count ≤ i) (hi : i < n) :
    toList (Function.update f (index head i) a) head count = toList f head count := by
  refine List.map_congr_left fun j hj => ?_
  have hj : j < count := List.mem_range.mp hj
  have hne : index head j ≠ index head i := fun h => by
    have := index_inj (by omega) hi h
    omega
  rw [Function.update_of_ne hne]

lemma toList_push (hc : count < n) :
    toList (Function.update f (index head count) a) head (count + 1) = toList f head count ++ [a] := by
  rw [toList_concat, toList_update_of_le le_rfl hc, Function.update_self]

lemma toList_set (hi : i < count) (hc : count ≤ n) :
    toList (Function.update f (index head i) a) head count = (toList f head count).set i a := by
  refine List.ext_getElem (by simp) fun j hj _ => ?_
  rw [length_toList] at hj
  rw [getElem_toList, List.getElem_set]
  by_cases hij : i = j
  case pos => simp [hij]
  have hne : index head j ≠ index head i := fun h => hij (index_inj (by omega) (by omega) h).symm
  rw [if_neg hij, Function.update_of_ne hne, getElem_toList]

-- The cells before position `i` move on by one, over the one at `i`.
def remove (f : Fin n → α) (head : Fin n) : Nat → Fin n → α
  | 0 => f
  | i + 1 => remove (Function.update f (index head (i + 1)) (f (index head i))) head i

lemma toList_remove (hi : i < count) (hc : count ≤ n) :
    toList (remove f head i) (head + 1) (count - 1) = (toList f head count).eraseIdx i := by
  induction i generalizing f
  case zero =>
    have he : count = count - 1 + 1 := by omega
    rw [remove, he, toList_cons, List.eraseIdx_cons_zero, Nat.add_sub_cancel]
  case succ i ih =>
    rw [remove, ih (by omega), toList_set hi hc]
    refine List.ext_getElem (by simp [List.length_eraseIdx, hi]; omega) fun j hj _ => ?_
    simp only [List.getElem_eraseIdx, List.getElem_set, getElem_toList]
    -- the cell at `i` has been copied to `i + 1`, which becomes position `i`
    grind

end Ring
