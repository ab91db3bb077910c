import Mathlib

-- Loops over the elements of a list.

namespace Loop

variable {ε σ α : Type} {f : σ → α → Except ε σ} {g : σ → α → σ} {l : List α} {s : σ}

lemma foldlM_eq (hf : ∀ s, ∀ a ∈ l, f s a = .ok (g s a)) : l.foldlM f s = .ok (l.foldl g s) := by
  induction l generalizing s
  case nil => rfl
  case cons a l ih =>
    rw [List.foldlM_cons, hf s a List.mem_cons_self]
    exact ih fun s b hb => hf s b (List.mem_cons_of_mem _ hb)

lemma exists_of_foldlM_eq (h : l.foldlM f s = .ok r) (ha : a ∈ l) : ∃ s s', f s a = .ok s' := by
  induction l generalizing s
  case nil => cases ha
  case cons b l ih =>
    rw [List.foldlM_cons] at h
    rcases hb : f s b with e | s'
    · rw [hb] at h
      cases h
    rw [hb] at h
    cases ha
    case head => exact ⟨s, s', hb⟩
    case tail ha => exact ih h ha

variable {P : σ → α → Prop} {a : α}

lemma foldl_keep (hk : ∀ s b, P s a → P (g s b) a) (hs : P s a) : P (l.foldl g s) a := by
  induction l generalizing s
  case nil => exact hs
  case cons b l ih => exact ih (hk s b hs)

lemma foldl_all (hr : ∀ s a, P (g s a) a) (hk : ∀ s a b, P s a → P (g s b) a) (ha : a ∈ l) :
    P (l.foldl g s) a := by
  induction l generalizing s
  case nil => cases ha
  case cons b l ih =>
    cases ha
    case head => exact foldl_keep (P := P) (s := g s a) (fun s b => hk s a b) (hr s a)
    case tail ha => exact ih ha

-- A search that keeps the best of the positions it has seen.
lemma exists_best {f : σ → Nat → σ} {g : Nat → σ} {R : Nat → Nat → Prop} {n : Nat} (hr : ∀ i, R i i)
    (ht : ∀ i j k, R i j → R j k → R i k) (h0 : f s 0 = g 0)
    (hf : ∀ i n, i < n → f (g i) n = g n ∧ R n i ∨ f (g i) n = g i ∧ R i n) (hn : 0 < n) :
    ∃ i, i < n ∧ (List.range n).foldl f s = g i ∧ ∀ j, j < n → R i j := by
  induction n, hn using Nat.le_induction
  case base => exact ⟨0, Nat.zero_lt_one, h0, fun j hj => Nat.lt_one_iff.mp hj ▸ hr 0⟩
  case succ n hn ih =>
    obtain ⟨i, hi, he, hb⟩ := ih
    rw [List.range_succ, List.foldl_append, he, List.foldl_cons, List.foldl_nil]
    obtain ⟨hf, hni⟩ | ⟨hf, hin⟩ := hf i n hi
    · refine ⟨n, Nat.lt_succ_self n, hf, fun j hj => ?_⟩
      rcases Nat.lt_succ_iff_lt_or_eq.mp hj with hj | rfl
      · exact ht n i j hni (hb j hj)
      · exact hr j
    · refine ⟨i, Nat.lt_succ_of_lt hi, hf, fun j hj => ?_⟩
      rcases Nat.lt_succ_iff_lt_or_eq.mp hj with hj | rfl
      · exact hb j hj
      · exact hin

end Loop
