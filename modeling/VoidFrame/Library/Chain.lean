import VoidFrame.Library.Linked

-- Singly linked lists, and doubly linked lists that grow at the front.

section

variable {N : Type*}

-- The nodes that the links lead through, from a first node up to an end.
def Chain (next : N → Option N) : Option N → List N → Option N → Prop
  | p, [],     e => p = e
  | p, n :: l, e => p = some n ∧ Chain next (next n) l e

namespace Chain

variable {next next' : N → Option N} {p q e : Option N} {l xs ys : List N} {n m : N}

lemma congr (h : Chain next p l e) (hn : ∀ n ∈ l, next' n = next n) : Chain next' p l e := by
  induction l generalizing p
  case nil => exact h
  case cons n l ih =>
    refine ⟨h.1, ?_⟩
    rw [hn n (.head l)]
    exact ih h.2 fun m hm => hn m (.tail n hm)

lemma append_iff : Chain next p (xs ++ ys) e ↔ ∃ q, Chain next p xs q ∧ Chain next q ys e := by
  induction xs generalizing p
  case nil => simp [Chain]
  case cons n l ih =>
    simp only [List.cons_append, Chain, ih, and_assoc]
    exact exists_and_left.symm

lemma push (h : Chain next p l e) (hn : ∀ m ∈ l, next' m = next m) (hp : next' n = p) :
    Chain next' (some n) (n :: l) e :=
  ⟨rfl, hp.symm ▸ h.congr hn⟩

lemma unlink_head (h : Chain next p (n :: l) e) : Chain next (next n) l e :=
  h.2

lemma unlink (h : Chain next p (xs ++ m :: n :: ys) e) (hm : next' m = next n)
    (hn : ∀ x ∈ xs ++ ys, next' x = next x) : Chain next' p (xs ++ m :: ys) e := by
  obtain ⟨q, hx, hq, _, hy⟩ := append_iff.mp h
  refine append_iff.mpr ⟨q, hx.congr fun x hx => hn x (List.mem_append_left _ hx), hq, ?_⟩
  rw [hm]
  exact hy.congr fun x hx => hn x (List.mem_append_right _ hx)

lemma finRange {N : Nat} {next : Fin N → Option (Fin N)}
    (h : ∀ i, next i = if h : i.val + 1 < N then some ⟨i + 1, h⟩ else none) (i : Nat) :
    Chain next (if h : i < N then some ⟨i, h⟩ else none) ((List.finRange N).drop i) none := by
  generalize hc : N - i = c
  induction c generalizing i
  case zero =>
    rw [dif_neg (by omega), List.drop_of_length_le (by rw [List.length_finRange]; omega)]
    rfl
  case succ c ih =>
    have hi : i < N := by omega
    rw [dif_pos hi, List.drop_eq_getElem_cons (by rw [List.length_finRange]; exact hi), List.getElem_finRange]
    refine ⟨rfl, ?_⟩
    rw [h]
    exact ih (i + 1) (by omega)

lemma exists_all {N : Nat} {next : Fin N → Option (Fin N)} (hN : 0 < N)
    (h : ∀ i, next i = if h : i.val + 1 < N then some ⟨i + 1, h⟩ else none) :
    ∃ l, Chain next (some ⟨0, hN⟩) l none ∧ l.Nodup ∧ (∀ n, n ∈ l) ∧ l.length = N := by
  refine ⟨List.finRange N, ?_, List.nodup_finRange N, List.mem_finRange, List.length_finRange⟩
  have hc := finRange h 0
  rwa [dif_pos hN, List.drop_zero] at hc

end Chain

end

namespace Linked

variable {N : Type*} [DecidableEq N] {s s' : N → Links N} {q : Ends N} {l : List N} {n m : N}

omit [DecidableEq N] in
lemma walk_of_chain (h : Chain (fun n => (s n).next) p l none)
    (hf : l.length ≤ fuel) : walk s fuel p = l := by
  induction l generalizing p fuel
  case nil =>
    cases h
    cases fuel <;> rfl
  case cons n l ih =>
    obtain ⟨fuel, rfl⟩ := Nat.exists_eq_succ_of_ne_zero (Nat.ne_zero_of_lt hf)
    rw [h.1, walk, ih h.2 (Nat.le_of_succ_le_succ hf)]

-- A node is put in front of a list.
def prepend (s : N → Links N) (head : Option N) (n : N) : N → Links N :=
  setPrev (Function.update s n { next := head }) head (some n)

lemma Holds.prepend_of_notMem (h : Holds s q l) (hm : m ∉ l) (hn : m ≠ n) : prepend s q.head n m = s m := by
  refine (setPrev_of_ne fun he => hm ?_).trans (Function.update_of_ne hn _ _)
  exact List.mem_of_mem_head? (h.head ▸ he)

lemma Holds.prepend (h : Holds s q l) (hn : n ∉ l) :
    Holds (prepend s q.head n) ⟨some n, (n :: l).getLast?⟩ (n :: l) := by
  have hs : Segment (Function.update s n { next := q.head }) none l none :=
    h.segment.congr fun m hm => Function.update_of_ne (ne_of_mem_of_not_mem hm hn) _ _
  have hne : q.head ≠ some n := fun he => hn (List.mem_of_mem_head? (h.head ▸ he))
  have he : Linked.prepend s q.head n n = { next := q.head } :=
    (setPrev_of_ne hne).trans (Function.update_self ..)
  refine ⟨List.nodup_cons.mpr ⟨hn, h.nodup⟩, rfl, rfl, ?_⟩
  rw [Segment, he, Option.or_none]
  refine ⟨rfl, h.head, ?_⟩
  have := hs.setPrev h.nodup (some n)
  rwa [← h.head] at this

lemma Rows.prepend {I : Type*} [DecidableEq I] {q : I → Ends N} {L : I → List N} {i : I} (h : Rows s q L)
    (hn : ∀ j, n ∉ L j) : Rows (prepend s (q i).head n)
      (Function.update q i ⟨some n, (n :: L i).getLast?⟩) (Function.update L i (n :: L i)) := by
  refine h.update ((h.holds i).prepend (hn i)) fun {j m} hj hm => ?_
  have hm' := h.notMem_of_ne hm hj.symm
  have hne : m ≠ n := ne_of_mem_of_not_mem hm (hn j)
  exact ⟨by simp [hm', hne], (h.holds i).prepend_of_notMem hm' hne⟩

end Linked
