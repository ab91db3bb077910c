import Mathlib

-- Doubly linked lists that run through the nodes of a store.

open Function (update_of_ne update_self)

namespace Linked

structure Links (N : Type*) where
  next : Option N := none
  prev : Option N := none

@[ext]
structure Ends (N : Type*) where
  head : Option N := none
  tail : Option N := none

section

variable {N : Type*}

-- A part of a list: its first node comes after `p`, and its last one before `e`.
def Segment (s : N → Links N) : Option N → List N → Option N → Prop
  | _, [],     _ => True
  | p, n :: l, e => (s n).prev = p ∧ (s n).next = l.head?.or e ∧ Segment s (some n) l e

-- The list between two ends.
structure Holds (s : N → Links N) (q : Ends N) (l : List N) : Prop where
  nodup : l.Nodup
  head : q.head = l.head?
  tail : q.tail = l.getLast?
  segment : Segment s none l none

def walk (s : N → Links N) : Nat → Option N → List N
  | fuel + 1, some n => n :: walk s fuel (s n).next
  | _,        _ => []

variable {s s' : N → Links N} {q : Ends N} {p e : Option N} {l xs ys : List N} {n : N}

lemma Segment.walk_eq (h : Segment s p l none) (hf : l.length ≤ fuel) :
    walk s fuel l.head? = l := by
  induction l generalizing p fuel
  case nil => cases fuel <;> rfl
  case cons n l ih =>
    obtain ⟨fuel, rfl⟩ := Nat.exists_eq_succ_of_ne_zero (Nat.ne_zero_of_lt hf)
    rw [List.head?_cons, walk, h.2.1, Option.or_none, ih h.2.2 (Nat.le_of_succ_le_succ hf)]

lemma Segment.congr (h : Segment s p l e) (hs : ∀ n ∈ l, s' n = s n) : Segment s' p l e := by
  induction l generalizing p
  case nil => trivial
  case cons n l ih =>
    have ⟨hp, hn, hl⟩ := h
    rw [← hs n (.head l)] at hp hn
    exact ⟨hp, hn, ih hl fun m hm => hs m (.tail n hm)⟩

lemma segment_append :
    Segment s p (xs ++ ys) e ↔ Segment s p xs (ys.head?.or e) ∧ Segment s (xs.getLast?.or p) ys e := by
  induction xs generalizing p
  case nil => simp [Segment]
  case cons n l ih => simp [Segment, ih, List.getLast?_cons, Option.or_assoc, and_assoc]

lemma segment_singleton : Segment s p [n] e ↔ (s n).prev = p ∧ (s n).next = e := by
  simp [Segment]

lemma Holds.congr (h : Holds s q l) (hs : ∀ n ∈ l, s' n = s n) : Holds s' q l :=
  ⟨h.nodup, h.head, h.tail, h.segment.congr hs⟩

lemma Holds.nil : Holds s {} [] :=
  ⟨.nil, rfl, rfl, trivial⟩

lemma Holds.links (h : Holds s q (xs ++ n :: ys)) : (s n).prev = xs.getLast? ∧ (s n).next = ys.head? := by
  have ⟨_, hs⟩ := segment_append.mp h.segment
  simpa using And.intro hs.1 hs.2.1

end

variable {N : Type*} [DecidableEq N]

def setNext (s : N → Links N) (n : Option N) (m : Option N) : N → Links N :=
  n.elim s fun n => Function.update s n { s n with next := m }

def setPrev (s : N → Links N) (n : Option N) (m : Option N) : N → Links N :=
  n.elim s fun n => Function.update s n { s n with prev := m }

-- A node is taken out of its list. It keeps its own links.
def unlink (s : N → Links N) (q : Ends N) (n : N) : (N → Links N) × Ends N :=
  let q := if (s n).prev.isNone then { q with head := (s n).next } else q
  let s := setNext s (s n).prev (s n).next
  let q := if (s n).next.isNone then { q with tail := (s n).prev } else q
  (setPrev s (s n).next (s n).prev, q)

def append (s : N → Links N) (q : Ends N) (n : N) : (N → Links N) × Ends N :=
  let s := Function.update s n { prev := q.tail }
  (setNext s q.tail (some n), { head := if q.tail.isNone then some n else q.head, tail := some n })

def popFront (s : N → Links N) (q : Ends N) (n : N) : (N → Links N) × Ends N :=
  let head := (s n).next
  (setPrev s head none, { head, tail := if head.isNone then none else q.tail })

variable {s : N → Links N} {q : Ends N} {p e a b : Option N} {l xs ys : List N} {n m : N}

lemma setNext_of_ne (h : a ≠ some n) : setNext s a b n = s n := by
  cases a
  case none => rfl
  case some a => exact update_of_ne (fun he => h (congrArg some he.symm)) _ _

lemma setPrev_of_ne (h : a ≠ some n) : setPrev s a b n = s n := by
  cases a
  case none => rfl
  case some a => exact update_of_ne (fun he => h (congrArg some he.symm)) _ _

lemma setNext_self : setNext s (some n) a n = { s n with next := a } :=
  update_self ..

lemma setPrev_self : setPrev s (some n) a n = { s n with prev := a } :=
  update_self ..

lemma Segment.setNext (h : Segment s p l e) (hl : l.Nodup) (a : Option N) :
    Segment (setNext s l.getLast? a) p l a := by
  rcases l.eq_nil_or_concat' with rfl | ⟨l, n, rfl⟩
  · trivial
  · have ⟨hs, hn⟩ := segment_append.mp h
    have hne (m) (hm : m ∈ l) : some n ≠ some m := by
      rintro ⟨⟩
      exact (List.nodup_append.mp hl).2.2 n hm n (.head _) rfl
    rw [List.getLast?_concat]
    refine segment_append.mpr ⟨hs.congr fun m hm => setNext_of_ne (hne m hm), ?_⟩
    rw [segment_singleton, setNext_self]
    exact ⟨(segment_singleton.mp hn).1, rfl⟩

lemma Segment.setPrev (h : Segment s p l e) (hl : l.Nodup) (a : Option N) :
    Segment (setPrev s l.head? a) a l e := by
  rcases l with _ | ⟨n, l⟩
  · trivial
  have ⟨_, hn, hs⟩ := h
  have hne (m) (hm : m ∈ l) : some n ≠ some m := by
    rintro ⟨⟩
    exact (List.nodup_cons.mp hl).1 hm
  rw [List.head?_cons, Segment, setPrev_self]
  exact ⟨rfl, hn, hs.congr fun m hm => setPrev_of_ne (hne m hm)⟩

lemma Holds.unlink_eq (h : Holds s q (xs ++ n :: ys)) : unlink s q n =
    (Linked.setPrev (Linked.setNext s xs.getLast? ys.head?) ys.head? xs.getLast?,
      ⟨(xs ++ ys).head?, (xs ++ ys).getLast?⟩) := by
  have ⟨hp, hn⟩ := h.links
  have hne : xs.getLast? ≠ some n := fun he =>
    (List.nodup_append.mp h.nodup).2.2 n (List.mem_of_getLast? he) n (.head _) rfl
  unfold Linked.unlink
  simp only [hp, hn, setNext_of_ne hne]
  have hh := h.head
  have ht := h.tail
  refine Prod.ext rfl (Ends.ext ?_ ?_)
  · rcases xs.eq_nil_or_concat' with rfl | ⟨xs, a, rfl⟩ <;> cases ys <;> simp_all
  · rcases xs.eq_nil_or_concat' with rfl | ⟨xs, a, rfl⟩ <;> cases ys <;> simp_all

lemma Holds.unlink_of_notMem (h : Holds s q l) (hn : n ∈ l) (hm : m ∉ l) :
    (unlink s q n).1 m = s m := by
  obtain ⟨xs, ys, rfl⟩ := List.append_of_mem hn
  rw [h.unlink_eq]
  refine (setPrev_of_ne fun he => hm ?_).trans (setNext_of_ne fun he => hm ?_)
  · exact List.mem_append_right _ (.tail _ (List.mem_of_mem_head? he))
  · exact List.mem_append_left _ (List.mem_of_getLast? he)

lemma Holds.unlink (h : Holds s q (xs ++ n :: ys)) :
    Holds (unlink s q n).1 (unlink s q n).2 (xs ++ ys) := by
  have ⟨hx, hy, hxy⟩ := List.nodup_append.mp h.nodup
  have ⟨hs, _, _, hs'⟩ := segment_append.mp h.segment
  have hy := (List.nodup_cons.mp hy).2
  have hxy (a) (ha : a ∈ xs) : a ∉ ys := fun ha' => hxy a ha a (.tail _ ha') rfl
  rw [h.unlink_eq]
  refine ⟨List.nodup_append.mpr ⟨hx, hy, fun a ha b hb hab => hxy a ha (hab ▸ hb)⟩, rfl, rfl, ?_⟩
  refine segment_append.mpr ⟨?_, ?_⟩
  · rw [Option.or_none]
    refine (hs.setNext hx ys.head?).congr fun a ha => setPrev_of_ne fun he => ?_
    exact hxy a ha (List.mem_of_mem_head? he)
  · rw [Option.or_none]
    refine Segment.setPrev (hs'.congr fun a ha => setNext_of_ne fun he => ?_) hy _
    exact hxy a (List.mem_of_getLast? he) ha

lemma append_of_ne (h : q.tail ≠ some m) (hm : m ≠ n) : (append s q n).1 m = s m :=
  (setNext_of_ne h).trans (update_of_ne hm _ _)

lemma Holds.append (h : Holds s q l) (hn : n ∉ l) :
    Holds (append s q n).1 (append s q n).2 (l ++ [n]) := by
  have hs : Segment (Function.update s n { prev := q.tail }) none l none :=
    h.segment.congr fun m hm => update_of_ne (ne_of_mem_of_not_mem hm hn) _ _
  constructor
  case nodup => exact List.nodup_append.mpr ⟨h.nodup, List.nodup_singleton n, by
    rintro a ha b hb rfl
    exact hn ((List.mem_singleton.mp hb).symm ▸ ha)⟩
  case head =>
    have hh := h.head
    have ht := h.tail
    rcases l.eq_nil_or_concat' with rfl | ⟨l, a, rfl⟩ <;> simp_all [Linked.append]
  case tail => simp [Linked.append]
  case segment =>
    refine segment_append.mpr ⟨?_, segment_singleton.mpr ?_⟩
    · change Segment (Linked.setNext _ q.tail (some n)) none l (some n)
      have := hs.setNext h.nodup (some n)
      rwa [← h.tail] at this
    · have hne : q.tail ≠ some n := fun he => hn (List.mem_of_getLast? (h.tail ▸ he))
      have he : (Linked.append s q n).1 n = { prev := q.tail } :=
        (setNext_of_ne hne).trans (update_self ..)
      rw [he, h.tail, Option.or_none]
      exact ⟨rfl, rfl⟩

lemma Holds.append_of_notMem (h : Holds s q l) (hm : m ∉ l) (hn : m ≠ n) :
    (Linked.append s q n).1 m = s m :=
  append_of_ne (fun he => hm (List.mem_of_getLast? (h.tail ▸ he))) hn

lemma Holds.popFront_of_notMem (h : Holds s q (n :: l)) (hm : m ∉ l) :
    (popFront s q n).1 m = s m := by
  have hn : (s n).next = l.head? := h.segment.2.1.trans Option.or_none
  refine setPrev_of_ne fun he => hm (List.mem_of_mem_head? ?_)
  exact hn ▸ he

lemma Holds.popFront (h : Holds s q (n :: l)) : Holds (popFront s q n).1 (popFront s q n).2 l := by
  have hn : (s n).next = l.head? := h.segment.2.1.trans Option.or_none
  have hl := (List.nodup_cons.mp h.nodup).2
  have ht := h.tail
  rw [Linked.popFront, hn]
  refine ⟨hl, rfl, ?_, h.segment.2.2.setPrev hl none⟩
  cases l <;> simp_all

section

variable {I : Type*}

-- Lists that share a store have no nodes in common.
structure Rows (s : N → Links N) (q : I → Ends N) (L : I → List N) : Prop where
  holds : ∀ i, Holds s (q i) (L i)
  disjoint : ∀ {i j n}, n ∈ L i → n ∈ L j → i = j

variable [DecidableEq I] {s' : N → Links N} {q : I → Ends N} {q' : Ends N} {L : I → List N} {i j : I}

omit [DecidableEq N] in
lemma Rows.update (h : Rows s q L) (hl : Holds s' q' l)
    (hm : ∀ {j n}, j ≠ i → n ∈ L j → n ∉ l ∧ s' n = s n) :
    Rows s' (Function.update q i q') (Function.update L i l) := by
  constructor
  case holds =>
    intro j
    by_cases hj : j = i
    case pos =>
      subst hj
      rwa [update_self, update_self]
    rw [update_of_ne hj, update_of_ne hj]
    exact (h.holds j).congr fun n hn => (hm hj hn).2
  case disjoint =>
    intro j k n hj hk
    by_cases hji : j = i <;> by_cases hki : k = i
    · exact hji.trans hki.symm
    · subst hji
      rw [update_self] at hj
      rw [update_of_ne hki] at hk
      exact absurd hj (hm hki hk).1
    · subst hki
      rw [update_self] at hk
      rw [update_of_ne hji] at hj
      exact absurd hk (hm hji hj).1
    · rw [update_of_ne hji] at hj
      rw [update_of_ne hki] at hk
      exact h.disjoint hj hk

omit [DecidableEq N] [DecidableEq I] in
lemma Rows.notMem_of_ne (h : Rows s q L) (hn : n ∈ L i) (hj : j ≠ i) : n ∉ L j :=
  fun hn' => hj (h.disjoint hn' hn)

lemma Rows.unlink (h : Rows s q L) (hi : L i = xs ++ n :: ys) :
    Rows (unlink s (q i) n).1 (Function.update q i (unlink s (q i) n).2)
      (Function.update L i (xs ++ ys)) := by
  have hl := h.holds i
  have hn : n ∈ L i := hi ▸ List.mem_append_right _ (.head _)
  refine h.update (hi ▸ hl).unlink fun {j m} hj hm => ?_
  have hm := h.notMem_of_ne hm hj.symm
  refine ⟨fun hm' => hm ?_, hl.unlink_of_notMem hn hm⟩
  exact hi ▸ List.mem_append.mpr ((List.mem_append.mp hm').imp_right (List.mem_cons_of_mem n))

lemma Rows.append (h : Rows s q L) (hn : ∀ j, n ∉ L j) :
    Rows (append s (q i) n).1 (Function.update q i (append s (q i) n).2)
      (Function.update L i (L i ++ [n])) := by
  refine h.update ((h.holds i).append (hn i)) fun {j m} hj hm => ?_
  have hm' := h.notMem_of_ne hm hj.symm
  have hne : m ≠ n := ne_of_mem_of_not_mem hm (hn j)
  exact ⟨by simp [hm', hne], (h.holds i).append_of_notMem hm' hne⟩

lemma Rows.popFront (h : Rows s q L) (hi : L i = n :: l) :
    Rows (popFront s (q i) n).1 (Function.update q i (popFront s (q i) n).2) (Function.update L i l) := by
  have hl := hi ▸ h.holds i
  refine h.update hl.popFront fun {j m} hj hm => ?_
  have hm := hi ▸ h.notMem_of_ne hm hj.symm
  exact ⟨fun hm' => hm (.tail n hm'), hl.popFront_of_notMem fun hm' => hm (.tail n hm')⟩

omit [DecidableEq N] in
lemma Rows.mem_remove (h : Rows s q L) (hi : L i = xs ++ n :: ys) :
    m ∈ Function.update L i (xs ++ ys) j ↔ m ≠ n ∧ m ∈ L j := by
  have hn : n ∈ L i := hi ▸ List.mem_append_right _ (.head _)
  by_cases hj : j = i
  · have hd := List.nodup_middle.mp (hi ▸ (h.holds i).nodup)
    have hnot : n ∉ xs ++ ys := (List.nodup_cons.mp hd).1
    have hmem : m ∈ L i ↔ m = n ∨ m ∈ xs ++ ys := by
      rw [hi, List.mem_append, List.mem_cons, List.mem_append, or_left_comm]
    rw [hj, update_self, hmem]
    refine ⟨fun hm => ⟨ne_of_mem_of_not_mem hm hnot, .inr hm⟩, fun ⟨hne, hm⟩ => hm.resolve_left hne⟩
  · rw [update_of_ne hj]
    exact ⟨fun hm => ⟨ne_of_mem_of_not_mem hm (h.notMem_of_ne hn hj), hm⟩, And.right⟩

omit [DecidableEq N] in
lemma Rows.exists_mem_remove (h : Rows s q L) (hi : L i = xs ++ n :: ys) :
    (∃ j, m ∈ Function.update L i (xs ++ ys) j) ↔ m ≠ n ∧ ∃ j, m ∈ L j := by
  simp only [h.mem_remove hi, exists_and_left]

omit [DecidableEq N] in
lemma mem_insert : m ∈ Function.update L i (L i ++ [n]) j ↔ m ∈ L j ∨ j = i ∧ m = n := by
  by_cases hj : j = i
  · simp [hj]
  · simp [hj]

omit [DecidableEq N] in
lemma exists_mem_insert :
    (∃ j, m ∈ Function.update L i (L i ++ [n]) j) ↔ m = n ∨ ∃ j, m ∈ L j := by
  simp only [mem_insert, exists_or, exists_eq_left, or_comm]

omit [DecidableEq N] [DecidableEq I] in
lemma Rows.congr (h : Rows s q L) (hs : ∀ {i n}, n ∈ L i → s' n = s n) : Rows s' q L :=
  ⟨fun i => (h.holds i).congr fun _ => hs, h.disjoint⟩

end

end Linked
