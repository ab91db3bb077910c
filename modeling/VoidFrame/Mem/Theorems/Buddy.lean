import VoidFrame.Mem.Theorems.BuddyShape
import VoidFrame.Library.BuddyLaws
import VoidFrame.Library.Returns

-- The allocator as a buddy system.

namespace Buddy

variable {a a' : Allocator} {n k : Node} {x : UInt64} {o : Nat}

def Represents (a : Allocator) (s : BuddySystem.State) : Prop :=
  ∃ L H P, Shape a L H P ∧ (∀ o, s.free o = (L o).map a.base) ∧ s.spare = P.length

section

variable {L H : Nat → List Node} {P xs ys : List Node} {s : BuddySystem.State}

lemma Represents.add (h : Represents a s) (x : UInt64) (o : Nat) :
    Represents (addFreeBlock a x o) (BuddySystem.add numOrders s x o) := by
  obtain ⟨L, H, P, hs, hf, hp⟩ := h
  unfold BuddySystem.add
  by_cases ho : o < numOrders
  case neg =>
    rw [if_neg fun hc => ho hc.1, addFreeBlock, if_pos (Nat.le_of_not_lt ho)]
    exact ⟨L, H, P, hs, hf, hp⟩
  rcases P with _ | ⟨n, P⟩
  · have hnone : a.nodeHead = none := hs.pool
    rw [if_neg fun hc => hc.2.ne' hp, addFreeBlock, if_neg (Nat.not_le_of_lt ho), allocBuddyNode, hnone]
    exact ⟨L, H, [], hs, hf, hp⟩
  have hnot : ∀ j, n ∉ L j := hs.pooled.mp (.head P)
  have hne : a.freeLists o ≠ some n := fun he =>
    hnot o (List.mem_of_mem_head? ((hs.rows.holds o).head ▸ he))
  have ha := addFreeBlock_added (x := x) ho hs.pool.1 hne
  have hbase (j : Nat) : (L j).map (addFreeBlock a x o).base = (L j).map a.base := by
    refine List.map_congr_left fun k hk => ?_
    rw [ha.base, Function.update_of_ne (ne_of_mem_of_not_mem hk (hnot j))]
  rw [if_pos ⟨ho, hp.symm ▸ Nat.succ_pos _⟩]
  refine ⟨_, _, P, hs.add ho ha, fun j => ?_, by simp [hp]⟩
  by_cases hj : j = o
  case neg =>
    dsimp only
    rw [Function.update_of_ne hj, Function.update_of_ne hj, hbase, hf]
  subst hj
  dsimp only
  rw [Function.update_self, Function.update_self, List.map_cons, hbase, hf, ha.base, Function.update_self]

lemma orderToSize_eq : orderToSize o = BuddySystem.bytes minOrder o :=
  rfl

lemma Shape.represents_remove (h : Shape a L H P) (hf : ∀ o, s.free o = (L o).map a.base)
    (hp : s.spare = P.length) (hl : L o = xs ++ n :: ys) (hx : a.base n ∉ xs.map a.base) :
    ∃ a', removeFreeBlock a n o = .ok a' ∧ Represents a' (BuddySystem.remove s (a.base n) o) ∧
      a'.base = a.base := by
  have hn : n ∈ H (hashAddress (a.base n)) :=
    h.hashed.mpr ⟨⟨o, hl ▸ List.mem_append_right _ (.head _)⟩, rfl⟩
  obtain ⟨us, vs, hh⟩ := List.append_of_mem hn
  have hd := h.hdup (hashAddress (a.base n))
  have hc := h.chains (hashAddress (a.base n))
  rw [hh] at hd hc
  have hnot : n ∉ us := fun hu => (List.nodup_cons.mp (List.nodup_middle.mp hd)).1 (List.mem_append_left _ hu)
  obtain ⟨a', ha, hr⟩ := removeFreeBlock_removed (o := o) hc hnot (length_le_maxBuddyNodes hd)
  refine ⟨a', ha, ⟨_, _, _, h.removed hl hh hr, fun j => ?_, by simp [BuddySystem.remove, hp]⟩, hr.base⟩
  rw [hr.base]
  by_cases hj : j = o
  case neg =>
    simp only [BuddySystem.remove, Function.update_of_ne hj]
    exact hf j
  subst hj
  simp only [BuddySystem.remove, Function.update_self]
  rw [hf, hl, List.map_append, List.map_cons, List.erase_append_right _ hx, List.erase_cons_head, List.map_append]

lemma Represents.find (h : Represents a s) (ho : o < numOrders) (hd : (s.free o).Nodup) (x : UInt64) :
    (x ∉ s.free o ∧ findFreeBlock a x o = .ok none) ∨
    (x ∈ s.free o ∧ ∃ n a', findFreeBlock a x o = .ok (some n) ∧ removeFreeBlock a n o = .ok a' ∧
      Represents a' (BuddySystem.remove s x o)) := by
  obtain ⟨L, H, P, hs, hf, hp⟩ := h
  obtain ⟨r, hr, hsome, hnone⟩ := hs.find (x := x) ho
  rcases r with _ | n
  · exact .inl ⟨hf o ▸ hnone rfl, hr⟩
  obtain ⟨hn, rfl⟩ := hsome n rfl
  obtain ⟨xs, ys, hl⟩ := List.append_of_mem hn
  have hmem : a.base n ∈ s.free o := hf o ▸ List.mem_map_of_mem hn
  rw [hf, hl, List.map_append, List.map_cons] at hd
  have hx : a.base n ∉ xs.map a.base := fun hx =>
    (List.nodup_cons.mp (List.nodup_middle.mp hd)).1 (List.mem_append_left _ hx)
  obtain ⟨a', ha, hrep, _⟩ := hs.represents_remove hf hp hl hx
  exact .inr ⟨hmem, n, a', hr, ha, hrep⟩

lemma Represents.first (h : Represents a s) (o : Nat) :
    (BuddySystem.firstBlock numOrders s o = none ∧ firstBlock a o = none) ∨
    ∃ b n a', BuddySystem.firstBlock numOrders s o = some b ∧ firstBlock a o = some (b.order, n) ∧
      removeFreeBlock a n b.order = .ok a' ∧ Represents a' (BuddySystem.remove s b.base b.order) ∧
      a.base n = b.base ∧ a'.base n = b.base := by
  obtain ⟨L, H, P, hs, hf, hp⟩ := h
  have hhead (k : Nat) : (s.free k).head? = (a.freeLists k).map a.base := by
    rw [hf, List.head?_map]
    exact congrArg (Option.map a.base) (hs.rows.holds k).head.symm
  unfold BuddySystem.firstBlock firstBlock
  generalize numOrders - o = c
  induction c generalizing o
  case zero => exact .inl ⟨rfl, rfl⟩
  case succ c ih =>
    rw [List.range'_succ, List.findSome?_cons, List.findSome?_cons, hhead]
    rcases hk : a.freeLists o with _ | n
    · exact ih (o + 1)
    right
    have hl : ∃ ys, L o = [] ++ n :: ys :=
      List.head?_eq_some_iff.mp ((hs.rows.holds o).head.symm.trans hk)
    obtain ⟨ys, hl⟩ := hl
    obtain ⟨a', ha, hrep, hb⟩ := hs.represents_remove hf hp hl List.not_mem_nil
    exact ⟨⟨a.base n, o⟩, n, a', rfl, rfl, ha, hrep, rfl, congrFun hb n⟩

lemma Represents.split (h : Represents a s) (x : UInt64) (o d : Nat) :
    Represents (splitLoop x o d a) (BuddySystem.split minOrder numOrders x o d s) := by
  induction d generalizing a s
  case zero => exact h
  case succ d ih => exact ih (h.add _ _)

lemma Represents.allocate (h : Represents a s) (size : UInt64) :
    (BuddySystem.firstBlock numOrders s (getOrder size) = none ∧ allocate a size = .ok (0, a)) ∨
    ∃ b n a', BuddySystem.firstBlock numOrders s (getOrder size) = some b ∧
      firstBlock a (getOrder size) = some (b.order, n) ∧ a.base n = b.base ∧
      allocate a size = .ok (b.base, a') ∧ Represents a' (BuddySystem.split minOrder numOrders b.base
        (getOrder size) (b.order - getOrder size) (BuddySystem.remove s b.base b.order)) := by
  unfold Buddy.allocate
  dsimp only
  split
  case isTrue ho =>
    refine .inl ⟨?_, rfl⟩
    rw [BuddySystem.firstBlock, Nat.sub_eq_zero_of_le ho]
    rfl
  case isFalse ho =>
    obtain ⟨h1, h2⟩ | ⟨b, n, a', h1, h2, ha, hr, hb, hb'⟩ := h.first (getOrder size)
    · rw [h2]
      exact .inl ⟨h1, rfl⟩
    · have hbase : (a'.nodePool n).base = b.base := hb'
      rw [h2]
      dsimp only
      rw [ha]
      refine .inr ⟨b, n, _, h1, rfl, hb, ?_, hr.split b.base _ _⟩
      change Except.ok ((a'.nodePool n).base, splitLoop (a'.nodePool n).base _ _ a') = _
      rw [hbase]

lemma Represents.merge (h : Represents a s) (hd : ∀ o, (s.free o).Nodup) (ho : o + d < numOrders) :
    ∃ a', mergeLoop d a x o = .ok (a', (BuddySystem.merge minOrder d s x o).2) ∧
      Represents a' (BuddySystem.merge minOrder d s x o).1 := by
  induction d generalizing a s x o
  case zero => exact ⟨a, rfl, h⟩
  case succ d ih =>
    rw [mergeLoop, BuddySystem.merge, ← orderToSize_eq]
    obtain ⟨hy, hf⟩ | ⟨hy, n, a', hf, ha, hr⟩ := h.find (by omega) (hd o) (x ^^^ orderToSize o)
    · rw [hf, if_neg hy]
      exact ⟨a, rfl, h⟩
    · rw [hf, if_pos hy]
      have hd' : ∀ k, ((BuddySystem.remove s (x ^^^ orderToSize o) o).free k).Nodup := by
        intro k
        by_cases hk : k = o
        case neg => simpa [BuddySystem.remove, hk] using hd k
        case pos => simpa [BuddySystem.remove, hk] using (hd o).erase _
      obtain ⟨a'', hm, hrep⟩ := ih (o := o + 1) (x := if x ^^^ orderToSize o < x then x ^^^ orderToSize o else x)
        hr hd' (by omega)
      refine ⟨a'', ?_, hrep⟩
      simp only [bind, Except.bind, ha]
      exact hm

lemma Represents.free (h : Represents a s) (hd : ∀ o, (s.free o).Nodup)
    (ho : getOrder size < numOrders) (x : UInt64) : ∃ a', free a x size = .ok a' ∧
      Represents a' (BuddySystem.release minOrder numOrders s x (getOrder size)) := by
  obtain ⟨a', hm, hr⟩ := h.merge (x := x) (o := getOrder size) (d := numOrders - 1 - getOrder size) hd (by omega)
  unfold Buddy.free
  dsimp only
  rw [if_neg (Nat.not_le_of_lt ho), hm]
  exact ⟨_, rfl, hr.add _ _⟩

lemma fitOrder_eq (remaining : UInt64) (o : Nat) : fitOrder remaining o = BuddySystem.fit minOrder remaining o := by
  induction o
  case zero => rfl
  case succ o ih => rw [fitOrder, BuddySystem.fit, ih, orderToSize_eq]

lemma Represents.fill (h : Represents a s) :
    Represents (createLoop fuel a x remaining) (BuddySystem.fill minOrder numOrders fuel s x remaining) := by
  induction fuel generalizing a s x remaining
  case zero => exact h
  case succ fuel ih =>
    rw [createLoop, BuddySystem.fill, fitOrder_eq]
    have hp : pageSize = BuddySystem.bytes minOrder 0 := by decide
    rw [hp]
    split
    case isFalse => exact h
    case isTrue => exact ih (h.add _ _)

lemma initBuddyNodePool_next (pool : Node → VMemFreeBlock) (n : Node) :
    (initBuddyNodePool pool).next n = if h : n.val + 1 < maxBuddyNodes then some ⟨n + 1, h⟩ else none := by
  unfold Allocator.next initBuddyNodePool
  rfl

lemma initBuddyNodePool_represents (pool : Node → VMemFreeBlock) :
    Represents (initBuddyNodePool pool) { free := fun _ => [], spare := maxBuddyNodes } := by
  obtain ⟨P, hc, hd, hall, hlen⟩ := Chain.exists_all (by decide) (initBuddyNodePool_next pool)
  refine ⟨fun _ => [], fun _ => [], P, ?_, fun _ => rfl, hlen.symm⟩
  constructor
  case rows => exact ⟨fun _ => .nil, fun h => absurd h List.not_mem_nil⟩
  case sized => exact fun h => absurd h List.not_mem_nil
  case chains => exact fun _ => rfl
  case hdup => exact fun _ => .nil
  case hashed => simp
  case pool => exact hc
  case pdup => exact hd
  case pooled => exact fun {n} => iff_of_true (hall n) fun _ => List.not_mem_nil

lemma create_represents (pool : Node → VMemFreeBlock) (start size : UInt64) :
    Represents (create pool start size) (BuddySystem.fill minOrder numOrders (size.toNat / pageSize.toNat)
      { free := fun _ => [], spare := maxBuddyNodes } start size) :=
  (initBuddyNodePool_represents pool).fill

lemma Represents.freeBlocks_eq (h : Represents a s) (o : Nat) : freeBlocks a o = s.free o := by
  obtain ⟨L, H, P, hs, hf, _⟩ := h
  have hh := hs.rows.holds o
  have hw := hh.segment.walk_eq (length_le_maxBuddyNodes hh.nodup)
  have hhead : a.freeLists o = (L o).head? := hh.head
  rw [hf, freeBlocks, hhead]
  exact congrArg (List.map a.base) hw

lemma Represents.free_eq_nil (h : Represents a s) (ho : numOrders ≤ o) : s.free o = [] := by
  obtain ⟨L, H, P, hs, hf, _⟩ := h
  rw [hf, List.map_eq_nil_iff]
  exact List.eq_nil_iff_forall_not_mem.mpr fun n hn => absurd (hs.sized hn).1 (Nat.not_lt_of_le ho)

lemma Represents.spareNodes_eq (h : Represents a s) : spareNodes a = s.spare := by
  obtain ⟨L, H, P, hs, _, hp⟩ := h
  rw [spareNodes, hp, Linked.walk_of_chain hs.pool (length_le_maxBuddyNodes hs.pdup)]

lemma Represents.free_eq {w : World} (h : Represents w.allocator s) :
    w.free = BuddySystem.blocks numOrders s := by
  simp only [World.free, BuddySystem.blocks, h.freeBlocks_eq]

end

end Buddy
