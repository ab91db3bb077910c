import VoidFrame.Library.BuddySystem

-- What a buddy system conserves, and when freeing a block undoes its allocation.

open Function (update_eq_self update_idem update_of_ne update_self)

namespace BuddySystem

variable {m n o k : Nat} {x y : UInt64}

section

variable {s t : State} {d : Nat}

def total (m : Nat) (l : List Block) : Nat :=
  (l.map (Block.length m)).sum

@[simp]
lemma total_cons : total m (b :: l) = b.length m + total m l :=
  rfl

@[simp]
lemma total_append : total m (l ++ l') = total m l + total m l' := by
  simp [total]

lemma total_perm (h : l.Perm l') : total m l = total m l' :=
  (h.map _).sum_eq

lemma total_split (hd : d ≤ s.spare) (ho : o + d ≤ n) :
    Block.length m ⟨x, o⟩ + total m (blocks n (split m n x o d s)) =
      Block.length m ⟨x, o + d⟩ + total m (blocks n s) := by
  induction d generalizing s
  case zero => rfl
  case succ d ih =>
    have hadd := total_perm (m := m) (blocks_add (x := x + bytes m (o + d)) (s := s) (o := o + d) (n := n)
      (by omega) (by omega))
    have hspare : d ≤ (add n s (x + bytes m (o + d)) (o + d)).spare := by
      rw [add, if_pos ⟨by omega, by omega⟩]
      exact Nat.le_sub_one_of_lt hd
    rw [split, ih hspare (by omega), hadd, total_cons, ← Nat.add_assoc o d 1]
    simp only [Block.length, two_pow_succ]
    omega

lemma spare_le_merge : s.spare ≤ (merge m d s x o).1.spare := by
  induction d generalizing s x o
  case zero => exact le_rfl
  case succ d ih =>
    rw [merge]
    split
    case isFalse => exact le_rfl
    case isTrue => exact (Nat.le_succ _).trans (ih (s := remove s (x ^^^ bytes m o) o))

lemma order_merge_le : (merge m d s x o).2.2 ≤ o + d := by
  induction d generalizing s x o
  case zero => exact le_rfl
  case succ d ih =>
    rw [merge]
    split
    case isFalse => exact Nat.le_add_right ..
    case isTrue => exact ih.trans (by omega)

lemma total_merge (ho : o + d < n) :
    Block.length m ⟨(merge m d s x o).2.1, (merge m d s x o).2.2⟩ + total m (blocks n (merge m d s x o).1) =
      Block.length m ⟨x, o⟩ + total m (blocks n s) := by
  induction d generalizing s x o
  case zero => rfl
  case succ d ih =>
    rw [merge]
    split
    case isFalse => rfl
    case isTrue hy =>
      rw [ih (by omega), total_perm (blocks_remove (by omega) hy), total_cons]
      simp only [Block.length, two_pow_succ]
      omega

-- A block is recorded, or takes the place of a block that it is joined with.
lemma total_release (ho : o < n) (hs : 0 < s.spare ∨ o + 1 < n ∧ x ^^^ bytes m o ∈ s.free o) :
    total m (blocks n (release m n s x o)) = Block.length m ⟨x, o⟩ + total m (blocks n s) := by
  have hlt := order_merge_le (m := m) (s := s) (x := x) (o := o) (d := n - 1 - o)
  have hspare : 0 < (merge m (n - 1 - o) s x o).1.spare := by
    obtain hs | ⟨hn, hy⟩ := hs
    · exact hs.trans_le spare_le_merge
    · rw [show n - 1 - o = n - 2 - o + 1 by omega, merge, if_pos hy]
      exact (Nat.succ_pos _).trans_le (spare_le_merge (s := remove s (x ^^^ bytes m o) o))
  have hin : (merge m (n - 1 - o) s x o).2.2 < n := by omega
  rw [← total_merge (d := n - 1 - o) (by omega), release]
  exact total_perm (blocks_add hin hspare)

lemma total_allocate (hb : firstBlock n s o = some b) (hs : b.order - o ≤ s.spare + 1)
    (ha : allocate m n s o = some (x, t)) :
    Block.length m ⟨x, o⟩ + total m (blocks n t) = total m (blocks n s) := by
  obtain ⟨hle, hlt, hhead, _⟩ := firstBlock_eq_some hb
  rw [allocate, hb] at ha
  cases ha
  have hd : o + (b.order - o) = b.order := by omega
  rw [total_split (s := remove s b.base b.order) hs (by omega), hd,
    total_perm (blocks_remove hlt (List.mem_of_mem_head? hhead)), total_cons]

end

section

variable {s t : State} {d : Nat}

lemma remove_add (ho : o < n) (hs : 0 < s.spare) : remove (add n s x o) x o = s := by
  rw [add, if_pos ⟨ho, hs⟩]
  cases s
  simp only [remove, update_self, List.erase_cons_head, update_idem,
    update_eq_self, State.mk.injEq, true_and]
  exact Nat.sub_add_cancel hs

lemma add_remove (ho : o < n) (hx : (s.free o).head? = some x) : add n (remove s x o) x o = s := by
  rw [add, if_pos ⟨ho, Nat.succ_pos _⟩]
  cases s
  simp only [remove, update_self, update_idem, State.mk.injEq, Nat.add_sub_cancel, and_true]
  obtain ⟨l, hl⟩ := List.head?_eq_some_iff.mp hx
  dsimp only at hl
  rw [hl, List.erase_cons_head, ← hl, update_eq_self]

lemma split_succ : split m n x o (d + 1) s = add n (split m n x (o + 1) d s) (x + bytes m o) o := by
  induction d generalizing s
  case zero => rfl
  case succ d ih =>
    rw [split, ih]
    congr 1
    rw [split, show o + 1 + d = o + (d + 1) by omega]

lemma spare_split (hd : d ≤ s.spare) (ho : o + d ≤ n) : (split m n x o d s).spare + d = s.spare := by
  induction d generalizing s
  case zero => rfl
  case succ d ih =>
    have ha : (add n s (x + bytes m (o + d)) (o + d)).spare = s.spare - 1 := by
      rw [add, if_pos ⟨by omega, by omega⟩]
    have hi := ih (s := add n s (x + bytes m (o + d)) (o + d)) (by omega) (by omega)
    rw [split]
    omega

-- The halves are joined again, the smallest first.
lemma merge_split (hn : n + m ≤ 64) (hd : d ≤ s.spare) (ho : o + d < n)
    (hx : ∀ j, o ≤ j → j < o + d → x.toNat.testBit (j + m) = false) :
    merge m (e + d) (split m n x o d s) x o = merge m e s x (o + d) := by
  induction d generalizing o
  case zero => rfl
  case succ d ih =>
    obtain ⟨he, hlt⟩ := xor_of_clear (by omega) (hx o le_rfl (by omega))
    have hspare := spare_split (m := m) (n := n) (x := x) (o := o + 1) (d := d) (s := s) (by omega) (by omega)
    have hmem : x + bytes m o ∈ (split m n x o (d + 1) s).free o := by
      rw [split_succ, add, if_pos ⟨by omega, by omega⟩]
      simp
    have hpos := Nat.two_pow_pos (o + m)
    rw [← Nat.add_assoc, merge, he, if_pos hmem, if_neg (by rw [UInt64.lt_iff_toNat_lt]; omega), split_succ,
      remove_add (by omega) (by omega), ih (o := o + 1) (by omega) (by omega) fun j h1 h2 => hx j (by omega) (by omega),
      show o + 1 + d = o + (d + 1) by omega]

-- No block is free together with its buddy.
def Lonely (m n : Nat) (s : State) : Prop :=
  ∀ o, o + 1 < n → ∀ x ∈ s.free o, x ^^^ bytes m o ∉ s.free o

namespace Lonely

lemma mono (h : Lonely m n s) (hs : ∀ o, t.free o ⊆ s.free o) : Lonely m n t :=
  fun o ho x hx hy => h o ho x (hs o hx) (hs o hy)

lemma remove (h : Lonely m n s) : Lonely m n (remove s x o) := by
  refine h.mono fun k => ?_
  by_cases hk : k = o
  case neg => simp [BuddySystem.remove, hk]
  subst hk
  simp only [BuddySystem.remove, update_self]
  exact List.erase_subset

lemma add (h : Lonely m n s) (hn : n + m ≤ 64) (hx : o + 1 < n → x ^^^ bytes m o ∉ s.free o) :
    Lonely m n (add n s x o) := by
  unfold BuddySystem.add
  split
  case isFalse => exact h
  intro k hk y hy hb
  by_cases he : k = o
  case neg =>
    simp only [update_of_ne he] at hy hb
    exact h k hk y hy hb
  subst he
  simp only [update_self, List.mem_cons] at hy hb
  obtain rfl | hy := hy
  · obtain hb | hb := hb
    · exact xor_ne (by omega) hb
    · exact hx hk hb
  · obtain hb | hb := hb
    · subst hb
      rw [xor_xor] at hx
      exact hx hk hy
    · exact h k hk y hy hb

lemma split (h : Lonely m n s) (hn : n + m ≤ 64) (he : ∀ k, o ≤ k → k < o + d → s.free k = []) :
    Lonely m n (split m n x o d s) := by
  induction d generalizing s
  case zero => exact h
  case succ d ih =>
    refine ih (h.add hn fun _ => ?_) fun k h1 h2 => ?_
    · rw [he (o + d) (by omega) (by omega)]
      exact List.not_mem_nil
    · unfold BuddySystem.add
      split
      case isFalse => exact he k h1 (by omega)
      rw [← he k h1 (by omega)]
      exact update_of_ne (by omega) _ _

lemma allocate (h : Lonely m n s) (hn : n + m ≤ 64) (ha : allocate m n s o = some (x, t)) :
    Lonely m n t := by
  obtain ⟨b, hb, he⟩ := Option.map_eq_some_iff.mp ha
  obtain ⟨hle, hlt, hhead, hempty⟩ := firstBlock_eq_some hb
  cases he
  refine h.remove.split hn fun k h1 h2 => ?_
  rw [← hempty k h1 (by omega)]
  exact update_of_ne (by omega) _ _

lemma merge (h : Lonely m n s) (hd : o + d + 1 = n) : Lonely m n (merge m d s x o).1 ∧
    ((merge m d s x o).2.2 + 1 < n → (merge m d s x o).2.1 ^^^ bytes m (merge m d s x o).2.2 ∉
      (merge m d s x o).1.free (merge m d s x o).2.2) := by
  induction d generalizing s x o
  case zero =>
    refine ⟨h, fun hlt => ?_⟩
    change o + 1 < n at hlt
    omega
  case succ d ih =>
    rw [BuddySystem.merge]
    split
    case isFalse hy => exact ⟨h, fun _ => hy⟩
    case isTrue => exact ih h.remove (by omega)

lemma release (h : Lonely m n s) (hn : n + m ≤ 64) (ho : o < n) : Lonely m n (release m n s x o) := by
  obtain ⟨hm, hb⟩ := h.merge (x := x) (o := o) (d := n - 1 - o) (by omega)
  exact hm.add hn hb

lemma fill (h : Lonely m n s) (hn : n + m ≤ 64)
    (hs : ∀ k, k + 1 < n → s.free k ≠ [] → remaining < bytes m k) : Lonely m n (fill m n fuel s x remaining) := by
  induction fuel generalizing s x remaining
  case zero => exact h
  case succ fuel ih =>
    rw [BuddySystem.fill]
    split
    case isFalse => exact h
    case isTrue hle =>
      obtain ⟨hfit, hnext⟩ := fit_spec (o := n - 1) hle
      generalize BuddySystem.fit m remaining (n - 1) = o at hfit hnext ⊢
      have hempty : o + 1 < n → s.free o = [] := by
        intro ho
        by_contra hne
        exact absurd hfit (UInt64.not_le.mpr (hs o ho hne))
      refine ih (h.add hn fun ho => ?_) fun k hk hne => ?_
      · rw [hempty ho]
        exact List.not_mem_nil
      · have hsub := UInt64.toNat_sub_of_le _ _ hfit
        rw [UInt64.lt_iff_toNat_lt, hsub]
        by_cases he : k = o
        · have hlt := UInt64.lt_iff_toNat_lt.mp (hnext (by omega))
          rw [toNat_bytes (by omega), two_pow_succ] at hlt
          rw [he, toNat_bytes (by omega)]
          omega
        · have hne' : s.free k ≠ [] := by
            unfold BuddySystem.add at hne
            split at hne
            · exact fun hk' => hne ((update_of_ne he _ _).trans hk')
            · exact hne
          have := UInt64.lt_iff_toNat_lt.mp (hs k hk hne')
          omega

end Lonely

-- Freeing undoes an allocation from a block whose base is clear in the bits that it is cut at.
lemma release_allocate (hn : n + m ≤ 64) (hl : Lonely m n s) (hb : firstBlock n s o = some b)
    (hs : b.order - o ≤ s.spare + 1) (hx : ∀ j, o ≤ j → j < b.order → b.base.toNat.testBit (j + m) = false)
    (ha : allocate m n s o = some (x, t)) : release m n t x o = s := by
  obtain ⟨hle, hlt, hhead, _⟩ := firstBlock_eq_some hb
  rw [allocate, hb] at ha
  cases ha
  have hd : o + (b.order - o) = b.order := by omega
  have hm := merge_split (s := remove s b.base b.order) (x := b.base) (o := o) (d := b.order - o)
    (e := n - 1 - b.order) hn hs (by omega) (by rwa [hd])
  rw [show n - 1 - b.order + (b.order - o) = n - 1 - o by omega, hd] at hm
  rw [release, hm]
  -- the block as a whole has no free buddy
  have hstop : merge m (n - 1 - b.order) (remove s b.base b.order) b.base b.order =
      (remove s b.base b.order, b.base, b.order) := by
    rcases he : n - 1 - b.order with _ | e
    · rfl
    rw [merge, if_neg]
    intro hmem
    simp only [remove, update_self] at hmem
    exact hl b.order (by omega) b.base (List.mem_of_mem_head? hhead) (List.mem_of_mem_erase hmem)
  rw [hstop]
  exact add_remove hlt hhead

end

section

variable {s : State} {d : Nat} {remaining : UInt64}

lemma add_of_exhausted (h : s.spare = 0) : add n s x o = s :=
  if_neg fun hc => hc.2.ne' h

lemma split_of_exhausted (h : s.spare = 0) : split m n x o d s = s := by
  induction d
  case zero => rfl
  case succ d ih => rw [split, add_of_exhausted h, ih]

lemma fill_of_exhausted (h : s.spare = 0) : fill m n fuel s x remaining = s := by
  induction fuel generalizing x remaining
  case zero => rfl
  case succ fuel ih =>
    rw [fill]
    split
    case isFalse => rfl
    dsimp only
    rw [add_of_exhausted h]
    exact ih

-- The largest blocks use up all that can be recorded.
lemma fill_exhausts (hn : n + 1 + m < 64) (hspare : s.spare = k) (hfuel : k ≤ fuel)
    (hr : k * 2 ^ (n + m) ≤ remaining.toNat) (hs : ∀ j, j < n → s.free j = [])
    (hne : k = 0 → s.free n ≠ []) :
    (fill m (n + 1) fuel s x remaining).spare = 0 ∧ (∀ j, j < n → (fill m (n + 1) fuel s x remaining).free j = []) ∧
      (fill m (n + 1) fuel s x remaining).free n ≠ [] := by
  induction k generalizing fuel s x remaining
  case zero =>
    rw [fill_of_exhausted hspare]
    exact ⟨hspare, hs, hne rfl⟩
  case succ k ih =>
    obtain ⟨fuel, rfl⟩ := Nat.exists_eq_succ_of_ne_zero (Nat.ne_zero_of_lt hfuel)
    rw [Nat.succ_mul] at hr
    have hbytes : bytes m n ≤ remaining := by
      rw [UInt64.le_iff_toNat_le, toNat_bytes (by omega)]
      omega
    have hzero : bytes m 0 ≤ remaining := by
      refine UInt64.le_trans (UInt64.le_iff_toNat_le.mpr ?_) hbytes
      rw [toNat_bytes (by omega), toNat_bytes (by omega)]
      exact Nat.pow_le_pow_right (by decide) (by omega)
    have hfit : fit m remaining (n + 1 - 1) = n := by
      rw [Nat.add_sub_cancel]
      cases n
      case zero => rfl
      case succ n => exact if_neg (UInt64.not_lt.mpr hbytes)
    have hadd : add (n + 1) s x n = { free := Function.update s.free n (x :: s.free n), spare := s.spare - 1 } :=
      if_pos ⟨n.lt_succ_self, by omega⟩
    rw [fill, if_pos hzero]
    dsimp only
    rw [hfit]
    refine ih (by rw [hadd]; dsimp only; omega) (by omega) ?_ (fun j hj => ?_) fun _ => ?_
    · rw [UInt64.toNat_sub_of_le _ _ hbytes, toNat_bytes (by omega)]
      omega
    · rw [hadd]
      exact (update_of_ne hj.ne _ _).trans (hs j hj)
    · rw [hadd]
      simp

lemma firstBlock_of_empty (hs : ∀ j, j < n → s.free j = []) (hx : (s.free n).head? = some x) (ho : o ≤ n) :
    firstBlock (n + 1) s o = some ⟨x, n⟩ := by
  rcases hf : firstBlock (n + 1) s o with _ | b
  · have hnone := List.findSome?_eq_none_iff.mp hf n (List.mem_range'_1.mpr ⟨ho, by omega⟩)
    rw [hx] at hnone
    cases hnone
  obtain ⟨_, hlt, hhead, _⟩ := firstBlock_eq_some hf
  have hb : b.order = n := by
    by_contra hne
    rw [hs b.order (by omega)] at hhead
    cases hhead
  rw [hb, hx] at hhead
  cases b
  cases hb
  cases hhead
  rfl

-- With a single record left, only the largest half of a block is kept.
lemma total_allocate_of_exhausted (hs : s.spare = 0) (hb : firstBlock n s o = some ⟨x, o + d + 2⟩)
    (ha : allocate m n s o = some (y, t)) :
    Block.length m ⟨y, o + d + 1⟩ + total m (blocks n t) = total m (blocks n s) := by
  obtain ⟨_, hlt, hhead, _⟩ := firstBlock_eq_some hb
  change o + d + 2 < n at hlt
  rw [allocate, hb] at ha
  cases ha
  have hd : o + d + 2 - o = d + 1 + 1 := by omega
  have hadd : (add n (remove s x (o + d + 2)) (x + bytes m (o + (d + 1))) (o + (d + 1))).spare = 0 := by
    rw [add, if_pos ⟨by omega, Nat.succ_pos _⟩]
    exact hs
  dsimp only
  rw [hd, split, split_of_exhausted hadd, total_perm (blocks_add (by omega) (Nat.succ_pos _)),
    total_perm (blocks_remove hlt (List.mem_of_mem_head? hhead)), total_cons, total_cons]
  simp only [Block.length, show o + d + 2 = o + d + 1 + 1 by omega, show o + (d + 1) = o + d + 1 by omega,
    two_pow_succ (o := o + d + 1)]
  omega

end

end BuddySystem
