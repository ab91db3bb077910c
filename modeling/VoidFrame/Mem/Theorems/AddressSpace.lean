import VoidFrame.Mem.Theorems.Buddy

-- Runs of the allocator with the allocations that are live.

namespace Buddy

open BuddySystem (Tiling Lonely)

variable {w : World} {s t : BuddySystem.State} {start size : UInt64} {act : Action}
  {pool : Node → VMemFreeBlock}

-- The system of the free lists, the blocks and the allocations.
structure World.Sound (start size : UInt64) (w : World) (s : BuddySystem.State) : Prop where
  represents : Represents w.allocator s
  tiling : Tiling minOrder start size (BuddySystem.blocks numOrders s ++ w.allocated)
  lonely : Lonely minOrder numOrders s
  orders : ∀ p ∈ w.live, getOrder p.2 < numOrders

def after (s : BuddySystem.State) : Action → BuddySystem.State
  | .allocate size => (BuddySystem.allocate minOrder numOrders s (getOrder size)).elim s Prod.snd
  | .free address size => BuddySystem.release minOrder numOrders s address (getOrder size)

lemma orders_fit : numOrders + minOrder ≤ 64 := by
  decide

def seed (start size : UInt64) : BuddySystem.State :=
  BuddySystem.fill minOrder numOrders (size.toNat / pageSize.toNat)
    { free := fun _ => [], spare := maxBuddyNodes } start size

namespace World.Sound

lemma nodup (h : w.Sound start size s) (o : Nat) : (s.free o).Nodup := by
  by_cases ho : o < numOrders
  case neg =>
    rw [h.represents.free_eq_nil (Nat.le_of_not_lt ho)]
    exact .nil
  have hd := (List.nodup_append.mp h.tiling.nodup).1
  exact ((List.nodup_flatMap.mp hd).1 o (List.mem_range.mpr ho)).of_map

lemma allocate_cases (h : w.Sound start size s) (n : UInt64) :
    (BuddySystem.firstBlock numOrders s (getOrder n) = none ∧ after s (.allocate n) = s ∧
      Buddy.allocate w.allocator n = .ok (0, w.allocator) ∧ Buddy.exec w (.allocate n) = .ok w) ∨
    ∃ b node a, BuddySystem.firstBlock numOrders s (getOrder n) = some b ∧
      firstBlock w.allocator (getOrder n) = some (b.order, node) ∧ w.allocator.base node = b.base ∧
      BuddySystem.allocate minOrder numOrders s (getOrder n) = some (b.base, after s (.allocate n)) ∧
      Buddy.allocate w.allocator n = .ok (b.base, a) ∧ Represents a (after s (.allocate n)) ∧
      Buddy.exec w (.allocate n) =
        .ok { allocator := a, live := if b.base = 0 then w.live else (b.base, n) :: w.live } := by
  unfold Buddy.exec after BuddySystem.allocate
  dsimp only
  obtain ⟨hf, ha⟩ | ⟨b, node, a, hf, hf', hb, ha, hr⟩ := h.represents.allocate n
  · rw [hf, ha]
    exact .inl ⟨rfl, rfl, rfl, rfl⟩
  · rw [hf, ha]
    exact .inr ⟨b, node, a, rfl, hf', hb, rfl, rfl, hr, rfl⟩

lemma allocate (h : w.Sound start size s) (n : UInt64) :
    ∃ w', Buddy.exec w (.allocate n) = .ok w' ∧ w'.Sound start size (after s (.allocate n)) := by
  obtain ⟨_, hs, _, he⟩ | ⟨b, node, a, hb, _, _, ha, _, hrep, he⟩ := h.allocate_cases n
  · exact ⟨w, he, hs.symm ▸ h⟩
  · have ht := h.tiling.allocate ha
    have hl := h.lonely.allocate orders_fit ha
    obtain ⟨hle, hlt, _⟩ := BuddySystem.firstBlock_eq_some hb
    refine ⟨_, he, ?_⟩
    by_cases hx : b.base = 0
    case pos =>
      rw [if_pos hx]
      exact ⟨hrep, ht.sublist (List.Sublist.append_left (List.sublist_cons_self ..) _), hl, h.orders⟩
    rw [if_neg hx]
    exact ⟨hrep, ht, hl, List.forall_mem_cons.mpr ⟨hle.trans_lt hlt, h.orders⟩⟩

lemma free (h : w.Sound start size s) (hx : (x, n) ∈ w.live) :
    ∃ w', exec w (.free x n) = .ok w' ∧ w'.Sound start size (after s (.free x n)) := by
  have ho : getOrder n < numOrders := h.orders _ hx
  obtain ⟨a, ha, hr⟩ := h.represents.free h.nodup ho x
  unfold exec after
  dsimp only
  rw [ha]
  refine ⟨_, rfl, hr, ?_, h.lonely.release orders_fit ho, fun p hp => h.orders p (List.mem_of_mem_erase hp)⟩
  have hp : w.allocated.Perm (⟨x, getOrder n⟩ :: (w.live.erase (x, n)).map fun p => ⟨p.1, getOrder p.2⟩) :=
    (List.perm_cons_erase hx).map _
  exact ((h.tiling.perm (hp.append_left _)).perm List.perm_middle).release ho

lemma exec (h : w.Sound start size s) (ha : Admits w act) :
    ∃ w', exec w act = .ok w' ∧ w'.Sound start size (after s act) := by
  cases act
  case allocate n => exact h.allocate n
  case free x n => exact h.free ha

lemma create (pool : Node → VMemFreeBlock) (start size : UInt64) :
    World.Sound start size { allocator := create pool start size } (seed start size) := by
  refine ⟨create_represents pool start size, ?_, ?_, fun p hp => absurd hp List.not_mem_nil⟩
  · have hf : BuddySystem.Filled minOrder numOrders start size { free := fun _ => [], spare := maxBuddyNodes }
        start size := by
      have hnil : BuddySystem.blocks numOrders { free := fun _ => [], spare := maxBuddyNodes } = [] := by decide
      refine ⟨hnil ▸ ⟨by simp, .nil⟩, by simp [hnil], ?_⟩
      simp [BuddySystem.offset]
    rw [World.allocated, List.map_nil, List.append_nil]
    exact hf.fill orders_fit (by decide)
  · exact Lonely.fill (fun o _ x hx => absurd hx List.not_mem_nil) orders_fit fun k _ hk => absurd rfl hk

end World.Sound

def Created (pool : Node → VMemFreeBlock) (start size : UInt64) (w : World) : Prop :=
  w = { allocator := create pool start size }

lemma Run.sound (h : Machine.Run (Created pool start size) exec Admits w) : ∃ s, w.Sound start size s := by
  refine h.invariant (P := fun w => ∃ s, w.Sound start size s)
    (fun w hw => ⟨_, hw ▸ World.Sound.create pool start size⟩) fun {w act w'} hs ha he => ?_
  obtain ⟨s, hs⟩ := hs
  obtain ⟨w'', he', hs'⟩ := hs.exec ha
  rw [he] at he'
  cases he'
  exact ⟨_, hs'⟩

-- Free blocks and allocations do not overlap, and the lists, the chains and the pool agree.
theorem Run.blocks_disjoint (h : Machine.Run (Created pool start size) exec Admits w) :
    Tiling minOrder start size (w.free ++ w.allocated) ∧ (∃ L H P, Shape w.allocator L H P) ∧
    ∀ act, Admits w act → ∃ w', exec w act = .ok w' := by
  obtain ⟨s, hs⟩ := Run.sound h
  refine ⟨hs.represents.free_eq ▸ hs.tiling, ?_, fun act ha => ?_⟩
  · obtain ⟨L, H, P, hshape, _⟩ := hs.represents
    exact ⟨L, H, P, hshape⟩
  · obtain ⟨w', he, _⟩ := hs.exec ha
    exact ⟨w', he⟩

-- A run in a region of five pages that starts at an odd page.
theorem Run.blocks_disjoint_small : ∃ w : World, w.live = [(0x3000, 0x2000), (0x5000, 0x1000)] ∧
    w.free = [⟨0x1000, 0⟩, ⟨0x2000, 0⟩] ∧
    Tiling minOrder 0x1000 0x5000 (w.free ++ w.allocated) ∧ (∃ L H P, Shape w.allocator L H P) ∧
    ∀ act, Admits w act → ∃ w', exec w act = .ok w' := by
  have hi : Machine.Run (Created (fun _ => {}) 0x1000 0x5000) exec Admits _ := .init rfl
  obtain ⟨w, hr, hl, hf⟩ := hi.exists_of_all
    (l := [.allocate 0x1000, .allocate 0x1000, .allocate 0x2000, .free 0x1000 0x1000])
    (P := fun w => w.live = [(0x3000, 0x2000), (0x5000, 0x1000)] ∧ w.free = [⟨0x1000, 0⟩, ⟨0x2000, 0⟩])
    (by decide +kernel)
  exact ⟨w, hl, hf, Run.blocks_disjoint hr⟩

lemma base_ne_zero (h : Tiling minOrder lowStart lowSize (⟨x, o⟩ :: l)) : x ≠ 0 := by
  rintro rfl
  have hin := h.inside _ (.head l)
  have hoff : BuddySystem.offset lowStart 0 = 2 ^ 64 - 0x1000 := by decide
  have hsize : lowSize.toNat = 0x7FFFFFFFF000 := by decide
  simp only [hoff, hsize] at hin
  omega

lemma World.Sound.total_allocate (h : w.Sound lowStart lowSize s)
    (hs : Spares w (.allocate n)) (he : Buddy.exec w (.allocate n) = .ok w') :
    BuddySystem.total minOrder (BuddySystem.blocks numOrders (after s (.allocate n)) ++ w'.allocated) =
      BuddySystem.total minOrder (BuddySystem.blocks numOrders s ++ w.allocated) := by
  obtain ⟨_, hsame, _, he'⟩ | ⟨b, node, a, hb, hf, _, ha, _, _, he'⟩ := h.allocate_cases n
  · rw [he] at he'
    cases he'
    rw [hsame]
  · have hx := base_ne_zero ((h.tiling.allocate ha).perm List.perm_middle)
    have hspare : b.order - getOrder n ≤ s.spare + 1 := h.represents.spareNodes_eq ▸ hs _ hf
    have ht := BuddySystem.total_allocate hb hspare ha
    rw [he, if_neg hx] at he'
    cases he'
    rw [World.allocated, List.map_cons, BuddySystem.total_append, BuddySystem.total_append,
      BuddySystem.total_cons, ← ht, World.allocated]
    dsimp only
    omega

lemma World.Sound.total_free (h : w.Sound lowStart lowSize s)
    (hx : (x, n) ∈ w.live) (hs : Spares w (.free x n)) (he : Buddy.exec w (.free x n) = .ok w') :
    BuddySystem.total minOrder (BuddySystem.blocks numOrders (after s (.free x n)) ++ w'.allocated) =
      BuddySystem.total minOrder (BuddySystem.blocks numOrders s ++ w.allocated) := by
  have ho : getOrder n < numOrders := h.orders _ hx
  obtain ⟨a, ha, hr⟩ := h.represents.free h.nodup ho x
  unfold Buddy.exec at he
  dsimp only at he
  rw [ha] at he
  cases he
  unfold Spares at hs
  dsimp only at hs
  rw [h.represents.spareNodes_eq, h.represents.freeBlocks_eq] at hs
  have ht := BuddySystem.total_release (m := minOrder) ho hs
  have hp : w.allocated.Perm (⟨x, getOrder n⟩ :: (w.live.erase (x, n)).map fun p => ⟨p.1, getOrder p.2⟩) :=
    (List.perm_cons_erase hx).map _
  rw [BuddySystem.total_append, BuddySystem.total_append, BuddySystem.total_perm hp, BuddySystem.total_cons, after,
    ht, World.allocated]
  dsimp only
  omega

-- The address space is conserved as long as there are nodes.
theorem Run.space_conserved
    (h : Machine.Run (Created pool lowStart lowSize) exec (fun w act => Admits w act ∧ Spares w act) w) :
    BuddySystem.total minOrder (w.free ++ w.allocated) =
      BuddySystem.total minOrder (World.free { allocator := create pool lowStart lowSize }) := by
  have hs₀ := World.Sound.create pool lowStart lowSize
  generalize seed lowStart lowSize = s₀ at hs₀
  rw [hs₀.represents.free_eq]
  have hinv : ∃ s, w.Sound lowStart lowSize s ∧
      BuddySystem.total minOrder (BuddySystem.blocks numOrders s ++ w.allocated) =
        BuddySystem.total minOrder (BuddySystem.blocks numOrders s₀) := by
    refine h.invariant (P := fun w => ∃ s, w.Sound lowStart lowSize s ∧
      BuddySystem.total minOrder (BuddySystem.blocks numOrders s ++ w.allocated) =
        BuddySystem.total minOrder (BuddySystem.blocks numOrders s₀))
      (fun w hw => ?_) fun {w act w'} hw ha he => ?_
    · refine ⟨s₀, hw ▸ hs₀, ?_⟩
      rw [hw, World.allocated, List.map_nil, List.append_nil]
    · obtain ⟨s, hs, ht⟩ := hw
      obtain ⟨w'', he', hs'⟩ := hs.exec ha.1
      rw [he] at he'
      cases he'
      refine ⟨_, hs', ht ▸ ?_⟩
      cases act
      case allocate n => exact hs.total_allocate ha.2 he
      case free x n => exact hs.total_free ha.1 ha.2 he
  obtain ⟨s, hs, ht⟩ := hinv
  rw [hs.represents.free_eq]
  exact ht

-- An allocation of the largest order needs no node.
lemma World.Sound.spares_largest (h : w.Sound start size s) (ho : getOrder n + 1 = numOrders) :
    Spares w (.allocate n) := by
  intro p hp
  have hp : firstBlock w.allocator (getOrder n) = some p := hp
  obtain ⟨_, hf⟩ | ⟨b, node, _, hb, hf, _⟩ := h.represents.first (getOrder n)
  · rw [hf] at hp
    cases hp
  · rw [hf] at hp
    cases hp
    have hlt := (BuddySystem.firstBlock_eq_some hb).2.1
    dsimp only
    omega

lemma World.Sound.conserved_largest (h : Machine.Run (Created pool lowStart lowSize) Buddy.exec
    (fun w act => Admits w act ∧ Spares w act) w) (hs : w.Sound lowStart lowSize s)
    (ho : getOrder n + 1 = numOrders) : ∃ w', Buddy.exec w (.allocate n) = .ok w' ∧
      Machine.Run (Created pool lowStart lowSize) Buddy.exec (fun w act => Admits w act ∧ Spares w act) w' := by
  obtain ⟨w', he, _⟩ := hs.allocate n
  exact ⟨w', he, .step (a := .allocate n) h ⟨trivial, hs.spares_largest ho⟩ he⟩

theorem Run.space_conserved_largest : ∃ w', exec { allocator := create (fun _ => {}) lowStart lowSize }
      (.allocate 0x40000000) = .ok w' ∧
    BuddySystem.total minOrder (w'.free ++ w'.allocated) =
      BuddySystem.total minOrder (World.free { allocator := create (fun _ => {}) lowStart lowSize }) := by
  have hs := World.Sound.create (fun _ => {}) lowStart lowSize
  obtain ⟨w', he, hr⟩ := hs.conserved_largest (n := 0x40000000) (.init rfl) (by decide)
  exact ⟨w', he, Run.space_conserved hr⟩

-- A large block is cut with a single node for its halves.
lemma World.Sound.loses_space (h : w.Sound lowStart lowSize s) (hl : w.live = [])
    (hs : s.spare = 0) (hn : getOrder n = 0) (hb : BuddySystem.firstBlock numOrders s 0 = some ⟨x, 0 + d + 2⟩) :
    ∃ w', Buddy.exec w (.allocate n) = .ok w' ∧ BuddySystem.total minOrder (w'.free ++ w'.allocated) <
      BuddySystem.total minOrder w.free := by
  obtain ⟨w', he, hw'⟩ := h.allocate n
  refine ⟨w', he, ?_⟩
  rw [h.represents.free_eq, hw'.represents.free_eq]
  obtain ⟨hnone, _⟩ | ⟨b, node, a, _, _, _, ha, _, _, he'⟩ := h.allocate_cases n
  · rw [hn, hb] at hnone
    cases hnone
  · rw [he] at he'
    cases he'
    rw [hn] at ha
    have ht := BuddySystem.total_allocate_of_exhausted hs hb ha
    have hx := base_ne_zero ((h.tiling.allocate (hn.symm ▸ ha)).perm List.perm_middle)
    have hlen : BuddySystem.Block.length minOrder ⟨b.base, 0⟩ < BuddySystem.Block.length minOrder ⟨b.base, 0 + d + 1⟩ :=
      Nat.pow_lt_pow_right (by decide) (by dsimp only; omega)
    rw [if_neg hx, World.allocated, hl, List.map_singleton, hn, BuddySystem.total_append, BuddySystem.total_cons, ← ht]
    simp only [BuddySystem.total, List.map_nil, List.sum_nil]
    omega

lemma seed_exhausted (start size : UInt64) (h : maxBuddyNodes * 2 ^ (18 + minOrder) ≤ size.toNat) :
    (seed start size).spare = 0 ∧ ∃ x, BuddySystem.firstBlock numOrders (seed start size) 0 = some ⟨x, 0 + 16 + 2⟩ := by
  have hfuel : maxBuddyNodes ≤ size.toNat / pageSize.toNat := by
    rw [Nat.le_div_iff_mul_le (by decide)]
    exact (Nat.mul_le_mul_left _ (by decide)).trans h
  obtain ⟨h1, h2, h3⟩ := BuddySystem.fill_exhausts (m := minOrder) (n := 18) (k := maxBuddyNodes) (x := start)
    (s := { free := fun _ => [], spare := maxBuddyNodes }) (by decide) rfl hfuel h (fun _ _ => rfl) (by decide)
  obtain ⟨x, l, hl⟩ := List.exists_cons_of_ne_nil h3
  have hx := congrArg List.head? hl
  exact ⟨h1, x, BuddySystem.firstBlock_of_empty h2 hx (by decide)⟩

theorem space_lost : ∃ w', exec { allocator := create (fun _ => {}) lowStart lowSize } (.allocate 0x1000) = .ok w' ∧
    BuddySystem.total minOrder (w'.free ++ w'.allocated) <
      BuddySystem.total minOrder (World.free { allocator := create (fun _ => {}) lowStart lowSize }) := by
  obtain ⟨hspare, x, hx⟩ := seed_exhausted lowStart lowSize (by decide)
  exact (World.Sound.create (fun _ => {}) lowStart lowSize).loses_space (d := 16) rfl hspare (by decide) hx

-- The first block from an order on has a base that is clear in the bits at which it is cut.
def Clear (a : Allocator) (order : Nat) : Prop :=
  ∀ p ∈ firstBlock a order, ∀ j < p.1, order ≤ j → (a.nodePool p.2).base.toNat.testBit (j + minOrder) = false

instance decidableClear (a : Allocator) (order : Nat) : Decidable (Clear a order) := by
  unfold Clear
  infer_instance

-- Freeing a block right after its allocation restores the free lists.
theorem Run.free_undoes_allocate {n x : UInt64} {a : Allocator}
    (h : Machine.Run (Created pool start size) exec Admits w) (hs : Spares w (.allocate n))
    (ha : allocate w.allocator n = .ok (x, a)) (hx : x ≠ 0) (hc : Clear w.allocator (getOrder n)) :
    ∃ a', free a x n = .ok a' ∧ ∀ o, freeBlocks a' o = freeBlocks w.allocator o := by
  obtain ⟨s, hw⟩ := Run.sound h
  obtain ⟨w', he, hw'⟩ := hw.allocate n
  obtain ⟨_, _, ha', _⟩ | ⟨b, node, a₁, hb, hf, hbase, hal, ha', hrep, _⟩ := hw.allocate_cases n
  · rw [ha] at ha'
    cases ha'
    exact absurd rfl hx
  · rw [ha] at ha'
    cases ha'
    obtain ⟨hle, hlt, _⟩ := BuddySystem.firstBlock_eq_some hb
    have hspare : b.order - getOrder n ≤ s.spare + 1 := hw.represents.spareNodes_eq ▸ hs _ hf
    have hrel := BuddySystem.release_allocate orders_fit hw.lonely hb hspare
      (fun j h₁ h₂ => hbase ▸ hc _ hf j h₂ h₁) hal
    obtain ⟨a', hfree, hr⟩ := hrep.free hw'.nodup (hle.trans_lt hlt) b.base
    rw [hrel] at hr
    exact ⟨a', hfree, fun o => by rw [hr.freeBlocks_eq, hw.represents.freeBlocks_eq]⟩

-- A region that is aligned to its size.
theorem Run.free_undoes_allocate_aligned : ∃ r, allocate (create (fun _ => {}) 0x10000 0x4000) 0x1000 = .ok r ∧
    r.1 = 0x10000 ∧ ∃ a', free r.2 r.1 0x1000 = .ok a' ∧
      ∀ o, freeBlocks a' o = freeBlocks (create (fun _ => {}) 0x10000 0x4000) o := by
  obtain ⟨r, hr, hx⟩ := Except.exists_of_any (x := allocate (create (fun _ => {}) 0x10000 0x4000) 0x1000)
    (P := fun r => r.1 = 0x10000) (by decide +kernel)
  refine ⟨r, hr, hx, Run.free_undoes_allocate (w := { allocator := create (fun _ => {}) 0x10000 0x4000 })
    (.init (rfl : Created (fun _ => {}) 0x10000 0x4000 _)) ?_ hr (by rw [hx]; decide) ?_⟩
  · decide +kernel
  · decide +kernel

-- In a region that starts at an odd page, the halves of a block are not joined again.
theorem free_leaves_halves : ∃ r, allocate (create (fun _ => {}) lowStart 0x2000) 0x1000 = .ok r ∧
    r.1 = 0x1000 ∧ Spares { allocator := create (fun _ => {}) lowStart 0x2000 } (.allocate 0x1000) ∧
    freeBlocks (create (fun _ => {}) lowStart 0x2000) 0 = [] ∧
    freeBlocks (create (fun _ => {}) lowStart 0x2000) 1 = [0x1000] ∧
    ((free r.2 r.1 0x1000).toOption.any fun a' =>
      freeBlocks a' 0 = [0x1000, 0x2000] ∧ freeBlocks a' 1 = []) = true :=
  Except.exists_of_any (by decide +kernel)

end Buddy
