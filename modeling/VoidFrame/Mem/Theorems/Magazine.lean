import VoidFrame.Mem.Theorems.Stock

-- What the operations do to magazines and blocks.

namespace MagazineHeap

open Function (update update_eq_self update_idem update_of_ne update_self)

variable {s t : State} {live : List (Nat × Nat)} {G : Ground} {place place' : MagazineId → Option Place}
  {hand hand' : Option (MagazineId × SizeClass)} {m n : MagazineId} {k : SizeClass} {f : Fill} {cpu : Cpu}

-- A magazine that holds blocks of a size class is in its depot, active, or in the hand of an operation.
def At (place : MagazineId → Option Place) (hand : Option (MagazineId × SizeClass)) (m : MagazineId)
    (k : SizeClass) : Prop :=
  (∃ f, place m = some (.depot k f)) ∨ (∃ cpu, place m = some (.active cpu k)) ∨ hand = some (m, k)

def Fill.of (count : Nat) : Fill :=
  if magazineCapacity ≤ count then .full else if 0 < count then .partlyFull else .empty

lemma Fill.of_eq_empty : Fill.of count = .empty ↔ count = 0 := by
  unfold Fill.of
  split
  case isTrue h => exact iff_of_false nofun (Nat.ne_zero_of_lt h)
  case isFalse h =>
    split
    case isTrue h => exact iff_of_false nofun h.ne'
    case isFalse h => exact iff_of_true rfl (Nat.eq_zero_of_not_pos h)

structure Heap (s : State) (live : List (Nat × Nat)) (G : Ground) (place : MagazineId → Option Place)
    (hand : Option (MagazineId × SizeClass)) : Prop where
  shelved : Shelved s place
  held : ∀ m k, hand = some (m, k) → place m = none ∧ next s m = none
  bound : ∀ m, (s.magazines m).count ≤ magazineCapacity
  kind : ∀ m, (s.magazines m).count ≠ 0 → ∃ k, At place hand m k ∧
    ∀ x ∈ (s.magazines m).contents, G.Carved k x
  filled : ∀ m k f, place m = some (.depot k f) → f = Fill.of (s.magazines m).count
  stocked : Stocked s live G

-- The blocks stay where they are.
structure Rearranged (s t : State) : Prop where
  slabs : t.slabs = s.slabs
  memory : t.memory = s.memory
  count : ∀ m, (t.magazines m).count = (s.magazines m).count
  blocks : ∀ m, (t.magazines m).blocks = (s.magazines m).blocks

namespace Rearranged

lemma refl (s : State) : Rearranged s s :=
  ⟨rfl, rfl, fun _ => rfl, fun _ => rfl⟩

lemma setMagazine (h : Rearranged s t) (hc : mag.count = (t.magazines m).count)
    (hb : mag.blocks = (t.magazines m).blocks) : Rearranged s (t.setMagazine m mag) := by
  refine ⟨h.slabs, h.memory, fun n => ?_, fun n => ?_⟩
  · by_cases hn : n = m
    · simp [State.setMagazine, hn, hc, h.count]
    · simp [State.setMagazine, hn, h.count]
  · by_cases hn : n = m
    · simp [State.setMagazine, hn, hb, h.blocks]
    · simp [State.setMagazine, hn, h.blocks]

lemma setPool (h : Rearranged s t) : Rearranged s (t.setPool a) :=
  ⟨h.slabs, h.memory, h.count, h.blocks⟩

lemma setDepot (h : Rearranged s t) : Rearranged s (t.setDepot k f a) :=
  ⟨h.slabs, h.memory, h.count, h.blocks⟩

lemma setCache (h : Rearranged s t) : Rearranged s (t.setCache cpu k a) :=
  ⟨h.slabs, h.memory, h.count, h.blocks⟩

lemma contents (h : Rearranged s t) (m : MagazineId) : (t.magazines m).contents = (s.magazines m).contents := by
  rw [Magazine.contents, h.count, h.blocks, Magazine.contents]

lemma stock (h : Rearranged s t) : stock t = stock s := by
  unfold MagazineHeap.stock
  simp only [h.contents]

end Rearranged

lemma Heap.relocate (h : Heap s live G place hand) (hr : Rearranged s t) (hs : Shelved t place')
    (hh : ∀ m k, hand' = some (m, k) → place' m = none ∧ next t m = none)
    (ha : ∀ m k, (s.magazines m).count ≠ 0 → At place hand m k → At place' hand' m k)
    (hf : ∀ m k f, place' m = some (.depot k f) → f = Fill.of (s.magazines m).count) :
    Heap t live G place' hand' := by
  refine ⟨hs, hh, fun m => ?_, fun m hm => ?_, fun m k f hm => ?_, ?_⟩
  · rw [hr.count]
    exact h.bound m
  · rw [hr.count] at hm
    obtain ⟨k, hk, hx⟩ := h.kind m hm
    exact ⟨k, ha m k hm hk, hr.contents m ▸ hx⟩
  · rw [hr.count]
    exact hf m k f hm
  · exact h.stocked.congr hr.slabs hr.memory hr.stock

lemma At.update (h : At place hand n k) (hn : n ≠ m) (hh : ∀ k, hand ≠ some (n, k)) :
    At (update place m p) hand' n k := by
  obtain ⟨f, hf⟩ | ⟨cpu, hc⟩ | hh' := h
  · exact .inl ⟨f, by rwa [update_of_ne hn]⟩
  · exact .inr (.inl ⟨cpu, by rwa [update_of_ne hn]⟩)
  · exact absurd hh' (hh k)

lemma popDepot_rearranged : Rearranged s (popDepot s k f m) :=
  (Rearranged.refl s).setDepot.setMagazine rfl rfl

lemma Heap.popDepot (h : Heap s live G place none) (hm : s.depots k f = some m) :
    Heap (popDepot s k f m) live G (update place m none) (some (m, k)) := by
  have hplace : place m = some (.depot k f) := h.shelved.place_of_head (p := .depot k f) hm
  have hs : Shelved (MagazineHeap.popDepot s k f m) (update place m none) := by
    refine h.shelved.pop (p := .depot k f) hm ?_ ?_
    · simp [MagazineHeap.popDepot, next]
    · simp [MagazineHeap.popDepot]
  refine h.relocate popDepot_rearranged hs (fun n k' hn => ?_) (fun n k' hc hn => ?_) fun n k' f' hn => ?_
  · cases hn
    exact ⟨update_self .., by simp [MagazineHeap.popDepot]⟩
  · by_cases hnm : n = m
    · subst hnm
      obtain ⟨f', hf'⟩ | ⟨cpu, hc'⟩ | hh := hn
      · cases hplace.symm.trans hf'
        exact .inr (.inr rfl)
      · cases hplace.symm.trans hc'
      · cases hh
    · exact hn.update hnm fun _ h => by cases h
  · by_cases hnm : n = m
    · rw [hnm, update_self] at hn
      cases hn
    · rw [update_of_ne hnm] at hn
      exact h.filled n k' f' hn

lemma Heap.count_of_pool (h : Heap s live G place none) (hm : place m = some .pool) :
    (s.magazines m).count = 0 := by
  by_contra hc
  obtain ⟨k, ⟨f, hf⟩ | ⟨cpu, hc⟩ | hh, -⟩ := h.kind m hc
  · cases hm.symm.trans hf
  · cases hm.symm.trans hc
  · cases hh

lemma Heap.allocMagazine (h : Heap s live G place none) (k : SizeClass)
    (hr : allocMagazine s = some r) : place r.1 = some .pool ∧ (s.magazines r.1).count = 0 ∧
      Rearranged s r.2 ∧ r.2.caches = s.caches ∧
      Heap r.2 live G (update place r.1 none) (some (r.1, k)) := by
  obtain ⟨m, hm, rfl⟩ := Option.map_eq_some_iff.mp hr
  dsimp only
  have hplace : place m = some .pool := h.shelved.place_of_head (p := .pool) hm
  have hcount := h.count_of_pool hplace
  have hre : Rearranged s ((s.setPool (s.magazines m).next).setMagazine m
      { s.magazines m with count := 0, next := none }) :=
    (Rearranged.refl s).setPool.setMagazine hcount.symm rfl
  have hs : Shelved ((s.setPool (s.magazines m).next).setMagazine m
      { s.magazines m with count := 0, next := none }) (update place m none) := by
    refine h.shelved.pop (p := .pool) hm ?_ ?_
    · simp [next]
    · simp
  refine ⟨hplace, hcount, hre, rfl, h.relocate hre hs (fun n k' hn => ?_) (fun n k' hc hn => ?_) fun n k' f' hn => ?_⟩
  · cases hn
    exact ⟨update_self .., by simp⟩
  · have hnm : n ≠ m := by
      rintro rfl
      exact hc hcount
    exact hn.update hnm fun _ h => by cases h
  · by_cases hnm : n = m
    · rw [hnm, update_self] at hn
      cases hn
    · rw [update_of_ne hnm] at hn
      exact h.filled n k' f' hn

lemma freeMagazine_rearranged : Rearranged s (freeMagazine s m) := by
  unfold freeMagazine
  exact Rearranged.setPool (.setMagazine (.refl s) (by rfl) (by rfl))

lemma Heap.freeMagazine (h : Heap s live G place (some (m, k))) (hc : (s.magazines m).count = 0) :
    Heap (freeMagazine s m) live G (update place m (some .pool)) none := by
  have hs : Shelved (MagazineHeap.freeMagazine s m) (update place m (some .pool)) := by
    refine h.shelved.push (p := .pool) (h.held m k rfl).1 (fun _ _ h => by cases h) ?_ ?_
    · simp [MagazineHeap.freeMagazine]
    · simp [MagazineHeap.freeMagazine, head]
  refine h.relocate freeMagazine_rearranged hs (fun _ _ h => by cases h) (fun n k' hcn hn => ?_) fun n k' f' hn => ?_
  · have hnm : n ≠ m := by
      rintro rfl
      exact hcn hc
    exact hn.update hnm fun k'' he => hnm (congrArg Prod.fst (Option.some.inj he)).symm
  · have hnm : n ≠ m := by
      rintro rfl
      rw [update_self] at hn
      cases hn
    rw [update_of_ne hnm] at hn
    exact h.filled n k' f' hn

section

lemma Heap.contents_eq_nil (hc : (s.magazines m).count = 0) : (s.magazines m).contents = [] := by
  rw [Magazine.contents, hc]
  rfl

lemma Heap.fill (h : Heap s live G place (some (m, k))) (hc : (s.magazines m).count = 0)
    (hs : s.slabs k = xs ++ slab :: ys) (hl : G.free slab.basePtr = taken ++ rest)
    (hf : Filled s.memory slab slab' (s.magazines m) mag taken rest) (hlen : taken.length ≤ magazineCapacity) :
    Heap ((s.setSlabs k (xs ++ slab' :: ys)).setMagazine m mag) live (G.setFree slab.basePtr rest) place
      (some (m, k)) := by
  have hslab := h.stocked.slabs k slab (hs ▸ List.mem_append_right _ (.head _))
  have hself : ((s.setSlabs k (xs ++ slab' :: ys)).setMagazine m mag).magazines m = mag :=
    update_self ..
  have hother {n : MagazineId} (hn : n ≠ m) :
      ((s.setSlabs k (xs ++ slab' :: ys)).setMagazine m mag).magazines n = s.magazines n :=
    update_of_ne hn ..
  have hnext : next ((s.setSlabs k (xs ++ slab' :: ys)).setMagazine m mag) = next s := by
    rw [next_setMagazine, hf.next]
    exact update_eq_self ..
  have hcount : mag.count = taken.length := by rw [hf.count, hc, Nat.zero_add]
  constructor
  case shelved =>
    have hhead : head ((s.setSlabs k (xs ++ slab' :: ys)).setMagazine m mag) = head s := by
      rw [head_setMagazine]
      funext p
      cases p <;> rfl
    obtain ⟨L, hL⟩ := h.shelved.rows
    exact ⟨⟨L, by rwa [hnext, hhead]⟩, by rw [hnext, hhead]; exact h.shelved.single⟩
  case held =>
    intro n k' hn
    rw [hnext]
    exact h.held n k' hn
  case bound =>
    intro n
    by_cases hn : n = m
    case pos =>
      rw [hn, hself, hcount]
      exact hlen
    rw [hother hn]
    exact h.bound n
  case kind =>
    intro n hcn
    by_cases hn : n = m
    · subst hn
      refine ⟨k, .inr (.inr rfl), fun x hx => ⟨slab.basePtr, hslab.base, hslab.kind, hslab.sub x ?_⟩⟩
      rw [hself, hf.contents, contents_eq_nil hc, List.nil_append] at hx
      exact hl ▸ List.mem_append_left _ hx
    · rw [hother hn] at hcn ⊢
      exact h.kind n hcn
  case filled =>
    intro n k' f' hn
    have hnm : n ≠ m := by
      rintro rfl
      rw [(h.held n k rfl).1] at hn
      cases hn
    rw [hother hnm]
    exact h.filled n k' f' hn
  case stocked => exact h.stocked.fill hs hl hf

lemma setSlabs_setSlabs : (s.setSlabs k xs).setSlabs k ys = s.setSlabs k ys := by
  simp [State.setSlabs]

lemma Heap.addSlab (h : Heap s live G place hand) (hz : base ≠ 0)
    (hb : ∀ b ∈ G.bases, base + slabSize ≤ b ∨ b + slabSize ≤ base) :
    Heap ((s.setMemory (newSlab k base s.memory).2).setSlabs k ((newSlab k base s.memory).1 :: s.slabs k)) live
      (G.add k base) place hand := by
  have hhead : head ((s.setMemory (newSlab k base s.memory).2).setSlabs k
      ((newSlab k base s.memory).1 :: s.slabs k)) = head s := by
    funext p
    cases p <;> rfl
  obtain ⟨L, hL⟩ := h.shelved.rows
  refine ⟨⟨⟨L, hhead ▸ hL⟩, hhead ▸ h.shelved.single⟩, h.held, h.bound, fun n hc => ?_, h.filled,
    h.stocked.addSlab hz hb⟩
  obtain ⟨k', hk, hx⟩ := h.kind n hc
  refine ⟨k', hk, fun x hm => ?_⟩
  obtain ⟨b, hbm, hkb, hxb⟩ := hx x hm
  have hne : b ≠ base := by
    rintro rfl
    have := hb b hbm
    have : 0 < slabSize := by decide
    omega
  exact ⟨b, Finset.mem_insert_of_mem hbm, (update_of_ne hne ..).trans hkb, hxb⟩

-- A magazine of blocks at most leaves the slabs of a size class.
structure Grown (k : SizeClass) (G G' : Ground) : Prop where
  carved : ∀ k x, G.Carved k x → G'.Carved k x
  taken : ∃ taken : List Nat, taken.length ≤ magazineCapacity ∧ (∀ x ∈ taken, G'.Carved k x) ∧
    G'.carved + G.freed = G.carved + G'.freed + taken

lemma grown_setFree (hb : b ∈ G.bases) (hk : ∀ x ∈ G.free b, G.Carved k x)
    (hl : G.free b = taken ++ rest) (hlen : taken.length ≤ magazineCapacity) : Grown k G (G.setFree b rest) := by
  refine ⟨fun _ _ => id, taken, hlen, fun x hx => hk x (hl ▸ List.mem_append_left _ hx), ?_⟩
  have hfreed := G.freed_setFree (l := rest) hb
  rw [hl, ← Multiset.coe_add, ← add_assoc, add_left_inj] at hfreed
  have hcarved : (G.setFree b rest).carved = G.carved := rfl
  rw [hcarved, ← hfreed, add_assoc]

lemma Grown.of_add (h : Grown k (G.add k b) G') (hb : b ∉ G.bases) : Grown k G G' := by
  obtain ⟨taken, hlen, hk, htaken⟩ := h.taken
  refine ⟨fun k' x hx => h.carved k' x (G.carved_of_add hb hx), taken, hlen, hk, ?_⟩
  rw [G.carved_add hb, G.freed_add hb, ← Multiset.coe_reverse (blocksAt k b)] at htaken
  have hsum : ↑(blocksAt k b).reverse + (G'.carved + G.freed) =
      ↑(blocksAt k b).reverse + (G.carved + G'.freed + taken) := by
    rw [← add_assoc, ← add_assoc, add_comm _ G'.carved, add_assoc, htaken]
    abel
  exact add_left_cancel hsum

-- What a refill leaves: a magazine with blocks in the hand, or none.
def Refilled (s : State) (live : List (Nat × Nat)) (G : Ground) (place : MagazineId → Option Place)
    (k : SizeClass) (Q : MagazineId → Ground → Prop) (r : Option MagazineId × State) : Prop :=
  r.2.caches = s.caches ∧ (∀ n cpu k', s.caches cpu k' = some n → (r.2.magazines n).count = (s.magazines n).count) ∧
  match r.1 with
  | some m => ∃ G', Heap r.2 live G' (update place m none) (some (m, k)) ∧ (r.2.magazines m).count ≠ 0 ∧ Q m G'
  | none => ∃ place', Heap r.2 live G place' none ∧ Kept place place'

-- Blocks of a slab are taken only if the magazines of the depot are empty, and a magazine from the pool only if
-- the depot has none.
def Supplied (s : State) (G : Ground) (place : MagazineId → Option Place) (k : SizeClass) (m : MagazineId)
    (G' : Ground) : Prop :=
  G' = G ∧ Serves place m k ∨ s.depots k .full = none ∧ s.depots k .partlyFull = none ∧ Grown k G G' ∧
    (Serves place m k ∨ place m = some .pool ∧ s.depots k .empty = none)

variable {vmem : VMem}

lemma Heap.fresh (h : Heap s live G place hand) (hv : World.Fresh s vmem)
    (hb : vmem.memory = some base) :
    base ≠ 0 ∧ ∀ b ∈ G.bases, base + slabSize ≤ b ∨ b + slabSize ≤ base := by
  obtain ⟨hz, hs⟩ := hv base hb
  refine ⟨hz, fun b hm => ?_⟩
  obtain ⟨slab, hslab, rfl⟩ := h.stocked.onto b hm
  exact hs _ slab hslab

lemma magazines_of_ne (hn : n ≠ m) : (s.setMagazine m mag).magazines n = s.magazines n :=
  update_of_ne hn ..

lemma magazines_self : (s.setMagazine m mag).magazines m = mag :=
  update_self ..

lemma Heap.refillMagazine (h : Heap s live G (update place m none) (some (m, k)))
    (hc : (s.magazines m).count = 0) (hv : World.Fresh s vmem) (hp : place m ≠ none) :
    Refilled s live G place k (fun n G' => n = m ∧ Grown k G G') (refillMagazine s k m vmem) := by
  have hactive {n : MagazineId} {cpu : Cpu} {k' : SizeClass} (hn : s.caches cpu k' = some n) : n ≠ m := by
    rintro rfl
    have hp := h.shelved.place_of_head (p := .active cpu k') hn
    rw [update_self] at hp
    cases hp
  unfold MagazineHeap.refillMagazine
  split
  case h_1 slabs mag hf =>
    obtain ⟨xs, slab, ys, hs, hpos, he⟩ := fillFrom_eq_some hf
    cases he
    have hslab := h.stocked.slabs k slab (hs ▸ List.mem_append_right _ (.head _))
    obtain ⟨taken, rest, hl, hlen, hne, hfilled⟩ :=
      fill_filled magazineCapacity (s.magazines m) hslab.frees
    refine ⟨rfl, fun n cpu k' hn => by rw [magazines_of_ne (hactive hn)]; rfl, ?_⟩
    have hcarved : ∀ x ∈ G.free slab.basePtr, G.Carved k x := fun x hx =>
      ⟨_, hslab.base, hslab.kind, hslab.sub x hx⟩
    refine ⟨_, h.fill hc hs hl hfilled hlen, ?_, rfl, grown_setFree hslab.base hcarved hl hlen⟩
    dsimp only
    rw [magazines_self, hfilled.count]
    have hnil : G.free slab.basePtr ≠ [] := by
      intro hz
      have := hslab.frees.length
      rw [hz] at this
      exact absurd this hpos.ne'
    have := List.length_pos_iff.mpr (hne (by decide) hnil)
    omega
  case h_2 =>
    split
    case h_1 base hslab hb =>
      obtain ⟨hz, hbases⟩ := h.fresh hv hb
      have hadd := h.addSlab (k := k) hz hbases
      have hfree : (G.add k base).free base = (blocksAt k base).reverse := update_self ..
      obtain ⟨hfrees, -⟩ := newSlab_frees s.memory k hz
      obtain ⟨taken, rest, hl, hlen, hne, hfilled⟩ :=
        fill_filled magazineCapacity (s.magazines m) hfrees
      have hslabs : ((s.setMemory (newSlab k base s.memory).2).setSlabs k
          ((newSlab k base s.memory).1 :: s.slabs k)).slabs k = [] ++ (newSlab k base s.memory).1 :: s.slabs k := by
        simp [State.setSlabs]
      have hres := hadd.fill hc hslabs (hfree.trans hl) hfilled hlen
      rw [List.nil_append, setSlabs_setSlabs] at hres
      refine ⟨rfl, fun n cpu k' hn => by rw [magazines_of_ne (hactive hn)]; rfl, ?_⟩
      have hnot : base ∉ G.bases := fun hmem => by
        have := hbases base hmem
        have : 0 < slabSize := by decide
        omega
      have hcarved : ∀ x ∈ (G.add k base).free base, (G.add k base).Carved k x := fun x hx => by
        rw [hfree, List.mem_reverse] at hx
        exact ⟨base, Finset.mem_insert_self .., update_self .., hx⟩
      have hgrown : Grown k (G.add k base) ((G.add k base).setFree (newSlab k base s.memory).1.basePtr rest) :=
        grown_setFree (Finset.mem_insert_self ..) hcarved (hfree.trans hl) hlen
      refine ⟨_, hres, ?_, rfl, hgrown.of_add hnot⟩
      dsimp only
      rw [magazines_self, hfilled.count]
      have hnil : (blocksAt k base).reverse ≠ [] := List.reverse_eq_nil_iff.not.mpr (blocksAt_ne_nil k base)
      have := List.length_pos_iff.mpr (hne (by decide) hnil)
      omega
    case h_2 =>
      refine ⟨rfl, fun n cpu k' hn => freeMagazine_rearranged.count n, ?_⟩
      obtain ⟨p, hp⟩ := Option.ne_none_iff_exists'.mp hp
      have hfreed := h.freeMagazine hc
      rw [update_idem] at hfreed
      exact ⟨_, hfreed, .update hp (.inl rfl)⟩

lemma Heap.takeEmpty (h : Heap s live G place none) (hr : takeEmpty s k = some r) :
    (Serves place r.1 k ∨ place r.1 = some .pool ∧ s.depots k .empty = none) ∧ (r.2.magazines r.1).count = 0 ∧
      Rearranged s r.2 ∧ r.2.caches = s.caches ∧ Heap r.2 live G (update place r.1 none) (some (r.1, k)) := by
  unfold MagazineHeap.takeEmpty at hr
  split at hr
  case h_1 m hm =>
    have hplace := h.shelved.place_of_head (p := .depot k .empty) hm
    have hc : ((MagazineHeap.popDepot s k .empty m).magazines m).count = 0 :=
      (popDepot_rearranged.count m).trans (Fill.of_eq_empty.mp (h.filled m k .empty hplace).symm)
    have hsame : (MagazineHeap.popDepot s k .empty m).setMagazine m
        { (MagazineHeap.popDepot s k .empty m).magazines m with count := 0 } =
        MagazineHeap.popDepot s k .empty m := by
      rw [← hc, State.setMagazine, update_eq_self]
    cases hr
    dsimp only
    rw [hsame]
    exact ⟨.inl ⟨_, hplace, rfl⟩, hc, popDepot_rearranged, rfl, h.popDepot hm⟩
  case h_2 hm =>
    obtain ⟨hp, hc, hre, hcaches, hh⟩ := h.allocMagazine k hr
    exact ⟨.inr ⟨hp, hm⟩, (hre.count _).trans hc, hre, hcaches, hh⟩

lemma Serves.ne_none (h : Serves place m k) : place m ≠ none := by
  obtain ⟨p, hp, -⟩ := h
  rw [hp]
  nofun

lemma Heap.depotRefill (h : Heap s live G place none) (hv : World.Fresh s vmem) :
    Refilled s live G place k (Supplied s G place k) (depotRefill s k vmem) := by
  have hpop {f : Fill} {m : MagazineId} (hm : s.depots k f = some m) (hf : f ≠ .empty) :
      Refilled s live G place k (Supplied s G place k) (some m, MagazineHeap.popDepot s k f m) := by
    have hplace := h.shelved.place_of_head (p := .depot k f) hm
    refine ⟨rfl, fun n cpu k' _ => popDepot_rearranged.count n, G, h.popDepot hm, ?_, .inl ⟨rfl, _, hplace, rfl⟩⟩
    rw [popDepot_rearranged.count]
    exact fun hc => hf ((h.filled m k f hplace).trans (Fill.of_eq_empty.mpr hc))
  unfold MagazineHeap.depotRefill
  split
  case h_1 m hm => exact hpop hm nofun
  case h_2 hfull =>
    split
    case h_1 m hm => exact hpop hm nofun
    case h_2 hpartly =>
      split
      case h_1 => exact ⟨rfl, fun _ _ _ _ => rfl, place, h, .refl place⟩
      case h_2 m t ht =>
        obtain ⟨hp, hc, hre, hcaches, hh⟩ := h.takeEmpty ht
        have hv' : World.Fresh t vmem := fun base hb => by
          rw [hre.slabs]
          exact hv base hb
        have hne : place m ≠ none := by
          obtain hp | ⟨hp, -⟩ := hp
          · exact hp.ne_none
          · rw [hp]
            nofun
        have hrefill := hh.refillMagazine hc hv' hne
        dsimp only at hrefill hp
        generalize MagazineHeap.refillMagazine t k m vmem = r at hrefill ⊢
        obtain ⟨hc', hcount, hrest⟩ := hrefill
        refine ⟨hc'.trans hcaches, fun n cpu k' hn => (hcount n cpu k' (hcaches ▸ hn)).trans (hre.count n), ?_⟩
        obtain ⟨_ | n, u⟩ := r
        · exact hrest
        · obtain ⟨G', hG', hcount', rfl, hgrown⟩ := hrest
          exact ⟨G', hG', hcount', .inr ⟨hfull, hpartly, hgrown, hp⟩⟩

end

lemma setCache_setCache : (s.setCache cpu k a).setCache cpu k b = s.setCache cpu k b := by
  simp [State.setCache]

-- The places when an active magazine is dropped.
def dropped (place : MagazineId → Option Place) (old : Option MagazineId) : MagazineId → Option Place :=
  old.elim place fun m => update place m none

lemma dropped_eq_none (h : dropped place old n = none) : place n = none ∨ old = some n := by
  rcases old with _ | o
  · exact .inl h
  by_cases hn : n = o
  · exact .inr (congrArg some hn.symm)
  · exact .inl ((update_of_ne hn ..).symm.trans h)

lemma dropped_eq_some (h : dropped place old n = some p) : place n = some p := by
  rcases old with _ | o
  · exact h
  by_cases hn : n = o
  · have hz : dropped place (some o) o = none := update_self ..
    rw [hn, hz] at h
    cases h
  · exact (update_of_ne hn ..).symm.trans h

lemma Heap.install (h : Heap s live G place (some (m, k)))
    (hold : ∀ o, s.caches cpu k = some o → (s.magazines o).count = 0) :
    Heap (s.setCache cpu k (some m)) live G
      (update (dropped place (s.caches cpu k)) m (some (.active cpu k))) none := by
  obtain ⟨hp, hn⟩ := h.held m k rfl
  have hs : Shelved (s.setCache cpu k (some m))
      (update (dropped place (s.caches cpu k)) m (some (.active cpu k))) := by
    rcases ho : s.caches cpu k with _ | o
    · exact h.shelved.install hp hn ho
    have hmo : m ≠ o := by
      rintro rfl
      have := h.shelved.place_of_head (p := .active cpu k) ho
      rw [hp] at this
      cases this
    have hinstall : Shelved ((s.setCache cpu k none).setCache cpu k (some m)) _ :=
      (h.shelved.clear ho).install ((update_of_ne hmo ..).trans hp) hn (by simp [State.setCache])
    rwa [setCache_setCache] at hinstall
  refine h.relocate (Rearranged.refl s).setCache hs (fun _ _ h => by cases h) (fun n k' hc hn => ?_) fun n k' f' hn => ?_
  · by_cases hnm : n = m
    · subst hnm
      obtain ⟨f, hf⟩ | ⟨c, hc⟩ | hh := hn
      · cases hp.symm.trans hf
      · cases hp.symm.trans hc
      · cases hh
        exact .inr (.inl ⟨cpu, update_self ..⟩)
    · have hkeep : update (dropped place (s.caches cpu k)) m (some (.active cpu k)) n = place n := by
        rw [update_of_ne hnm]
        rcases ho : s.caches cpu k with _ | o
        · rfl
        have hno : n ≠ o := by
          rintro rfl
          exact hc (hold n ho)
        exact update_of_ne hno ..
      obtain ⟨f, hf⟩ | ⟨c, hc⟩ | hh := hn
      · exact .inl ⟨f, hkeep.trans hf⟩
      · exact .inr (.inl ⟨c, hkeep.trans hc⟩)
      · exact absurd (congrArg Prod.fst (Option.some.inj hh)).symm hnm
  · have hnm : n ≠ m := by
      rintro rfl
      rw [update_self] at hn
      cases hn
    rw [update_of_ne hnm] at hn
    exact h.filled n k' f' (dropped_eq_some hn)

lemma pushDepot_rearranged : Rearranged s (pushDepot s k f m) := by
  unfold pushDepot
  exact Rearranged.setDepot (.setMagazine (.refl s) (by rfl) (by rfl))

lemma Heap.pushDepot (h : Heap s live G place none) (hm : s.caches cpu k = some m)
    (hf : f = Fill.of (s.magazines m).count) :
    Heap ((pushDepot s k f m).setCache cpu k none) live G (update place m (some (.depot k f))) none := by
  have hplace := h.shelved.place_of_head (p := .active cpu k) hm
  have hs : Shelved (MagazineHeap.pushDepot (s.setCache cpu k none) k f m)
      (update (update place m none) m (some (.depot k f))) := by
    refine (h.shelved.clear hm).push (p := .depot k f) (update_self ..) (fun _ _ h => by cases h) ?_ ?_
    · simp [MagazineHeap.pushDepot]
    · simp [MagazineHeap.pushDepot, head]
  rw [update_idem] at hs
  refine h.relocate pushDepot_rearranged.setCache hs (fun _ _ h => by cases h) (fun n k' hc hn => ?_) fun n k' f' hn => ?_
  · by_cases hnm : n = m
    · subst hnm
      obtain ⟨f', hf'⟩ | ⟨c, hc⟩ | hh := hn
      · cases hplace.symm.trans hf'
      · cases hplace.symm.trans hc
        exact .inl ⟨f, update_self ..⟩
      · cases hh
    · exact hn.update hnm fun _ h => by cases h
  · by_cases hnm : n = m
    · rw [hnm, update_self] at hn
      cases hn
      rw [hnm]
      exact hf
    · rw [update_of_ne hnm] at hn
      exact h.filled n k' f' hn

lemma depotReturn_eq (hc : (s.magazines m).count ≤ magazineCapacity) :
    depotReturn s m k = pushDepot s k (Fill.of (s.magazines m).count) m := by
  unfold depotReturn Fill.of
  dsimp only
  split
  case isTrue hfull =>
    have he : (s.magazines m).count = magazineCapacity := le_antisymm hc hfull
    rw [← he, State.setMagazine, update_eq_self]
  case isFalse => split <;> rfl

lemma Heap.flushCache (h : Heap s live G place none) (cpu : Cpu) (k : SizeClass) :
    ∃ place', Heap (flushCache s cpu k) live G place' none ∧ Kept place place' := by
  unfold MagazineHeap.flushCache
  split
  case h_2 => exact ⟨place, h, .refl place⟩
  case h_1 m hm =>
    rw [depotReturn_eq (h.bound m)]
    exact ⟨_, h.pushDepot hm rfl, .update (h.shelved.place_of_head (p := .active cpu k) hm) (.inr rfl)⟩

lemma Heap.foldl {α : Type} {step : State → α → State}
    (hs : ∀ {s place} (a : α), Heap s live G place none →
      ∃ place', Heap (step s a) live G place' none ∧ Kept place place')
    (l : List α) (h : Heap s live G place none) :
    ∃ place', Heap (l.foldl step s) live G place' none ∧ Kept place place' := by
  induction l generalizing s place
  case nil => exact ⟨place, h, .refl place⟩
  case cons a l ih =>
    obtain ⟨place1, h1, hp1⟩ := hs a h
    obtain ⟨place2, h2, hp2⟩ := ih h1
    exact ⟨place2, h2, hp1.trans hp2⟩

lemma Heap.magazineFlushCaches (h : Heap s live G place none) :
    ∃ place', Heap (magazineFlushCaches s) live G place' none ∧ Kept place place' :=
  h.foldl (fun cpu h => h.foldl (fun k h => h.flushCache cpu k) _) _

section

variable {mag : Magazine} {memory : Nat → Nat} {live' : List (Nat × Nat)} {x size : Nat}

lemma Heap.setActive (h : Heap s live G place none) (hm : s.caches cpu k = some m)
    (hn : mag.next = (s.magazines m).next) (hb : mag.count ≤ magazineCapacity)
    (hc : ∀ x ∈ mag.contents, G.Carved k x) (hs : Stocked (s.setMagazine m mag) live' G) :
    Heap (s.setMagazine m mag) live' G place none := by
  have hplace := h.shelved.place_of_head (p := .active cpu k) hm
  have hnext : next (s.setMagazine m mag) = next s := by
    rw [next_setMagazine, hn]
    exact update_eq_self ..
  constructor
  case shelved =>
    obtain ⟨L, hL⟩ := h.shelved.rows
    exact ⟨⟨L, by rwa [hnext, head_setMagazine]⟩, by rw [hnext, head_setMagazine]; exact h.shelved.single⟩
  case held => nofun
  case bound =>
    intro n
    by_cases hnm : n = m
    case pos =>
      rw [hnm, magazines_self]
      exact hb
    rw [magazines_of_ne hnm]
    exact h.bound n
  case kind =>
    intro n hcn
    by_cases hnm : n = m
    case pos =>
      subst hnm
      rw [magazines_self]
      exact ⟨k, .inr (.inl ⟨cpu, hplace⟩), hc⟩
    rw [magazines_of_ne hnm] at hcn ⊢
    exact h.kind n hcn
  case filled =>
    intro n k' f' hp
    have hnm : n ≠ m := by
      rintro rfl
      cases hplace.symm.trans hp
    rw [magazines_of_ne hnm]
    exact h.filled n k' f' hp
  case stocked => exact hs

lemma Heap.setMemory (h : Heap s live G place hand) (hs : Stocked (s.setMemory memory) live G) :
    Heap (s.setMemory memory) live G place hand := by
  have hhead : head (s.setMemory memory) = head s := by
    funext p
    cases p <;> rfl
  obtain ⟨L, hL⟩ := h.shelved.rows
  exact ⟨⟨⟨L, hhead ▸ hL⟩, hhead ▸ h.shelved.single⟩, h.held, h.bound, h.kind, h.filled, hs⟩

lemma Heap.carved_of_active (h : Heap s live G place none) (hm : s.caches cpu k = some m)
    (hx : x ∈ (s.magazines m).contents) : G.Carved k x := by
  have hplace := h.shelved.place_of_head (p := .active cpu k) hm
  have hc : (s.magazines m).count ≠ 0 := fun hc => by
    rw [contents_eq_nil hc] at hx
    cases hx
  obtain ⟨k', ⟨f, hf⟩ | ⟨c, hc⟩ | hh, hk⟩ := h.kind m hc
  · cases hplace.symm.trans hf
  · cases hplace.symm.trans hc
    exact hk x hx
  · cases hh

lemma writeHeader_spec (s : State) (k : SizeClass) (x : Nat) :
    writeHeader s k x x = magazineBlockMagic ∧ writeHeader s k x (x + 8) % 256 = k ∧
    ∀ a, a < x ∨ x + chunkSize k ≤ a → writeHeader s k x a = s.memory a := by
  have hbyte (w : Nat) : setByte w k % 256 = k := by
    have : (k : Nat) < 8 := k.isLt
    unfold setByte
    omega
  have hsize : chunkSize k = 16 + sizeClasses k := rfl
  unfold writeHeader
  refine ⟨?_, ?_, fun a ha => ?_⟩
  · split <;> simp [memset]
  · have h8 : ¬(x + 16 ≤ x + 8 ∧ x + 8 < x + 16 + sizeClasses k) := by omega
    split
    · rw [memset, if_neg h8, update_self, hbyte]
    · rw [update_self, hbyte]
  · have h1 : a ≠ x := by omega
    have h2 : a ≠ x + 8 := by omega
    have h3 : ¬(x + 16 ≤ a ∧ a < x + 16 + sizeClasses k) := by omega
    split
    · rw [memset, if_neg h3, update_of_ne h2, update_of_ne h1]
    · rw [update_of_ne h2, update_of_ne h1]

lemma Heap.popBlock (h : Heap s live G place none) (hm : s.caches cpu k = some m)
    (hc : (s.magazines m).count ≠ 0) (hsize : size ≤ sizeClasses k) : ∃ ptr t,
      popBlock s k m = .ok (some ptr, t) ∧ Heap t ((ptr, size) :: live) G place none := by
  have hcontents := contents_pop hc
  unfold MagazineHeap.popBlock
  simp only [if_neg hc]
  generalize (s.magazines m).blocks ((s.magazines m).count - 1) = x at hcontents ⊢
  obtain ⟨hmagic, hidx, hmem⟩ := writeHeader_spec
    (s.setMagazine m { s.magazines m with count := (s.magazines m).count - 1 }) k x
  generalize writeHeader (s.setMagazine m { s.magazines m with count := (s.magazines m).count - 1 }) k x =
    memory at hmagic hidx hmem ⊢
  have hx : x ∈ (s.magazines m).contents := hcontents ▸ List.mem_append_right _ (.head _)
  have hk := h.carved_of_active hm hx
  have hstock := mem_stock hx
  -- a block in a magazine is not live
  have hnot : ∀ e ∈ live, e.1 = x + headerSize → Live memory G e := by
    intro e hel hex
    have hcount := h.stocked.count_le x
    have h1 := Multiset.count_pos.mpr hstock
    have h2 := Multiset.count_pos.mpr (Stocked.mem_liveBlocks hel)
    rw [hex, Nat.add_sub_cancel] at h2
    omega
  have hs := h.stocked.setMemory hk
    (fun b hb => h.stocked.notMem_free (Multiset.mem_add.mpr (.inl hstock)) hb) hmem hnot
  have hlive : Live memory G (x + headerSize, size) := ⟨x, k, rfl, hk, hsize, hmagic, hidx⟩
  refine ⟨_, _, rfl, (h.setMemory hs).setActive hm rfl ?_ ?_ (hs.take hcontents hlive)⟩
  · exact (Nat.sub_le ..).trans (h.bound m)
  · intro y hy
    exact h.carved_of_active hm (hcontents ▸ List.mem_append_left _ hy)

end

section

variable {vmem : VMem} {size : Nat}

lemma getSizeClass_of_le (h : size ≤ 1024) : ∃ k, getSizeClass size = some k ∧ size ≤ sizeClasses k := by
  cases hk : getSizeClass size
  case none =>
    have hlast := List.find?_eq_none.mp hk 7 (List.mem_finRange 7)
    have hmax : sizeClasses 7 = 1024 := rfl
    rw [hmax] at hlast
    exact absurd h (by simpa using hlast)
  case some k => exact ⟨k, rfl, by simpa using List.find?_some hk⟩

-- A refill can get a magazine, and can fill it.
def Refillable (s : State) (k : SizeClass) (vmem : VMem) : Prop :=
  s.depots k .full ≠ none ∨ s.depots k .partlyFull ≠ none ∨
  (s.depots k .empty ≠ none ∨ s.magazinePoolHead ≠ none) ∧
    ((∃ slab ∈ s.slabs k, 0 < slab.freeBlocks) ∨ vmem.slab = true ∧ vmem.memory ≠ none)

instance : Decidable (Refillable s k vmem) :=
  inferInstanceAs (Decidable (_ ∨ _))

lemma fillFrom_eq_none
    (h : ¬∃ slab ∈ slabs, 0 < slab.freeBlocks) : fillFrom memory mag slabs = none := by
  induction slabs
  case nil => rfl
  case cons slab slabs ih =>
    rw [fillFrom, if_neg fun hp => h ⟨slab, .head _, hp⟩, ih fun hex => ?_]
    · rfl
    · obtain ⟨σ, hσ, hp⟩ := hex
      exact h ⟨σ, .tail _ hσ, hp⟩

lemma depotRefill_eq_none (h : ¬Refillable s k vmem) : (depotRefill s k vmem).1 = none := by
  simp only [Refillable, not_or, not_and_or, not_not] at h
  obtain ⟨hfull, hpartly, hrest⟩ := h
  have hslabs (t : State) (m : MagazineId) (ht : t.slabs = s.slabs)
      (hr : (¬∃ slab ∈ s.slabs k, 0 < slab.freeBlocks) ∧ (vmem.slab ≠ true ∨ vmem.memory = none)) :
      (refillMagazine t k m vmem).1 = none := by
    unfold refillMagazine
    rw [ht, fillFrom_eq_none hr.1]
    dsimp only
    split
    case h_1 hslab hmem =>
      obtain hv | hv := hr.2
      · exact absurd hslab hv
      · cases hv.symm.trans hmem
    case h_2 => rfl
  unfold depotRefill
  rw [hfull, hpartly]
  dsimp only
  split
  case h_1 => rfl
  case h_2 m t ht =>
    obtain ⟨hempty, hpool⟩ | hr := hrest
    · rw [takeEmpty, hempty] at ht
      cases (Option.map_eq_none_iff.mpr hpool).symm.trans ht
    · refine hslabs t m ?_ hr
      unfold takeEmpty at ht
      split at ht
      · cases ht
        rfl
      · obtain ⟨m, hm, he⟩ := Option.map_eq_some_iff.mp ht
        cases he
        rfl

-- The magazine that an allocation drops: it is active, but empty, and a refill replaces it.
def Drops (s : State) (cpu : Cpu) (size : Nat) (vmem : VMem) (m : MagazineId) : Prop :=
  size ≠ 0 ∧ ∃ k, getSizeClass size = some k ∧ s.caches cpu k = some m ∧ (s.magazines m).count = 0 ∧
    Refillable s k vmem

-- A magazine is made the active one, and no other is dropped.
structure Installs (s : State) (cpu : Cpu) (G : Ground) (place : MagazineId → Option Place) (G' : Ground)
    (place' : MagazineId → Option Place) (k : SizeClass) (m : MagazineId) : Prop where
  free : s.caches cpu k = none
  supplied : Supplied s G place k m G'
  place_eq : place' = update place m (some (.active cpu k))

lemma Heap.magazineAlloc (h : Heap s live G place none) (cpu : Cpu) (hs : size ≤ 1024)
    (hv : World.Fresh s vmem) : ∃ r, magazineAlloc s cpu size vmem = .ok r ∧ ∃ G' place',
      Heap r.2 ((r.1.map (·, size)).toList ++ live) G' place' none ∧
      (∀ n, place' n = none → place n = none ∨ Drops s cpu size vmem n) ∧
      ((∀ n, ¬Drops s cpu size vmem n) → G' = G ∧ Kept place place' ∨
        r.1 ≠ none ∧ ∃ k m, Installs s cpu G place G' place' k m) := by
  obtain ⟨k, hk, hsize⟩ := getSizeClass_of_le hs
  unfold MagazineHeap.magazineAlloc
  rw [hk]
  split
  case isTrue => exact ⟨_, rfl, G, place, h, fun _ => .inl, fun _ => .inl ⟨rfl, .refl place⟩⟩
  case isFalse hz =>
    dsimp only
    cases ha : activeMagazine s cpu k
    case some m =>
      obtain ⟨hm, hc⟩ := Option.filter_eq_some_iff.mp ha
      obtain ⟨ptr, t, he, ht⟩ := h.popBlock hm (by simpa using hc : 0 < (s.magazines m).count).ne' hsize
      exact ⟨_, he, G, place, ht, fun _ => .inl, fun _ => .inl ⟨rfl, .refl place⟩⟩
    have hempty {o : MagazineId} (ho : s.caches cpu k = some o) : (s.magazines o).count = 0 := by
      by_contra hc
      rw [activeMagazine, ho, Option.filter_some, if_pos (by simpa using Nat.pos_of_ne_zero hc)] at ha
      cases ha
    have hr := h.depotRefill (k := k) hv
    have hnone : ¬Refillable s k vmem → (MagazineHeap.depotRefill s k vmem).1 = none := depotRefill_eq_none
    generalize MagazineHeap.depotRefill s k vmem = r at hr hnone ⊢
    obtain ⟨_ | m, t⟩ := r
    · obtain ⟨-, -, place', ht, hp⟩ := hr
      exact ⟨_, rfl, G, place', ht, fun n hn => .inl (hp.placed n hn), fun _ => .inl ⟨rfl, hp⟩⟩
    · obtain ⟨hcaches, hcount, G', ht, hc, hm⟩ := hr
      have hdrops {o : MagazineId} (ho : t.caches cpu k = some o) : Drops s cpu size vmem o := by
        have ho : s.caches cpu k = some o := hcaches ▸ ho
        refine ⟨hz, k, hk, ho, hempty ho, ?_⟩
        by_contra hnr
        cases hnone hnr
      have hinstall : Heap (t.setCache cpu k (some m)) live G' _ none := ht.install fun o ho => by
        have ho : s.caches cpu k = some o := hcaches ▸ ho
        exact (hcount o cpu k ho).trans (hempty ho)
      have hcache : (t.setCache cpu k (some m)).caches cpu k = some m := by simp [State.setCache]
      obtain ⟨ptr, u, he, hu⟩ := hinstall.popBlock hcache hc hsize
      refine ⟨_, he, G', _, hu, fun n hn => ?_, fun hd => .inr ⟨Option.some_ne_none _, k, m, ?_⟩⟩
      · by_cases hnm : n = m
        · rw [hnm, update_self] at hn
          cases hn
        · rw [update_of_ne hnm] at hn
          obtain hn | ho := dropped_eq_none hn
          · exact .inl ((update_of_ne hnm ..).symm.trans hn)
          · exact .inr (hdrops ho)
      · have hfree : t.caches cpu k = none := by
          by_contra hne
          obtain ⟨o, ho⟩ := Option.ne_none_iff_exists'.mp hne
          exact hd o (hdrops ho)
        refine ⟨hcaches ▸ hfree, hm, ?_⟩
        rw [hfree, dropped, Option.elim_none, update_idem]

end

section

variable {ptr size : Nat}

lemma poisonOnFreeSmall_eq (s : State) (ptr : Nat) (k : SizeClass) : ∃ memory,
    poisonOnFreeSmall s ptr (sizeClasses k) = s.setMemory memory ∧
    ∀ a, a < ptr ∨ ptr + sizeClasses k ≤ a → memory a = s.memory a := by
  unfold poisonOnFreeSmall
  split
  · exact ⟨s.memory, rfl, fun _ _ => rfl⟩
  · refine ⟨_, rfl, fun a ha => if_neg fun hin => ?_⟩
    split at hin <;> omega
  · exact ⟨_, rfl, fun a ha => if_neg fun hin => by omega⟩

lemma Heap.poison (h : Heap s live G place hand) (he : e ∈ live)
    (hx : e.1 = x + headerSize) (hk : G.Carved k x) :
    ∃ memory, poisonOnFreeSmall s e.1 (sizeClasses k) = s.setMemory memory ∧
      Heap (s.setMemory memory) live G place hand := by
  obtain ⟨memory, hp, hm⟩ := poisonOnFreeSmall_eq s e.1 k
  refine ⟨memory, hp, h.setMemory (h.stocked.write he hx hk fun a ha => hm a ?_)⟩
  rw [hx]
  exact ha.imp_right fun ha => by rwa [Nat.add_assoc]

lemma Heap.push (h : Heap s live G place none) (hm : s.caches cpu k = some m)
    (hc : (s.magazines m).count < magazineCapacity) (he : e ∈ live) (hx : e.1 = x + headerSize)
    (hk : G.Carved k x) :
    Heap (s.setMagazine m ((s.magazines m).push x)) (live.filter (·.1 ≠ e.1)) G place none := by
  refine h.setActive hm rfl hc (fun y hy => ?_) (h.stocked.put he ?_)
  · rw [contents_push] at hy
    obtain hy | hy := List.mem_append.mp hy
    · exact h.carved_of_active hm hy
    · rwa [List.mem_singleton.mp hy]
  · rw [hx, Nat.add_sub_cancel, contents_push]

-- The part of `freeSmall` for a new magazine.
def freeToNew (s : State) (cpu : Cpu) (k : SizeClass) (m : MagazineId) (ptr : Nat) : State :=
  let s := poisonOnFreeSmall s ptr (sizeClasses k)
  let s := s.setMagazine m { s.magazines m with
    blocks := update (s.magazines m).blocks 0 (ptr - headerSize), count := 1, next := none }
  s.setCache cpu k (some m)

lemma poisonOnFreeSmall_setCache :
    poisonOnFreeSmall (s.setCache cpu k a) ptr size = (poisonOnFreeSmall s ptr size).setCache cpu k a := by
  unfold poisonOnFreeSmall
  rw [State.setCache]
  dsimp only
  split <;> rfl

lemma freeToNew_setCache :
    freeToNew (s.setCache cpu k a) cpu k m ptr = freeToNew s cpu k m ptr := by
  unfold freeToNew
  simp only [poisonOnFreeSmall_setCache]
  exact setCache_setCache (s := (poisonOnFreeSmall s ptr (sizeClasses k)).setMagazine m _)

lemma allocMagazine_setCache : allocMagazine (s.setCache cpu k a) =
    (allocMagazine s).map fun r => (r.1, r.2.setCache cpu k a) := by
  unfold allocMagazine
  rw [Option.map_map]
  rfl

-- Without room, the active magazine is flushed first.
lemma freeSmall_eq (hr : roomyMagazine s cpu k = none) : freeSmall s cpu k ptr =
    match allocMagazine (flushCache s cpu k) with
    | none => .error .panic
    | some (m, t) => .ok (freeToNew t cpu k m ptr) := by
  unfold freeSmall flushCache
  rw [hr]
  rcases s.caches cpu k with _ | o
  · dsimp only
    cases allocMagazine s <;> rfl
  dsimp only
  rw [allocMagazine_setCache]
  cases ha : allocMagazine (depotReturn s o k)
  case none => rfl
  case some r => exact congrArg Except.ok freeToNew_setCache.symm

lemma Heap.freeToNew (h : Heap s live G place (some (m, k)))
    (hz : (s.magazines m).count = 0) (hc : s.caches cpu k = none) (he : e ∈ live) (hx : e.1 = x + headerSize)
    (hk : G.Carved k x) : Heap (freeToNew s cpu k m e.1) (live.filter (·.1 ≠ e.1)) G
      (update place m (some (.active cpu k))) none := by
  have hinstall : Heap (s.setCache cpu k (some m)) live G _ none :=
    h.install fun o ho => by
      rw [hc] at ho
      cases ho
  rw [hc] at hinstall
  obtain ⟨memory, hp, hpoison⟩ := hinstall.poison he hx hk
  have hcache : ((s.setCache cpu k (some m)).setMemory memory).caches cpu k = some m := by
    simp [State.setCache, State.setMemory]
  have hpush := hpoison.push hcache (hz.trans_lt (by decide)) he hx hk
  have hnext : (s.magazines m).next = none := (h.held m k rfl).2
  have hmag : (s.magazines m).push x =
      { s.magazines m with blocks := update (s.magazines m).blocks 0 x, count := 1, next := none } := by
    rw [Magazine.push, hz, hnext]
  have heq : MagazineHeap.freeToNew s cpu k m e.1 =
      ((s.setCache cpu k (some m)).setMemory memory).setMagazine m ((s.magazines m).push x) := by
    rw [← freeToNew_setCache (a := some m), MagazineHeap.freeToNew, hp, hx, Nat.add_sub_cancel, hmag]
    simp [State.setCache, State.setMagazine, State.setMemory]
  rw [heq]
  exact hpush

lemma flushCache_caches (s : State) (cpu : Cpu) (k : SizeClass) :
    (flushCache s cpu k).caches cpu k = none := by
  unfold flushCache
  split
  · simp [State.setCache]
  case h_2 h => exact h

lemma depotReturn_pool (s : State) (m : MagazineId) (k : SizeClass) :
    (depotReturn s m k).magazinePoolHead = s.magazinePoolHead := by
  unfold depotReturn
  dsimp only
  split
  · rfl
  · split <;> rfl

lemma flushCache_pool (s : State) (cpu : Cpu) (k : SizeClass) :
    (flushCache s cpu k).magazinePoolHead = s.magazinePoolHead := by
  unfold flushCache
  split
  · exact depotReturn_pool ..
  · rfl

lemma freeToNew_depots : (freeToNew s cpu k m ptr).depots = s.depots := by
  unfold freeToNew poisonOnFreeSmall
  dsimp only
  split <;> rfl

lemma Fill.of_eq_full : Fill.of count = .full ↔ magazineCapacity ≤ count := by
  unfold Fill.of
  split
  case isTrue h => exact iff_of_true rfl h
  case isFalse h =>
    refine iff_of_false ?_ h
    split <;> nofun

lemma full_of_roomy_eq_none (hr : roomyMagazine s cpu k = none) (hm : s.caches cpu k = some m) :
    magazineCapacity ≤ (s.magazines m).count := by
  rw [roomyMagazine, hm] at hr
  simpa using hr

lemma Heap.flushCache_depots (h : Heap s live G place none) (hr : roomyMagazine s cpu k = none) (hf : f ≠ .full) :
    (MagazineHeap.flushCache s cpu k).depots k f = s.depots k f := by
  unfold MagazineHeap.flushCache
  split
  case h_1 m hm =>
    rw [depotReturn_eq (h.bound m), Fill.of_eq_full.mpr (full_of_roomy_eq_none hr hm)]
    simp [MagazineHeap.pushDepot, State.setCache, State.setDepot, State.setMagazine, hf]
  case h_2 => rfl

def headerClass (s : State) (ptr : Nat) : Nat :=
  s.memory (ptr - headerSize + 8) % 256

-- A free takes a magazine from the pool.
structure Takes (s : State) (cpu : Cpu) (ptr : Nat) (place place' : MagazineId → Option Place) (t : State)
    (k : SizeClass) : Prop where
  header : headerClass s ptr = k
  roomy : roomyMagazine s cpu k = none
  depots : ∀ f ≠ .full, t.depots k f = s.depots k f
  placed : ∀ n, place' n = none → place n = none
  serves : ∀ n k', k' ≠ k → Serves place' n k' → Serves place n k'
  count : ∃ m, place' m = some (.active cpu k) ∧ (t.magazines m).count = 1

-- An allocation that is freed is put in a magazine, unless the pool is exhausted.
lemma Heap.magazineFree (h : Heap s live G place none) (cpu : Cpu) (he : e ∈ live) :
    magazineFree s cpu e.1 = .error .panic ∧ s.magazinePoolHead = none ∧
      (∃ k : SizeClass, headerClass s e.1 = k ∧ roomyMagazine s cpu k = none) ∨
    ∃ t, magazineFree s cpu e.1 = .ok t ∧ ∃ place', Heap t (live.filter (·.1 ≠ e.1)) G place' none ∧
      (Kept place place' ∨ ∃ k, Takes s cpu e.1 place place' t k) := by
  obtain ⟨x, k, hx, hk, -, hmagic, hidx⟩ := h.stocked.live e he
  have hheader : headerClass s e.1 = k := by rw [headerClass, hx, Nat.add_sub_cancel, hidx]
  have hfree : MagazineHeap.magazineFree s cpu e.1 = freeSmall s cpu k e.1 := by
    have hne : e.1 ≠ 0 := by rw [hx]; exact Nat.succ_ne_zero _
    unfold MagazineHeap.magazineFree
    rw [if_neg hne]
    dsimp only
    rw [hx, Nat.add_sub_cancel, if_neg (not_not.mpr hmagic)]
    simp only [hidx, k.isLt, dif_pos]
  rw [hfree]
  cases hr : roomyMagazine s cpu k
  case some m =>
    obtain ⟨hm, hc⟩ := Option.filter_eq_some_iff.mp hr
    obtain ⟨memory, hp, hpoison⟩ := h.poison he hx hk
    refine .inr ⟨_, by rw [freeSmall, hr]; rfl, place, ?_, .inl (.refl place)⟩
    rw [hp, hx, Nat.add_sub_cancel, ← hx]
    exact hpoison.push hm (by simpa using hc : (s.magazines m).count < magazineCapacity) he hx hk
  case none =>
    rw [freeSmall_eq hr]
    obtain ⟨place1, hflush, hp1⟩ := h.flushCache cpu k
    rcases ha : MagazineHeap.allocMagazine (MagazineHeap.flushCache s cpu k) with _ | r
    · refine .inl ⟨rfl, ?_, k, hheader, hr⟩
      rw [← flushCache_pool s cpu k]
      exact Option.map_eq_none_iff.mp ha
    obtain ⟨-, hz, hre, hcaches, halloc⟩ := hflush.allocMagazine k ha
    have hc : r.2.caches cpu k = none := by rw [hcaches, flushCache_caches]
    have hnew := halloc.freeToNew ((hre.count _).trans hz) hc he hx hk
    rw [update_idem] at hnew
    refine .inr ⟨_, rfl, _, hnew, .inr ⟨k, hheader, hr, fun f hf => ?_, fun n hn => ?_, fun n k' hk' hn => ?_, ?_⟩⟩
    · rw [freeToNew_depots, ← h.flushCache_depots hr hf]
      obtain ⟨m, -, hm⟩ := Option.map_eq_some_iff.mp ha
      rw [← hm]
      rfl
    · by_cases hnm : n = r.1
      · rw [hnm, update_self] at hn
        cases hn
      · rw [update_of_ne hnm] at hn
        exact hp1.placed n hn
    · obtain ⟨p, hp, hpk⟩ := hn
      by_cases hnm : n = r.1
      case pos =>
        rw [hnm, update_self] at hp
        cases hp
        exact absurd (Option.some.inj hpk).symm hk'
      rw [update_of_ne hnm] at hp
      exact hp1.serves n k' ⟨p, hp, hpk⟩
    · refine ⟨r.1, update_self .., ?_⟩
      unfold MagazineHeap.freeToNew
      simp [State.setCache, State.setMagazine]

end

end MagazineHeap
