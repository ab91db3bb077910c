import VoidFrame.Mem.Theorems.Shelf

-- Where the blocks are.

namespace MagazineHeap

open Function (update update_of_ne update_self)

section

variable {ι : Type} [Fintype ι] {f : ι → Multiset Nat} {i j : ι} {x : Nat}

-- A sum over a large type, which must not be unfolded.
@[irreducible]
def total (f : ι → Multiset Nat) : Multiset Nat :=
  ∑ i, f i

lemma mem_total : x ∈ total f ↔ ∃ i, x ∈ f i := by
  rw [total, Multiset.mem_sum]
  simp

lemma eq_of_count_total_le [DecidableEq ι] (h : (total f).count x ≤ 1) (hi : x ∈ f i) (hj : x ∈ f j) :
    i = j := by
  by_contra hij
  rw [total, Multiset.count_sum'] at h
  have hpair : ∑ n ∈ {i, j}, (f n).count x ≤ ∑ n, (f n).count x :=
    Finset.sum_le_sum_of_subset (Finset.subset_univ _)
  rw [Finset.sum_pair hij] at hpair
  have := Multiset.count_pos.mpr hi
  have := Multiset.count_pos.mpr hj
  omega

lemma total_update [DecidableEq ι] : total (update f i a) + f i = total f + a := by
  have hrest : ∑ n ∈ Finset.univ.erase i, update f i a n = ∑ n ∈ Finset.univ.erase i, f n :=
    Finset.sum_congr rfl fun n hn => update_of_ne (Finset.ne_of_mem_erase hn) ..
  rw [total, total, ← Finset.add_sum_erase _ _ (Finset.mem_univ i), hrest, update_self,
    ← Finset.add_sum_erase _ f (Finset.mem_univ i)]
  abel

end

section

variable {mag : Magazine} {b : Nat}

def Magazine.contents (mag : Magazine) : List Nat :=
  (List.range mag.count).map mag.blocks

lemma contents_push : (mag.push b).contents = mag.contents ++ [b] := by
  have hsame : (List.range mag.count).map (update mag.blocks mag.count b) = mag.contents := by
    refine List.map_congr_left fun i hi => update_of_ne ?_ ..
    exact (List.mem_range.mp hi).ne
  rw [Magazine.contents, Magazine.push, List.range_succ, List.map_append, hsame]
  simp

lemma contents_pop (h : mag.count ≠ 0) :
    mag.contents = { mag with count := mag.count - 1 }.contents ++ [mag.blocks (mag.count - 1)] := by
  obtain ⟨n, hn⟩ := Nat.exists_eq_succ_of_ne_zero h
  simp [Magazine.contents, hn, List.range_succ]

end

section

def blocksAt (k : SizeClass) (base : Nat) : List Nat :=
  (List.range (slabSize / chunkSize k)).map fun i => base + i * chunkSize k

lemma chunkSize_pos (k : SizeClass) : 0 < chunkSize k :=
  Nat.add_pos_left (by decide) _

lemma mem_blocksAt :
    x ∈ blocksAt k base ↔ ∃ i < slabSize / chunkSize k, x = base + i * chunkSize k := by
  simp [blocksAt, eq_comm]

lemma blocksAt_nodup (k : SizeClass) (base : Nat) : (blocksAt k base).Nodup := by
  refine List.nodup_range.map fun i j hij => ?_
  exact Nat.eq_of_mul_eq_mul_right (chunkSize_pos k) (Nat.add_left_cancel hij)

lemma blocksAt_ne_nil (k : SizeClass) (base : Nat) : blocksAt k base ≠ [] := by
  have hpos : ∀ k, slabSize / chunkSize k ≠ 0 := by decide
  rw [blocksAt, Ne, List.map_eq_nil_iff, List.range_eq_nil]
  exact hpos k

lemma le_of_mem_blocksAt (h : x ∈ blocksAt k base) :
    base ≤ x ∧ x + chunkSize k ≤ base + slabSize := by
  obtain ⟨i, hi, rfl⟩ := mem_blocksAt.mp h
  have hle : (i + 1) * chunkSize k ≤ slabSize :=
    (Nat.mul_le_mul_right _ hi).trans (Nat.div_mul_le_self ..)
  rw [Nat.add_mul, Nat.one_mul] at hle
  omega

def opt (a : Nat) : Option Nat :=
  if a = 0 then none else some a

-- The free list runs through the first words of the blocks.
def link (memory : Nat → Nat) (b : Nat) : Option Nat :=
  opt (memory b)

lemma opt_eq_some : opt a = some b ↔ a ≠ 0 ∧ a = b := by
  unfold opt
  split <;> simp_all

variable {memory memory' : Nat → Nat} {slab : Slab} {mag : Magazine} {l : List Nat}

-- A free list of a slab.
structure Slab.Frees (memory : Nat → Nat) (slab : Slab) (l : List Nat) : Prop where
  holds : Stack.Holds (link memory) (opt slab.freeListHead) l
  length : slab.freeBlocks = l.length

-- Some blocks are moved from the free list to the magazine.
structure Filled (memory : Nat → Nat) (slab slab' : Slab) (mag mag' : Magazine) (taken rest : List Nat) :
    Prop where
  frees : slab'.Frees memory rest
  slab : ∃ head blocks, slab' = { slab with freeListHead := head, freeBlocks := blocks }
  contents : mag'.contents = mag.contents ++ taken
  count : mag'.count = mag.count + taken.length
  next : mag'.next = mag.next

lemma fill_filled (n : Nat) (mag : Magazine) (h : slab.Frees memory l) : ∃ taken rest, l = taken ++ rest ∧
    taken.length ≤ n ∧ (0 < n → l ≠ [] → taken ≠ []) ∧
    Filled memory slab (fill memory n slab mag).1 mag (fill memory n slab mag).2 taken rest := by
  induction n generalizing slab mag l
  case zero =>
    exact ⟨[], l, rfl, Nat.le_refl _, by simp, h, ⟨_, _, rfl⟩, by simp [fill], by simp [fill], rfl⟩
  case succ n ih =>
    rcases l with _ | ⟨b, l⟩
    · have hz : slab.freeBlocks = 0 := h.length
      rw [fill, if_pos hz]
      exact ⟨[], [], rfl, Nat.zero_le _, by simp, h, ⟨_, _, rfl⟩, by simp, by simp, rfl⟩
    have hz : slab.freeBlocks = l.length + 1 := h.length
    obtain ⟨hb, hl⟩ := h.holds
    obtain ⟨hne, hb⟩ := opt_eq_some.mp hb
    rw [fill, if_neg (by omega)]
    dsimp only
    rw [if_neg hne, hb]
    have hrest : { slab with freeListHead := memory b, freeBlocks := slab.freeBlocks - 1 }.Frees memory l :=
      ⟨hl, by dsimp only; omega⟩
    obtain ⟨taken, rest, he, hlen, -, hf⟩ := ih (mag.push b) hrest
    obtain ⟨head, blocks, hs⟩ := hf.slab
    refine ⟨b :: taken, rest, by rw [he, List.cons_append], Nat.succ_le_succ hlen, by simp,
      hf.frees, ⟨head, blocks, hs⟩, ?_, ?_, hf.next⟩
    · rw [hf.contents, contents_push, List.append_assoc]
      rfl
    · rw [hf.count, List.length_cons]
      exact Nat.add_right_comm ..

lemma fillFrom_eq_some
    (h : fillFrom memory mag slabs = some r) : ∃ xs slab ys, slabs = xs ++ slab :: ys ∧ 0 < slab.freeBlocks ∧
      r = (xs ++ (fill memory magazineCapacity slab mag).1 :: ys, (fill memory magazineCapacity slab mag).2) := by
  induction slabs generalizing r
  case nil => cases h
  case cons slab slabs ih =>
    rw [fillFrom] at h
    split at h
    case isTrue hf => exact ⟨[], slab, slabs, rfl, hf, (Option.some.inj h).symm⟩
    case isFalse hf =>
      obtain ⟨⟨slabs', mag'⟩, hr, rfl⟩ := Option.map_eq_some_iff.mp h
      obtain ⟨xs, σ, ys, rfl, hσ, he⟩ := ih hr
      refine ⟨slab :: xs, σ, ys, rfl, hσ, ?_⟩
      cases he
      rfl

lemma buildFreeList_holds (memory : Nat → Nat) (n : Nat) (hb : base ≠ 0) (hs : 0 < size) :
    let r := buildFreeList base size n (0, memory)
    Stack.Holds (link r.2) (opt r.1) ((List.range n).map fun i => base + i * size).reverse ∧
    ∀ a, (∀ i < n, a ≠ base + i * size) → r.2 a = memory a := by
  induction n
  case zero => exact ⟨rfl, fun a _ => rfl⟩
  case succ n ih =>
    obtain ⟨hl, hm⟩ := ih
    rw [buildFreeList]
    dsimp only at hl hm ⊢
    generalize buildFreeList base size n (0, memory) = r at hl hm ⊢
    have hinj {i : Nat} (hi : i < n) : base + i * size ≠ base + n * size := by
      intro he
      have := Nat.eq_of_mul_eq_mul_right hs (Nat.add_left_cancel he)
      omega
    refine ⟨?_, fun a ha => ?_⟩
    · rw [List.range_succ, List.map_append, List.reverse_append]
      refine ⟨opt_eq_some.mpr ⟨by omega, rfl⟩, ?_⟩
      rw [link, update_self]
      refine hl.congr fun b hb => ?_
      obtain ⟨i, hi, rfl⟩ := List.mem_map.mp (List.mem_reverse.mp hb)
      rw [link, link, update_of_ne (hinj (List.mem_range.mp hi))]
    · rw [update_of_ne (ha n (Nat.lt_succ_self n))]
      exact hm a fun i hi => ha i (Nat.lt_succ_of_lt hi)

lemma newSlab_frees (memory : Nat → Nat) (k : SizeClass) (hb : base ≠ 0) :
    (newSlab k base memory).1.Frees (newSlab k base memory).2 (blocksAt k base).reverse ∧
    (∀ a, a ∉ blocksAt k base → (newSlab k base memory).2 a = memory a) := by
  obtain ⟨hl, hm⟩ := buildFreeList_holds memory (slabSize / chunkSize k) hb (chunkSize_pos k)
  refine ⟨⟨hl, ?_⟩, fun a ha => hm a fun i hi he => ha (mem_blocksAt.mpr ⟨i, hi, he⟩)⟩
  simp [newSlab, blocksAt]

end

-- The slabs: where they start, their size classes, and their free lists.
structure Ground where
  bases : Finset Nat
  kind : Nat → SizeClass
  free : Nat → List Nat

namespace Ground

def Carved (G : Ground) (k : SizeClass) (x : Nat) : Prop :=
  ∃ b ∈ G.bases, G.kind b = k ∧ x ∈ blocksAt k b

def carved (G : Ground) : Multiset Nat :=
  ∑ b ∈ G.bases, (blocksAt (G.kind b) b : Multiset Nat)

def freed (G : Ground) : Multiset Nat :=
  ∑ b ∈ G.bases, (G.free b : Multiset Nat)

def setFree (G : Ground) (b : Nat) (l : List Nat) : Ground :=
  { G with free := update G.free b l }

def add (G : Ground) (k : SizeClass) (base : Nat) : Ground where
  bases := insert base G.bases
  kind := update G.kind base k
  free := update G.free base (blocksAt k base).reverse

-- The slabs do not overlap.
structure Wf (G : Ground) : Prop where
  ne_zero : ∀ b ∈ G.bases, b ≠ 0
  apart : ∀ b ∈ G.bases, ∀ b' ∈ G.bases, b ≠ b' → b + slabSize ≤ b' ∨ b' + slabSize ≤ b

variable {G : Ground} {k k' : SizeClass} {x y b b' : Nat}

lemma freed_setFree (hb : b ∈ G.bases) : (G.setFree b l).freed + G.free b = G.freed + l := by
  have hrest : ∑ b' ∈ G.bases.erase b, ((G.setFree b l).free b' : Multiset Nat) =
      ∑ b' ∈ G.bases.erase b, (G.free b' : Multiset Nat) := by
    refine Finset.sum_congr rfl fun b' hb' => ?_
    have hne : (G.setFree b l).free b' = G.free b' :=
      update_of_ne (Finset.ne_of_mem_erase hb') ..
    rw [hne]
  have hself : (G.setFree b l).free b = l := update_self ..
  have hnew : (G.setFree b l).freed = l + ∑ b' ∈ G.bases.erase b, (G.free b' : Multiset Nat) :=
    calc
      (G.setFree b l).freed = (G.setFree b l).free b +
          ∑ b' ∈ G.bases.erase b, ((G.setFree b l).free b' : Multiset Nat) :=
        (Finset.add_sum_erase G.bases (fun b' => ((G.setFree b l).free b' : Multiset Nat)) hb).symm
      _ = l + ∑ b' ∈ G.bases.erase b, (G.free b' : Multiset Nat) := by rw [hself, hrest]
  have hold : G.freed = G.free b + ∑ b' ∈ G.bases.erase b, (G.free b' : Multiset Nat) :=
    (Finset.add_sum_erase _ _ hb).symm
  rw [hnew, hold]
  abel

lemma carved_add (hb : b ∉ G.bases) : (G.add k b).carved = blocksAt k b + G.carved := by
  have hself : (G.add k b).kind b = k := update_self ..
  rw [carved, add, Finset.sum_insert hb, ← add, hself]
  refine congrArg _ (Finset.sum_congr rfl fun b' hb' => ?_)
  have hne : (G.add k b).kind b' = G.kind b' := update_of_ne (fun he : b' = b => hb (he ▸ hb')) ..
  rw [hne]

lemma carved_of_add (hb : b ∉ G.bases) (hx : G.Carved k' x) : (G.add k b).Carved k' x := by
  obtain ⟨b', hm, hk, hx⟩ := hx
  have hne : b' ≠ b := by
    rintro rfl
    exact hb hm
  exact ⟨b', Finset.mem_insert_of_mem hm, (update_of_ne hne ..).trans hk, hx⟩

lemma freed_add (hb : b ∉ G.bases) : (G.add k b).freed = (blocksAt k b).reverse + G.freed := by
  have hself : (G.add k b).free b = (blocksAt k b).reverse := update_self ..
  rw [freed, add, Finset.sum_insert hb, ← add, hself]
  refine congrArg _ (Finset.sum_congr rfl fun b' hb' => ?_)
  have hne : (G.add k b).free b' = G.free b' := update_of_ne (fun he : b' = b => hb (he ▸ hb')) ..
  rw [hne]

lemma Wf.eq_of_mem (h : G.Wf) (hb : b ∈ G.bases) (hb' : b' ∈ G.bases) (hx : x ∈ blocksAt k b)
    (hx' : x ∈ blocksAt k' b') : b = b' := by
  by_contra hne
  have := le_of_mem_blocksAt hx
  have := le_of_mem_blocksAt hx'
  have := chunkSize_pos k
  have := chunkSize_pos k'
  have := h.apart b hb b' hb' hne
  omega

lemma Wf.blocks_apart (h : G.Wf) (hx : G.Carved k x) (hy : G.Carved k' y) (hne : x ≠ y) :
    x + chunkSize k ≤ y ∨ y + chunkSize k' ≤ x := by
  obtain ⟨b, hb, rfl, hx⟩ := hx
  obtain ⟨b', hb', rfl, hy⟩ := hy
  by_cases he : b = b'
  case neg =>
    have := le_of_mem_blocksAt hx
    have := le_of_mem_blocksAt hy
    have := h.apart b hb b' hb' he
    omega
  case pos =>
    subst he
    obtain ⟨i, -, rfl⟩ := mem_blocksAt.mp hx
    obtain ⟨j, -, rfl⟩ := mem_blocksAt.mp hy
    have hij : i ≠ j := fun hij => hne (by rw [hij])
    obtain hij | hij := Nat.lt_or_gt_of_ne hij
    · have := Nat.mul_le_mul_right (chunkSize (G.kind b)) hij
      rw [Nat.succ_mul] at this
      omega
    · have := Nat.mul_le_mul_right (chunkSize (G.kind b)) hij
      rw [Nat.succ_mul] at this
      omega

lemma mem_carved : x ∈ G.carved ↔ ∃ k, G.Carved k x := by
  simp [carved, Carved, Multiset.mem_sum]

-- A block belongs to one slab.
lemma Wf.count_carved_le (h : G.Wf) (x : Nat) : G.carved.count x ≤ 1 := by
  rw [carved, Multiset.count_sum']
  by_cases hx : ∃ b ∈ G.bases, x ∈ blocksAt (G.kind b) b
  case neg =>
    rw [Finset.sum_eq_zero]
    · exact Nat.zero_le 1
    · intro b hb
      rw [Multiset.count_eq_zero, Multiset.mem_coe]
      exact fun hm => hx ⟨b, hb, hm⟩
  case pos =>
    obtain ⟨b, hb, hx⟩ := hx
    rw [Finset.sum_eq_single_of_mem b hb]
    · exact Multiset.nodup_iff_count_le_one.mp (Multiset.coe_nodup.mpr (blocksAt_nodup ..)) x
    · intro b' hb' hne
      rw [Multiset.count_eq_zero, Multiset.mem_coe]
      exact fun hm => hne (h.eq_of_mem hb' hb hm hx)

end Ground

section

def stock (s : State) : Multiset Nat :=
  total fun m => ((s.magazines m).contents : Multiset Nat)

variable {s t : State} {G : Ground} {live : List (Nat × Nat)} {k : SizeClass} {m : MagazineId}
  {mag : Magazine} {x : Nat} {memory : Nat → Nat}

lemma stock_congr (h : t.magazines = s.magazines) : stock t = stock s := by
  rw [stock, h, stock]

lemma stock_setMagazine (s : State) (m : MagazineId) (mag : Magazine) :
    stock (s.setMagazine m mag) + (s.magazines m).contents = stock s + mag.contents := by
  have hf : (fun n => (((s.setMagazine m mag).magazines n).contents : Multiset Nat)) =
      update (fun n => ((s.magazines n).contents : Multiset Nat)) m mag.contents := by
    funext n
    by_cases hn : n = m
    · simp [State.setMagazine, hn]
    · simp [State.setMagazine, hn]
  rw [stock, hf]
  exact total_update

lemma mem_stock (hx : x ∈ (s.magazines m).contents) : x ∈ stock s :=
  mem_total.mpr ⟨m, hx⟩

structure SlabOk (memory : Nat → Nat) (G : Ground) (k : SizeClass) (slab : Slab) : Prop where
  base : slab.basePtr ∈ G.bases
  kind : G.kind slab.basePtr = k
  size : slab.blockSize = chunkSize k
  total : slab.totalBlocks = slabSize / chunkSize k
  frees : slab.Frees memory (G.free slab.basePtr)
  sub : ∀ x ∈ G.free slab.basePtr, x ∈ blocksAt k slab.basePtr

lemma SlabOk.congr (h : SlabOk memory G k slab) (hb : slab.basePtr ∈ G'.bases)
    (hk : G'.kind slab.basePtr = G.kind slab.basePtr) (hf : G'.free slab.basePtr = G.free slab.basePtr) :
    SlabOk memory G' k slab :=
  ⟨hb, hk.trans h.kind, h.size, h.total, hf ▸ h.frees, hf ▸ h.sub⟩

def Live (memory : Nat → Nat) (G : Ground) (e : Nat × Nat) : Prop :=
  ∃ x k, e.1 = x + headerSize ∧ G.Carved k x ∧ e.2 ≤ sizeClasses k ∧
    memory x = magazineBlockMagic ∧ memory (x + 8) % 256 = k

def liveBlocks (live : List (Nat × Nat)) : Multiset Nat :=
  (live.map (·.1 - headerSize) : List Nat)

-- The blocks of the slabs are free, in magazines or live.
structure Stocked (s : State) (live : List (Nat × Nat)) (G : Ground) : Prop where
  wf : G.Wf
  slabs : ∀ k, ∀ slab ∈ s.slabs k, SlabOk s.memory G k slab
  nodup : ∀ k, ((s.slabs k).map Slab.basePtr).Nodup
  onto : ∀ b ∈ G.bases, ∃ slab ∈ s.slabs (G.kind b), slab.basePtr = b
  total : G.carved = G.freed + stock s + liveBlocks live
  live : ∀ e ∈ live, Live s.memory G e

namespace Stocked

lemma congr (h : Stocked s live G) (hs : t.slabs = s.slabs) (hm : t.memory = s.memory)
    (hc : stock t = stock s) : Stocked t live G :=
  ⟨h.wf, hs ▸ hm ▸ h.slabs, hs ▸ h.nodup, hs ▸ h.onto, hc ▸ h.total, hm ▸ h.live⟩

lemma count_le (h : Stocked s live G) (x : Nat) :
    G.freed.count x + (stock s).count x + (liveBlocks live).count x ≤ 1 := by
  rw [← Multiset.count_add, ← Multiset.count_add, ← h.total]
  exact h.wf.count_carved_le x

lemma notMem_free (h : Stocked s live G) (hx : x ∈ stock s + liveBlocks live)
    (hb : b ∈ G.bases) : x ∉ G.free b := by
  intro hf
  have hfree : 0 < G.freed.count x :=
    Multiset.count_pos.mpr (Multiset.mem_sum.mpr ⟨b, hb, Multiset.mem_coe.mpr hf⟩)
  have hrest := Multiset.count_pos.mpr hx
  rw [Multiset.count_add] at hrest
  have := h.count_le x
  omega

lemma mem_liveBlocks (he : e ∈ live) : e.1 - headerSize ∈ liveBlocks live :=
  Multiset.mem_coe.mpr (List.mem_map_of_mem he)

-- The words of a block that is not free can be written.
lemma setMemory (h : Stocked s live G) (hx : G.Carved k x) (hfree : ∀ b ∈ G.bases, x ∉ G.free b)
    (hm : ∀ a, a < x ∨ x + chunkSize k ≤ a → memory a = s.memory a)
    (hlive : ∀ e ∈ live, e.1 = x + headerSize → Live memory G e) : Stocked (s.setMemory memory) live G := by
  have hother {k' : SizeClass} {y : Nat} (hy : G.Carved k' y) (hne : y ≠ x) (i : Nat) (hi : i < chunkSize k') :
      memory (y + i) = s.memory (y + i) := by
    refine hm _ ?_
    have := h.wf.blocks_apart hx hy hne.symm
    omega
  have htotal : stock (s.setMemory memory) = stock s := stock_congr rfl
  refine ⟨h.wf, fun k' slab hs => ?_, h.nodup, h.onto, htotal ▸ h.total, fun e he => ?_⟩
  · obtain ⟨hb, hk, hsize, htotal, hf, hsub⟩ := h.slabs k' slab hs
    refine ⟨hb, hk, hsize, htotal, ⟨hf.holds.congr fun y hy => ?_, hf.length⟩, hsub⟩
    have hne : y ≠ x := by
      rintro rfl
      exact hfree _ hb hy
    exact congrArg opt (hother ⟨_, hb, hk, hsub y hy⟩ hne 0 (chunkSize_pos _))
  · obtain ⟨y, k', hy, hc, hle, hmagic, hidx⟩ := h.live e he
    by_cases hne : y = x
    case pos => exact hlive e he (hne ▸ hy)
    refine ⟨y, k', hy, hc, hle, ?_, ?_⟩
    · exact (hother hc hne 0 (chunkSize_pos _)).trans hmagic
    · have h8 := hother hc hne 8 (Nat.lt_of_lt_of_le (by decide) (Nat.le_add_right headerSize _))
      exact (congrArg (· % 256) h8).trans hidx

lemma fill (h : Stocked s live G)
    (hs : s.slabs k = xs ++ slab :: ys) (hl : G.free slab.basePtr = taken ++ rest)
    (hf : Filled s.memory slab slab' (s.magazines m) mag taken rest) :
    Stocked ((s.setSlabs k (xs ++ slab' :: ys)).setMagazine m mag) live (G.setFree slab.basePtr rest) := by
  have hslab := h.slabs k slab (hs ▸ List.mem_append_right _ (.head _))
  have hbase : slab'.basePtr = slab.basePtr := by
    obtain ⟨head, blocks, he⟩ := hf.slab
    rw [he]
  have hbases (k' : SizeClass) : ((s.setSlabs k (xs ++ slab' :: ys)).slabs k').map Slab.basePtr =
      (s.slabs k').map Slab.basePtr := by
    by_cases hk : k' = k
    · simp [State.setSlabs, hk, hs, hbase]
    · simp [State.setSlabs, hk]
  have hnodup := h.nodup k
  rw [hs, List.map_append, List.map_cons] at hnodup
  -- the other slabs start elsewhere
  have hother {k' : SizeClass} {σ : Slab} (hσ : σ ∈ s.slabs k') (hne : σ.basePtr ≠ slab.basePtr) :
      SlabOk s.memory (G.setFree slab.basePtr rest) k' σ :=
    (h.slabs k' σ hσ).congr (h.slabs k' σ hσ).base rfl (update_of_ne hne ..)
  have hself : SlabOk s.memory (G.setFree slab.basePtr rest) k slab' := by
    have hfree : (G.setFree slab.basePtr rest).free slab'.basePtr = rest := by
      rw [hbase]
      exact update_self ..
    obtain ⟨head, blocks, he⟩ := hf.slab
    refine ⟨hbase ▸ hslab.base, hbase ▸ hslab.kind, by rw [he]; exact hslab.size,
      by rw [he]; exact hslab.total, hfree.symm ▸ hf.frees, fun x hx => ?_⟩
    rw [hbase]
    exact hslab.sub x (hl ▸ List.mem_append_right _ (hfree ▸ hx))
  refine ⟨⟨h.wf.ne_zero, h.wf.apart⟩, fun k' σ hσ => ?_, fun k' => (hbases k').symm ▸ h.nodup k', fun b hb => ?_,
    ?_, h.live⟩
  · by_cases hk : k' = k
    · subst hk
      have hσ : σ ∈ xs ++ slab' :: ys := by simpa [State.setSlabs, State.setMagazine] using hσ
      obtain hσ | hσ := List.mem_append.mp hσ
      · refine hother (hs ▸ List.mem_append_left _ hσ) fun he => ?_
        exact List.disjoint_of_nodup_append hnodup (List.mem_map_of_mem hσ) (he ▸ .head _)
      · obtain rfl | hσ := List.mem_cons.mp hσ
        · exact hself
        · refine hother (hs ▸ List.mem_append_right _ (.tail _ hσ)) fun he => ?_
          exact (List.nodup_cons.mp (List.nodup_append.mp hnodup).2.1).1 (he ▸ List.mem_map_of_mem hσ)
    · have hσ : σ ∈ s.slabs k' := by simpa [State.setSlabs, State.setMagazine, hk] using hσ
      refine hother hσ fun he => hk ?_
      rw [← (h.slabs k' σ hσ).kind, he, hslab.kind]
  · obtain ⟨σ, hσ, hb'⟩ := h.onto b hb
    have hmem : b ∈ ((s.setSlabs k (xs ++ slab' :: ys)).slabs (G.kind b)).map Slab.basePtr := by
      rw [hbases]
      exact List.mem_map.mpr ⟨σ, hσ, hb'⟩
    obtain ⟨σ', hσ', hb'⟩ := List.mem_map.mp hmem
    exact ⟨σ', hσ', hb'⟩
  · have hfreed := G.freed_setFree (l := rest) hslab.base
    have hstock := stock_setMagazine (s.setSlabs k (xs ++ slab' :: ys)) m mag
    have hcongr : stock (s.setSlabs k (xs ++ slab' :: ys)) = stock s := stock_congr rfl
    have hold : (s.setSlabs k (xs ++ slab' :: ys)).magazines m = s.magazines m := rfl
    rw [hl, ← Multiset.coe_add, ← add_assoc, add_left_inj] at hfreed
    rw [hcongr, hold, hf.contents, ← Multiset.coe_add, add_comm (↑(s.magazines m).contents : Multiset Nat),
      ← add_assoc, add_left_inj] at hstock
    have htotal : (G.setFree slab.basePtr rest).carved = G.carved := rfl
    rw [htotal, h.total, hstock, ← hfreed]
    abel

lemma addSlab (h : Stocked s live G) (hz : base ≠ 0)
    (hb : ∀ b ∈ G.bases, base + slabSize ≤ b ∨ b + slabSize ≤ base) :
    Stocked ((s.setMemory (newSlab k base s.memory).2).setSlabs k ((newSlab k base s.memory).1 :: s.slabs k)) live
      (G.add k base) := by
  obtain ⟨hfrees, hmemory⟩ := newSlab_frees s.memory k hz
  have hnot : base ∉ G.bases := fun hm => by
    have := hb base hm
    have : 0 < slabSize := by decide
    omega
  have hne {b : Nat} (hm : b ∈ G.bases) : b ≠ base := by
    rintro rfl
    exact hnot hm
  -- the new blocks are not among the old ones
  have hsame {k' : SizeClass} {x i : Nat} (hx : G.Carved k' x) (hi : i < chunkSize k') :
      (newSlab k base s.memory).2 (x + i) = s.memory (x + i) := by
    refine hmemory _ fun hm => ?_
    obtain ⟨b, hbm, -, hx⟩ := hx
    have := le_of_mem_blocksAt hm
    have := le_of_mem_blocksAt hx
    have := chunkSize_pos k
    have := hb b hbm
    omega
  constructor
  case wf =>
    refine ⟨fun b hm => ?_, fun b hm b' hm' hbb => ?_⟩
    · obtain rfl | hm := Finset.mem_insert.mp hm
      · exact hz
      · exact h.wf.ne_zero b hm
    · obtain rfl | hbm := Finset.mem_insert.mp hm
      · obtain rfl | hbm' := Finset.mem_insert.mp hm'
        · exact absurd rfl hbb
        · exact hb b' hbm'
      · obtain rfl | hbm' := Finset.mem_insert.mp hm'
        · exact (hb b hbm).symm
        · exact h.wf.apart b hbm b' hbm' hbb
  case slabs =>
    have hold {k' : SizeClass} {σ : Slab} (hσ : σ ∈ s.slabs k') :
        SlabOk (newSlab k base s.memory).2 (G.add k base) k' σ := by
      have hok := h.slabs k' σ hσ
      have hfree : (G.add k base).free σ.basePtr = G.free σ.basePtr :=
        update_of_ne (hne hok.base) ..
      refine ⟨Finset.mem_insert_of_mem hok.base, (update_of_ne (hne hok.base) ..).trans hok.kind,
        hok.size, hok.total, hfree.symm ▸ ⟨hok.frees.holds.congr fun x hx => ?_, hok.frees.length⟩,
        hfree.symm ▸ hok.sub⟩
      exact congrArg opt (hsame (i := 0) ⟨_, hok.base, hok.kind, hok.sub x hx⟩ (chunkSize_pos k'))
    have hnew : SlabOk (newSlab k base s.memory).2 (G.add k base) k (newSlab k base s.memory).1 := by
      have hfree : (G.add k base).free base = (blocksAt k base).reverse := update_self ..
      refine ⟨Finset.mem_insert_self .., update_self .., rfl, rfl, ?_, fun x hx => ?_⟩
      · exact hfree.symm ▸ hfrees
      · have hx : x ∈ (blocksAt k base).reverse := hfree ▸ hx
        exact List.mem_reverse.mp hx
    intro k' σ hσ
    by_cases hk : k' = k
    · subst hk
      have hσ : σ ∈ (newSlab k' base s.memory).1 :: s.slabs k' := by simpa [State.setSlabs] using hσ
      obtain rfl | hσ := List.mem_cons.mp hσ
      · exact hnew
      · exact hold hσ
    · have hσ : σ ∈ s.slabs k' := by simpa [State.setSlabs, State.setMemory, hk] using hσ
      exact hold hσ
  case nodup =>
    intro k'
    by_cases hk : k' = k
    · subst hk
      have hmap : ((newSlab k' base s.memory).1 :: s.slabs k').map Slab.basePtr =
          base :: (s.slabs k').map Slab.basePtr := rfl
      have hnb : base ∉ (s.slabs k').map Slab.basePtr := fun hm => by
        obtain ⟨σ, hσ, he⟩ := List.mem_map.mp hm
        exact hnot (he ▸ (h.slabs k' σ hσ).base)
      simpa [State.setSlabs, hmap] using ⟨by simpa using hnb, h.nodup k'⟩
    · simpa [State.setSlabs, State.setMemory, hk] using h.nodup k'
  case onto =>
    intro b hm
    obtain rfl | hm := Finset.mem_insert.mp hm
    · have hk : (G.add k b).kind b = k := update_self ..
      rw [hk]
      exact ⟨(newSlab k b s.memory).1, by simp [State.setSlabs], rfl⟩
    · have hk : (G.add k base).kind b = G.kind b := update_of_ne (hne hm) ..
      rw [hk]
      obtain ⟨σ, hσ, he⟩ := h.onto b hm
      refine ⟨σ, ?_, he⟩
      by_cases hkk : G.kind b = k
      · rw [hkk] at hσ ⊢
        simp [State.setSlabs, hσ]
      · simpa [State.setSlabs, State.setMemory, hkk] using hσ
  case total =>
    have hstock : stock ((s.setMemory (newSlab k base s.memory).2).setSlabs k
        ((newSlab k base s.memory).1 :: s.slabs k)) = stock s := stock_congr rfl
    rw [hstock, G.carved_add hnot, G.freed_add hnot, h.total, ← Multiset.coe_reverse (blocksAt k base)]
    abel
  case live =>
    intro e he
    obtain ⟨x, k', hx, hc, hle, hmagic, hidx⟩ := h.live e he
    refine ⟨x, k', hx, G.carved_of_add hnot hc, hle, (hsame (i := 0) hc (chunkSize_pos k')).trans hmagic, ?_⟩
    have h8 : 8 < chunkSize k' := Nat.lt_of_lt_of_le (by decide) (Nat.le_add_right headerSize _)
    exact (congrArg (· % 256) (hsame hc h8)).trans hidx

lemma take (h : Stocked s live G) (hc : (s.magazines m).contents = mag.contents ++ [x])
    (hl : Live s.memory G (x + headerSize, size)) :
    Stocked (s.setMagazine m mag) ((x + headerSize, size) :: live) G := by
  refine ⟨h.wf, h.slabs, h.nodup, h.onto, ?_, List.forall_mem_cons.mpr ⟨hl, h.live⟩⟩
  have hs := stock_setMagazine s m mag
  rw [hc, ← Multiset.coe_add, add_comm (mag.contents : Multiset Nat), ← add_assoc, add_left_inj] at hs
  have hb : liveBlocks ((x + headerSize, size) :: live) = ([x] : List Nat) + liveBlocks live := rfl
  rw [h.total, hb, ← hs]
  abel

lemma liveBlocks_filter (he : e ∈ live) (hn : (live.map (·.1 - headerSize)).Nodup) :
    liveBlocks live = ([e.1 - headerSize] : List Nat) + liveBlocks (live.filter (·.1 ≠ e.1)) := by
  induction live
  case nil => cases he
  case cons f live ih =>
    rw [List.map_cons, List.nodup_cons] at hn
    obtain ⟨hf, hn⟩ := hn
    have hcons : liveBlocks (f :: live) = ([f.1 - headerSize] : List Nat) + liveBlocks live := rfl
    obtain rfl | he := List.mem_cons.mp he
    · have hkeep : live.filter (·.1 ≠ e.1) = live := by
        refine List.filter_eq_self.mpr fun g hg => ?_
        have hne : g.1 ≠ e.1 := fun hge => hf (by rw [← hge]; exact List.mem_map_of_mem hg)
        simpa using hne
      rw [List.filter_cons, if_neg (by simp), hkeep, hcons]
    · have hne : f.1 ≠ e.1 := fun hfe => hf (by rw [hfe]; exact List.mem_map_of_mem he)
      rw [List.filter_cons, if_pos (by simpa using hne), hcons, ih he hn]
      exact add_left_comm ..

lemma live_nodup (h : Stocked s live G) : (live.map (·.1 - headerSize)).Nodup := by
  refine Multiset.coe_nodup.mp (Multiset.nodup_iff_count_le_one.mpr fun x => ?_)
  have := h.count_le x
  exact Nat.le_trans (Nat.le_add_left ..) this

lemma put (h : Stocked s live G) (he : e ∈ live)
    (hc : mag.contents = (s.magazines m).contents ++ [e.1 - headerSize]) :
    Stocked (s.setMagazine m mag) (live.filter (·.1 ≠ e.1)) G := by
  refine ⟨h.wf, h.slabs, h.nodup, h.onto, ?_, fun f hf => h.live f (List.mem_of_mem_filter hf)⟩
  have hs := stock_setMagazine s m mag
  rw [hc, ← Multiset.coe_add, add_comm (↑(s.magazines m).contents : Multiset Nat), ← add_assoc,
    add_left_inj] at hs
  rw [h.total, hs, liveBlocks_filter he h.live_nodup]
  abel

lemma write (h : Stocked s live G) (he : e ∈ live) (hx : e.1 = x + headerSize) (hk : G.Carved k x)
    (hm : ∀ a, a < x + headerSize ∨ x + chunkSize k ≤ a → memory a = s.memory a) :
    Stocked (s.setMemory memory) live G := by
  have hblock : x ∈ liveBlocks live := by
    have := mem_liveBlocks he
    rwa [hx, Nat.add_sub_cancel] at this
  refine h.setMemory hk (fun b hb => h.notMem_free (Multiset.mem_add.mpr (.inr hblock)) hb)
    (fun a ha => hm a (by omega)) fun f hf hfx => ?_
  obtain ⟨y, k', hy, hc, hle, hmagic, hidx⟩ := h.live f hf
  obtain rfl : y = x := Nat.add_right_cancel (hy.symm.trans hfx)
  refine ⟨y, k', hy, hc, hle, ?_, ?_⟩
  · rw [hm y (.inl (Nat.lt_add_of_pos_right (by decide)))]
    exact hmagic
  · rw [hm (y + 8) (.inl (Nat.add_lt_add_left (by decide) y))]
    exact hidx

end Stocked

end

end MagazineHeap
