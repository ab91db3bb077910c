import VoidFrame.Mem.Theorems.Magazine

-- In every run, a block is at one place.

namespace MagazineHeap

open Function (update)

section

variable {w w' : World} {a : Action} {G : Ground} {place : MagazineId → Option Place} {memory : Nat → Nat}

lemma init_shelved (memory : Nat → Nat) : Shelved (init memory) fun _ => some .pool := by
  refine ⟨⟨_, Stack.Rows.finRange (fun m h => dif_pos h) (fun m h => dif_neg h.not_lt) (by decide) rfl ?_⟩, nofun⟩
  intro p hp
  cases p
  case pool => exact absurd rfl hp
  all_goals rfl

def Ground.none : Ground where
  bases := ∅
  kind := fun _ => 0
  free := fun _ => []

lemma init_stocked (memory : Nat → Nat) : Stocked (init memory) [] .none := by
  have hstock : stock (init memory) = 0 := by
    refine Multiset.eq_zero_of_forall_notMem fun x hx => ?_
    obtain ⟨m, hm⟩ := mem_total.mp hx
    cases hm
  refine ⟨⟨nofun, nofun⟩, fun _ _ => nofun, fun _ => List.nodup_nil, nofun, ?_, nofun⟩
  rw [hstock]
  rfl

lemma init_heap (memory : Nat → Nat) : Heap (init memory) [] .none (fun _ => some .pool) none :=
  ⟨init_shelved memory, nofun, fun _ => Nat.zero_le _, fun _ h => absurd rfl h, fun _ _ _ => nofun,
    init_stocked memory⟩

-- The magazine that an action drops.
def World.Loses (w : World) : Action → MagazineId → Prop
  | .alloc cpu size vmem, m => Drops w.state cpu size vmem m
  | _,                    _ => False

lemma Heap.store
    (h : Heap s live G place none) (he : (ptr, size) ∈ live) (hi : 8 * index < size) :
    Heap (s.setMemory (update s.memory (ptr + 8 * index) value)) live G place none := by
  obtain ⟨x, k, hx, hk, hsize, -, -⟩ := h.stocked.live _ he
  refine h.setMemory (h.stocked.write he hx hk fun a ha => Function.update_of_ne ?_ ..)
  have hx : ptr = x + headerSize := hx
  have hchunk : chunkSize k = headerSize + sizeClasses k := rfl
  have hsize : size ≤ sizeClasses k := hsize
  omega

-- What an action that drops no magazine does to the others.
inductive Moves (w : World) (a : Action) (G : Ground) (place : MagazineId → Option Place) (w' : World) :
    Ground → (MagazineId → Option Place) → Prop
  | kept {place' : MagazineId → Option Place} : Kept place place' → Moves w a G place w' G place'
  | installed {G' : Ground} {place' : MagazineId → Option Place} {cpu : Cpu} {k : SizeClass} {m : MagazineId} :
    Installs w.state cpu G place G' place' k m → w.live.length < w'.peak → Moves w a G place w' G' place'
  | taken {place' : MagazineId → Option Place} {cpu : Cpu} {ptr : Nat} {k : SizeClass} :
    a = .free cpu ptr → Takes w.state cpu ptr place place' w'.state k → Moves w a G place w' G place'

def World.Panics (w : World) (a : Action) : Prop :=
  w.state.magazinePoolHead = none ∧ ∃ cpu ptr, a = .free cpu ptr ∧
    ∃ k : SizeClass, headerClass w.state ptr = k ∧ roomyMagazine w.state cpu k = none

-- A call returns, unless it panics.
lemma Heap.step (h : Heap w.state w.live G place none) (ha : World.Legal w a) :
    (World.step w a = .error .panic ∧ w.Panics a) ∨
    ∃ w', World.step w a = .ok w' ∧ ∃ G' place', Heap w'.state w'.live G' place' none ∧
      (∀ n, place' n = none → place n = none ∨ World.Loses w a n) ∧
      ((∀ n, ¬World.Loses w a n) → Moves w a G place w' G' place') := by
  cases a
  case alloc cpu size vmem =>
    obtain ⟨r, hr, G', place', hr', hp, hm⟩ := h.magazineAlloc cpu ha.1 ha.2
    refine .inr ⟨_, by rw [World.step, hr]; rfl, G', place', hr', hp, fun hl => ?_⟩
    obtain ⟨rfl, hk⟩ | ⟨hne, k, m, hi⟩ := hm hl
    · exact .kept hk
    · refine .installed hi ?_
      obtain ⟨ptr, hptr⟩ := Option.ne_none_iff_exists'.mp hne
      simp [hptr]
  case free cpu ptr =>
    obtain ⟨size, he⟩ := ha
    obtain ⟨hr, hpool, k, hk⟩ | ⟨t, ht, place', ht', hp⟩ := h.magazineFree cpu he
    · exact .inl ⟨by rw [World.step, hr]; rfl, hpool, cpu, ptr, rfl, k, hk⟩
    · refine .inr ⟨_, by rw [World.step, ht]; rfl, G, place', ht', fun n hn => .inl ?_, fun _ => ?_⟩
      · obtain hp | ⟨k, hp⟩ := hp
        · exact hp.placed n hn
        · exact hp.placed n hn
      · obtain hp | ⟨k, hp⟩ := hp
        · exact .kept hp
        · exact .taken rfl hp
  case flush =>
    obtain ⟨place', h', hp⟩ := h.magazineFlushCaches
    generalize hs : MagazineHeap.magazineFlushCaches w.state = s at h'
    exact .inr ⟨{ w with state := s }, by rw [← hs]; rfl, G, place', h', fun n hn => .inl (hp.placed n hn),
      fun _ => .kept hp⟩
  case store ptr index value =>
    obtain ⟨size, he, hi⟩ := ha
    exact .inr ⟨_, rfl, G, place, h.store he hi, fun _ => .inl, fun _ => .kept (.refl place)⟩
  case setValidation level =>
    refine .inr ⟨{ w with state := { w.state with validation := level } }, rfl, G, place, ?_, fun _ => .inl,
      fun _ => .kept (.refl place)⟩
    exact h.relocate ⟨rfl, rfl, fun _ => rfl, fun _ => rfl⟩ ⟨h.shelved.rows, h.shelved.single⟩ h.held
      (fun _ _ _ => id) h.filled

lemma Heap.of_step (h : Heap w.state w.live G place none) (ha : World.Legal w a)
    (hs : World.step w a = .ok w') : ∃ G' place', Heap w'.state w'.live G' place' none ∧
      (∀ n, place' n = none → place n = none ∨ World.Loses w a n) ∧
      ((∀ n, ¬World.Loses w a n) → Moves w a G place w' G' place') := by
  obtain ⟨he, -⟩ | ⟨w'', he, h'⟩ := h.step ha
  · cases he.symm.trans hs
  · cases he.symm.trans hs
    exact h'

lemma World.Run.heap (h : World.Run ok w) (hok : ∀ w a, ok w a → World.Legal w a) :
    ∃ G place, Heap w.state w.live G place none := by
  refine Machine.Run.invariant (P := fun w => ∃ G place, Heap w.state w.live G place none) h ?_
    fun hw ha hs => ?_
  · rintro - ⟨memory, rfl⟩
    exact ⟨_, _, init_heap memory⟩
  · obtain ⟨G, place, hw⟩ := hw
    obtain ⟨G', place', hw', -⟩ := hw.of_step (hok _ _ ha) hs
    exact ⟨G', place', hw'⟩

end

section

variable {w : World} {s : State} {live : List (Nat × Nat)} {G : Ground} {place : MagazineId → Option Place}
  {slab : Slab} {k : SizeClass} {x : Nat} {m : MagazineId}

def magazinesAt (s : State) : Place → List MagazineId
  | .active cpu k => (s.caches cpu k).toList
  | p => Stack.walk (next s) magazinePoolSize (head s p)

lemma Shelved.mem_magazinesAt (h : Shelved s place) : m ∈ magazinesAt s p ↔ place m = some p := by
  cases p
  case active cpu k => exact Option.mem_toList.trans h.mem_active
  all_goals
    obtain ⟨L, hL⟩ := h.rows
    rw [← hL.mem]
    refine Iff.of_eq (congrArg (m ∈ ·) ((hL.holds _).walk_eq ?_))
    exact (hL.nodup _).length_le_card.trans_eq (Fintype.card_fin _)

def freeList (memory : Nat → Nat) (slab : Slab) : List Nat :=
  Stack.walk (link memory) slab.totalBlocks (opt slab.freeListHead)

-- The places of a block: the free list of its slab, a magazine, or an allocation.
inductive Owner
  | slab
  | magazine (m : MagazineId)
  | user (e : Nat × Nat)

def World.Owns (w : World) (slab : Slab) (x : Nat) : Owner → Prop
  | .slab => x ∈ freeList w.state.memory slab
  | .magazine m => x ∈ (w.state.magazines m).contents ∧ ∃ p ≠ .pool, m ∈ magazinesAt w.state p
  | .user e => e ∈ w.live ∧ e.1 = x + headerSize

lemma Stocked.freeList_eq (h : Stocked s live G) (hs : slab ∈ s.slabs k) :
    freeList s.memory slab = G.free slab.basePtr := by
  have hslab := h.slabs k slab hs
  have hnodup : (G.free slab.basePtr).Nodup := by
    refine Multiset.coe_nodup.mp (Multiset.nodup_iff_count_le_one.mpr fun x => ?_)
    have hle : (G.free slab.basePtr : Multiset Nat).count x ≤ G.freed.count x :=
      Multiset.count_le_of_le x (Finset.single_le_sum_of_canonicallyOrdered
        (f := fun b => (G.free b : Multiset Nat)) hslab.base)
    have := h.count_le x
    omega
  refine hslab.frees.holds.walk_eq ?_
  rw [hslab.total]
  have hlen := (hnodup.subperm hslab.sub).length_le
  rwa [blocksAt, List.length_map, List.length_range] at hlen

lemma Heap.mem_magazinesAt (h : Heap s live G place none) (hx : x ∈ (s.magazines m).contents) :
    ∃ p ≠ .pool, m ∈ magazinesAt s p := by
  have hz : (s.magazines m).count ≠ 0 := fun hz => by
    rw [Magazine.contents, hz] at hx
    cases hx
  obtain ⟨k, hk, -⟩ := h.kind m hz
  obtain ⟨f, hf⟩ | ⟨cpu, hc⟩ | hh := hk
  · exact ⟨.depot k f, (fun h => by cases h), h.shelved.mem_magazinesAt.mpr hf⟩
  · exact ⟨.active cpu k, (fun h => by cases h), h.shelved.mem_magazinesAt.mpr hc⟩
  · cases hh

lemma Heap.exists_owner (h : Heap w.state w.live G place none) (hs : slab ∈ w.state.slabs k)
    (hx : x ∈ blocksAt k slab.basePtr) : ∃ o, w.Owns slab x o := by
  have hslab := h.stocked.slabs k slab hs
  have hcarved : x ∈ G.carved := Ground.mem_carved.mpr ⟨k, slab.basePtr, hslab.base, hslab.kind, hx⟩
  rw [h.stocked.total, Multiset.mem_add, Multiset.mem_add] at hcarved
  obtain (hfree | hstock) | hlive := hcarved
  · obtain ⟨b, hb, hf⟩ := Multiset.mem_sum.mp hfree
    -- a block that is free in a slab belongs to it
    obtain ⟨σ, hσ, rfl⟩ := h.stocked.onto b hb
    have hbase := h.stocked.wf.eq_of_mem hb hslab.base
      ((h.stocked.slabs _ σ hσ).sub x (Multiset.mem_coe.mp hf)) hx
    refine ⟨.slab, ?_⟩
    rw [World.Owns, h.stocked.freeList_eq hs, ← hbase]
    exact Multiset.mem_coe.mp hf
  · obtain ⟨m, hm⟩ := mem_total.mp hstock
    exact ⟨.magazine m, Multiset.mem_coe.mp hm, h.mem_magazinesAt (Multiset.mem_coe.mp hm)⟩
  · obtain ⟨e, he, hex⟩ := List.mem_map.mp (Multiset.mem_coe.mp hlive)
    refine ⟨.user e, he, ?_⟩
    obtain ⟨y, -, hy, -⟩ := h.stocked.live e he
    rw [← hex, hy, Nat.add_sub_cancel]

lemma Heap.owner_unique (h : Heap w.state w.live G place none) (hs : slab ∈ w.state.slabs k)
    (ho : w.Owns slab x o) (ho' : w.Owns slab x o') : o = o' := by
  have hcount := h.stocked.count_le x
  have hfree (hx : w.Owns slab x .slab) : 0 < G.freed.count x := by
    rw [World.Owns, h.stocked.freeList_eq hs] at hx
    exact Multiset.count_pos.mpr (Multiset.mem_sum.mpr
      ⟨_, (h.stocked.slabs k slab hs).base, Multiset.mem_coe.mpr hx⟩)
  have hstock {m : MagazineId} (hx : w.Owns slab x (.magazine m)) : 0 < (stock w.state).count x :=
    Multiset.count_pos.mpr (mem_stock hx.1)
  have hlive {e : Nat × Nat} (hx : w.Owns slab x (.user e)) : 0 < (liveBlocks w.live).count x := by
    have hmem := Stocked.mem_liveBlocks hx.1
    rw [hx.2, Nat.add_sub_cancel] at hmem
    exact Multiset.count_pos.mpr hmem
  cases o
  case slab =>
    have hpos := hfree ho
    cases o'
    case slab => rfl
    case magazine m => have := hstock ho'; omega
    case user e => have := hlive ho'; omega
  case magazine m =>
    have hpos := hstock ho
    cases o'
    case slab => have := hfree ho'; omega
    case magazine n =>
      have hle : (stock w.state).count x ≤ 1 := by omega
      exact congrArg Owner.magazine (eq_of_count_total_le hle (Multiset.mem_coe.mpr ho.1) (Multiset.mem_coe.mpr ho'.1))
    case user e => have := hlive ho'; omega
  case user e =>
    have hpos := hlive ho
    cases o'
    case slab => have := hfree ho'; omega
    case magazine m => have := hstock ho'; omega
    case user f =>
      have hef : e.1 - headerSize = f.1 - headerSize := by rw [ho.2, ho'.2]
      exact congrArg Owner.user (List.inj_on_of_nodup_map h.stocked.live_nodup ho.1 ho'.1 hef)

end

section

variable {s : State} {live : List (Nat × Nat)} {G : Ground}

def Apart (e f : Nat × Nat) : Prop :=
  e.1 + e.2 ≤ f.1 ∨ f.1 + f.2 ≤ e.1

def Slab.Contains (slab : Slab) (e : Nat × Nat) : Prop :=
  slab.basePtr ≤ e.1 ∧ e.1 + e.2 ≤ slab.basePtr + slabSize

lemma Stocked.pairwise_apart (h : Stocked s live G) : live.Pairwise Apart := by
  refine h.live_nodup.of_map.pairwise_of_forall_ne fun e he f hf hne => ?_
  obtain ⟨x, k, hx, hk, hsize, -⟩ := h.live e he
  obtain ⟨y, k', hy, hk', hsize', -⟩ := h.live f hf
  have hxy : x ≠ y := by
    rintro rfl
    exact hne (List.inj_on_of_nodup_map h.live_nodup he hf (by rw [hx, hy]))
  have hapart := h.wf.blocks_apart hk hk' hxy
  have hchunk (k : SizeClass) : chunkSize k = headerSize + sizeClasses k := rfl
  rw [hchunk, hchunk] at hapart
  unfold Apart
  omega

lemma Stocked.exists_contains (h : Stocked s live G) (he : e ∈ live) :
    ∃ k, ∃ slab ∈ s.slabs k, slab.Contains e := by
  obtain ⟨x, k, hx, ⟨b, hb, rfl, hxb⟩, hsize, -⟩ := h.live e he
  obtain ⟨slab, hslab, rfl⟩ := h.onto b hb
  refine ⟨_, slab, hslab, ?_⟩
  have hle := le_of_mem_blocksAt hxb
  have hchunk : chunkSize (G.kind slab.basePtr) = headerSize + sizeClasses (G.kind slab.basePtr) := rfl
  rw [hchunk] at hle
  unfold Slab.Contains
  omega

end

-- Every block of a slab has one owner, and the allocations do not overlap.
theorem World.Run.blocks_owned {w : World} (h : World.Run World.Legal w) :
    (∀ k, ∀ slab ∈ w.state.slabs k, ∀ i < slab.totalBlocks,
      ∃! o, w.Owns slab (slab.basePtr + i * slab.blockSize) o) ∧
    w.live.Pairwise Apart ∧
    (∀ e ∈ w.live, ∃ k, ∃ slab ∈ w.state.slabs k, slab.Contains e) ∧
    (∀ m, (w.state.magazines m).count ≤ magazineCapacity) ∧
    ∀ a, World.Legal w a → ∀ e, w.step a = .error e → e = .panic ∧ w.state.magazinePoolHead = none := by
  obtain ⟨G, place, hw⟩ := World.Run.heap h fun _ _ => id
  refine ⟨fun k slab hs i hi => ?_, hw.stocked.pairwise_apart, fun e he => hw.stocked.exists_contains he,
    hw.bound, fun a ha e he => ?_⟩
  · have hslab := hw.stocked.slabs k slab hs
    rw [hslab.total] at hi
    rw [hslab.size]
    obtain ⟨o, ho⟩ := hw.exists_owner hs (mem_blocksAt.mpr ⟨i, hi, rfl⟩)
    exact ⟨o, ho, fun o' ho' => hw.owner_unique hs ho' ho⟩
  · obtain ⟨hp, hpanics⟩ | ⟨w', hw', -⟩ := hw.step ha
    · cases hp.symm.trans he
      exact ⟨rfl, hpanics.1⟩
    · cases hw'.symm.trans he

-- Blocks of two CPUs, one of which is freed, flushed and allocated again.
theorem World.Run.blocks_owned_reused : ∃ w, World.Run World.Legal w ∧
    (w.live.length = 3 ∧ (∀ k, (w.state.slabs k).length ≤ 2)) ∧
    (∀ k, ∀ slab ∈ w.state.slabs k, ∀ i < slab.totalBlocks,
      ∃! o, w.Owns slab (slab.basePtr + i * slab.blockSize) o) := by
  obtain ⟨w, hw, hlen⟩ := (Machine.Run.init ⟨fun _ => 0, rfl⟩ :
      World.Run World.Legal { state := init fun _ => 0 }).exists_of_all
    (l := [.alloc 0 1024 ⟨true, some 65536⟩, .alloc 1 1000 ⟨true, some 131072⟩, .store 65552 3 7, .free 1 65552,
      .flush, .alloc 2 769 ⟨false, none⟩, .alloc 2 16 ⟨true, some 196608⟩])
    (P := fun w => w.live.length = 3 ∧ ∀ k, (w.state.slabs k).length ≤ 2) (by decide +kernel)
  exact ⟨w, hw, hlen, (World.Run.blocks_owned hw).1⟩

end MagazineHeap
