import VoidFrame.Mem.Theorems.Ownership

-- How many magazines are in use.

namespace MagazineHeap

open Function (update)

section

variable {ι : Type} [Fintype ι] {f : ι → Multiset Nat} {D : Finset ι} {p : Nat → Prop} [DecidablePred p]

lemma countP_total : (total f).countP p = ∑ i, (f i).countP p := by
  rw [total]
  exact map_sum (Multiset.countPAddMonoidHom p) f Finset.univ

lemma countP_total_le (hz : ∀ i, i ∉ D → (f i).countP p = 0) (hc : ∀ i ∈ D, (f i).countP p ≤ c) :
    (total f).countP p ≤ c * D.card := by
  rw [countP_total, mul_comm, ← Finset.sum_subset (Finset.subset_univ D) fun i _ hi => hz i hi]
  exact Finset.sum_le_card_nsmul D _ c hc

lemma le_countP_total (hc : ∀ i ∈ D, c ≤ (f i).countP p) : c * D.card ≤ (total f).countP p := by
  rw [countP_total, mul_comm]
  calc
    D.card * c ≤ ∑ i ∈ D, (f i).countP p := Finset.card_nsmul_le_sum D _ c hc
    _ ≤ ∑ i, (f i).countP p := Finset.sum_le_sum_of_subset (Finset.subset_univ D)

lemma add_le_countP_total [DecidableEq ι] (hi : i ∉ D) (hc : ∀ j ∈ D, c ≤ (f j).countP p) :
    c * D.card + (f i).countP p ≤ (total f).countP p := by
  rw [countP_total, mul_comm, add_comm]
  calc
    (f i).countP p + D.card * c ≤ (f i).countP p + ∑ j ∈ D, (f j).countP p :=
      Nat.add_le_add_left (Finset.card_nsmul_le_sum D _ c hc) _
    _ = ∑ j ∈ insert i D, (f j).countP p := by rw [Finset.sum_insert hi]
    _ ≤ ∑ j, (f j).countP p := Finset.sum_le_sum_of_subset (Finset.subset_univ _)

end

section

open Classical

variable {G G' : Ground} {k k' : SizeClass} {x : Nat} {s t : State} {live live' : List (Nat × Nat)}
  {place : MagazineId → Option Place} {m : MagazineId} {cpu : Cpu}

-- The number of blocks of a size class that are not in their slabs.
noncomputable def Ground.out (G : Ground) (k : SizeClass) : Nat :=
  (G.carved - G.freed).countP (G.Carved k)

lemma Stocked.carved_sub (h : Stocked s live G) : G.carved - G.freed = stock s + liveBlocks live := by
  rw [h.total, add_assoc, add_tsub_cancel_left]

lemma Ground.Wf.kind_unique (h : G.Wf) (hx : G.Carved k x) (hx' : G.Carved k' x) : k = k' := by
  obtain ⟨b, hb, rfl, hx⟩ := hx
  obtain ⟨b', hb', rfl, hx'⟩ := hx'
  rw [h.eq_of_mem hb hb' hx hx']

lemma Grown.sub_eq (h : Grown k G G') (hs : Stocked s live G) (ht : Stocked t live' G') :
    ∃ taken : List Nat, taken.length ≤ magazineCapacity ∧ (∀ x ∈ taken, G'.Carved k x) ∧
      G'.carved - G'.freed = (G.carved - G.freed) + taken := by
  obtain ⟨taken, hlen, hk, hsum⟩ := h.taken
  refine ⟨taken, hlen, hk, ?_⟩
  rw [hs.carved_sub, ht.carved_sub]
  rw [hs.total, ht.total] at hsum
  have hcancel : G'.freed + G.freed + (stock t + liveBlocks live') =
      G'.freed + G.freed + (stock s + liveBlocks live + taken) := by
    calc
      _ = G'.freed + stock t + liveBlocks live' + G.freed := by abel
      _ = G.freed + stock s + liveBlocks live + G'.freed + taken := hsum
      _ = _ := by abel
  exact add_left_cancel hcancel

lemma Grown.out_eq (h : Grown k G G') (hs : Stocked s live G) (ht : Stocked t live' G') :
    G'.out k ≤ G.out k + magazineCapacity ∧ ∀ k' ≠ k, G'.out k' = G.out k' := by
  obtain ⟨taken, hlen, hk, hsum⟩ := h.sub_eq hs ht
  have hold (k' : SizeClass) : (G.carved - G.freed).countP (G'.Carved k') = G.out k' := by
    refine Multiset.countP_congr rfl fun x hx => ?_
    have hmem : x ∈ G.carved := Multiset.mem_of_le (Multiset.sub_le_self ..) hx
    obtain ⟨k0, hk0⟩ := Ground.mem_carved.mp hmem
    refine propext ⟨fun hc => ?_, h.carved k' x⟩
    rw [ht.wf.kind_unique hc (h.carved k0 x hk0)]
    exact hk0
  refine ⟨?_, fun k' hk' => ?_⟩
  · rw [Ground.out, hsum, Multiset.countP_add, hold]
    have := Multiset.countP_le_card (G'.Carved k) (taken : Multiset Nat)
    rw [Multiset.coe_card] at this
    omega
  · rw [Ground.out, hsum, Multiset.countP_add, hold, Multiset.countP_eq_zero.mpr, Nat.add_zero]
    exact fun x hx hc => hk' (ht.wf.kind_unique hc (hk x (Multiset.mem_coe.mp hx)))

end

section

open Classical

variable {s : State} {live : List (Nat × Nat)} {G : Ground} {place : MagazineId → Option Place}
  {m : MagazineId} {k : SizeClass} {cpu : Cpu} {f : Fill}

noncomputable def serving (place : MagazineId → Option Place) (k : SizeClass) : Finset MagazineId :=
  Finset.univ.filter (Serves place · k)

noncomputable def actives (place : MagazineId → Option Place) (k : SizeClass) : Finset MagazineId :=
  Finset.univ.filter fun m => ∃ cpu, place m = some (.active cpu k)

noncomputable def fulls (place : MagazineId → Option Place) (k : SizeClass) : Finset MagazineId :=
  Finset.univ.filter fun m => place m = some (.depot k .full)

lemma mem_serving : m ∈ serving place k ↔ Serves place m k := by
  simp [serving]

lemma mem_actives : m ∈ actives place k ↔ ∃ cpu, place m = some (.active cpu k) := by
  simp [actives]

lemma mem_fulls : m ∈ fulls place k ↔ place m = some (.depot k .full) := by
  simp [fulls]

lemma Shelved.card_actives_le (h : Shelved s place) {D : Finset Cpu} (hD : ∀ cpu ∉ D, s.caches cpu k = none) :
    (actives place k).card ≤ D.card := by
  have hsub : actives place k ⊆ D.biUnion fun cpu => (s.caches cpu k).toFinset := fun m hm => by
    obtain ⟨cpu, hcpu⟩ := mem_actives.mp hm
    have hc := h.mem_active.mpr hcpu
    refine Finset.mem_biUnion.mpr ⟨cpu, ?_, Option.mem_toFinset.mpr hc⟩
    by_contra hn
    rw [hD cpu hn] at hc
    cases hc
  refine (Finset.card_le_card hsub).trans (Finset.card_biUnion_le.trans ?_)
  rw [Finset.card_eq_sum_ones]
  refine Finset.sum_le_sum fun cpu _ => ?_
  rw [Option.card_toFinset]
  cases s.caches cpu k <;> simp

lemma Shelved.card_actives_le_all (h : Shelved s place) : (actives place k).card ≤ 64 :=
  (h.card_actives_le (D := Finset.univ) fun cpu hc => absurd (Finset.mem_univ cpu) hc).trans_eq
    (Finset.card_fin 64)

lemma Shelved.card_actives_lt (h : Shelved s place) (hc : s.caches cpu k = none) :
    (actives place k).card ≤ 63 := by
  have hle := h.card_actives_le (k := k) (D := Finset.univ.erase cpu) fun c hn => by
    obtain rfl : c = cpu := by simpa using hn
    exact hc
  rwa [Finset.card_erase_of_mem (Finset.mem_univ cpu), Finset.card_fin] at hle

lemma Shelved.card_serving_le (h : Shelved s place) (hf : ∀ f ≠ .full, s.depots k f = none) :
    (serving place k).card ≤ (actives place k).card + (fulls place k).card := by
  refine (Finset.card_le_card fun m hm => ?_).trans (Finset.card_union_le ..)
  obtain ⟨p, hp, hk⟩ := mem_serving.mp hm
  cases p
  case pool => cases hk
  case active cpu k =>
    cases hk
    exact Finset.mem_union_left _ (mem_actives.mpr ⟨cpu, hp⟩)
  case depot k f =>
    cases hk
    refine Finset.mem_union_right _ (mem_fulls.mpr ?_)
    by_cases hfull : f = .full
    · rw [hp, hfull]
    · exact absurd hp (h.place_ne (p := .depot k f) (hf f hfull))

lemma Heap.countP_contents (h : Heap s live G place none) (hm : Serves place m k) :
    ((s.magazines m).contents : Multiset Nat).countP (G.Carved k) = (s.magazines m).count := by
  have hcard : ((s.magazines m).contents : Multiset Nat).card = (s.magazines m).count := by
    simp [Magazine.contents]
  rw [← hcard]
  refine Multiset.countP_eq_card.mpr fun x hx => ?_
  have hz : (s.magazines m).count ≠ 0 := fun hz => by
    rw [Multiset.mem_coe, Magazine.contents, hz] at hx
    cases hx
  obtain ⟨k', hk', hcarved⟩ := h.kind m hz
  obtain ⟨p, hp, hpk⟩ := hm
  obtain rfl : k' = k := by
    obtain ⟨f, hf⟩ | ⟨cpu, hc⟩ | hh := hk'
    · cases hp.symm.trans hf
      exact Option.some.inj hpk
    · cases hp.symm.trans hc
      exact Option.some.inj hpk
    · cases hh
  exact hcarved x (Multiset.mem_coe.mp hx)

lemma Heap.countP_contents_eq_zero (h : Heap s live G place none)
    (hm : ¬(Serves place m k ∧ (s.magazines m).count ≠ 0)) :
    ((s.magazines m).contents : Multiset Nat).countP (G.Carved k) = 0 := by
  refine Multiset.countP_eq_zero.mpr fun x hx hcx => hm ?_
  have hz : (s.magazines m).count ≠ 0 := fun hz => by
    rw [Multiset.mem_coe, Magazine.contents, hz] at hx
    cases hx
  refine ⟨?_, hz⟩
  obtain ⟨k', hk', hcarved⟩ := h.kind m hz
  obtain rfl := h.stocked.wf.kind_unique (hcarved x (Multiset.mem_coe.mp hx)) hcx
  obtain ⟨f, hf⟩ | ⟨cpu, hc⟩ | hh := hk'
  · exact ⟨_, hf, rfl⟩
  · exact ⟨_, hc, rfl⟩
  · cases hh

lemma Heap.out_eq (h : Heap s live G place none) :
    G.out k = (stock s).countP (G.Carved k) + (liveBlocks live).countP (G.Carved k) := by
  rw [Ground.out, h.stocked.carved_sub, Multiset.countP_add]

-- If the depot has no blocks, then the blocks are live or in active magazines.
lemma Heap.out_le (h : Heap s live G place none) (hfull : s.depots k .full = none)
    (hpartly : s.depots k .partlyFull = none) :
    G.out k ≤ magazineCapacity * (actives place k).card + live.length := by
  rw [h.out_eq]
  refine Nat.add_le_add (countP_total_le (fun m hm => h.countP_contents_eq_zero fun hs => hm ?_) fun m hm => ?_) ?_
  · obtain ⟨⟨p, hp, hk⟩, hz⟩ := hs
    cases p
    case pool => cases hk
    case active cpu k =>
      cases hk
      exact mem_actives.mpr ⟨cpu, hp⟩
    case depot k f =>
      cases hk
      cases f
      case full => exact absurd hp (h.shelved.place_ne hfull)
      case partlyFull => exact absurd hp (h.shelved.place_ne hpartly)
      case empty => exact absurd (Fill.of_eq_empty.mp (h.filled m k .empty hp).symm) hz
  · obtain ⟨cpu, hcpu⟩ := mem_actives.mp hm
    rw [h.countP_contents ⟨_, hcpu, rfl⟩]
    exact h.bound m
  · refine (Multiset.countP_le_card ..).trans_eq ?_
    rw [liveBlocks, Multiset.coe_card, List.length_map]

lemma Heap.le_countP_of_fulls (h : Heap s live G place none) (hm : m ∈ fulls place k) :
    magazineCapacity ≤ ((s.magazines m).contents : Multiset Nat).countP (G.Carved k) := by
  have hplace := mem_fulls.mp hm
  rw [h.countP_contents ⟨_, hplace, rfl⟩]
  exact Fill.of_eq_full.mp (h.filled m k .full hplace).symm

lemma Heap.fulls_le_out (h : Heap s live G place none) :
    magazineCapacity * (fulls place k).card + (liveBlocks live).countP (G.Carved k) ≤ G.out k := by
  rw [h.out_eq]
  exact Nat.add_le_add_right (le_countP_total fun m hm => h.le_countP_of_fulls hm) _

lemma Heap.add_le_out (h : Heap s live G place none) (hm : place m = some (.active cpu k)) :
    magazineCapacity * (fulls place k).card + (s.magazines m).count + (liveBlocks live).countP (G.Carved k) ≤
      G.out k := by
  have hnot : m ∉ fulls place k := fun hf => by
    cases hm.symm.trans (mem_fulls.mp hf)
  rw [h.out_eq, ← h.countP_contents ⟨_, hm, rfl⟩]
  exact Nat.add_le_add_right (add_le_countP_total hnot fun m hm => h.le_countP_of_fulls hm) _

end

section

open Classical

variable {w w' : World} {a : Action} {G G' : Ground} {place place' : MagazineId → Option Place} {k : SizeClass}
  {m : MagazineId} {cpu : Cpu} {ptr : Nat}

-- A free takes a magazine from the pool although the depot has magazines with room.
def World.Bypasses (w : World) : Action → Prop
  | .free cpu ptr => ∃ k : SizeClass, headerClass w.state ptr = k ∧ roomyMagazine w.state cpu k = none ∧
    ∃ f ≠ .full, w.state.depots k f ≠ none
  | _ => False

-- With few live blocks, a size class has as many full magazines as active ones at most.
structure Pooled (w : World) (G : Ground) (place : MagazineId → Option Place) : Prop where
  live : w.live.length ≤ w.peak
  out : ∀ k, G.out k ≤ w.peak + 2047
  served : w.peak ≤ 33 → ∀ k, (serving place k).card ≤ 128

lemma step_peak (h : World.step w a = .ok w') (hw : w.live.length ≤ w.peak) :
    w'.live.length ≤ w'.peak ∧ w.peak ≤ w'.peak := by
  cases a
  case alloc cpu size vmem =>
    obtain ⟨r, -, hr⟩ := Except.of_bind h
    cases hr
    exact ⟨le_max_right .., le_max_left ..⟩
  case free cpu ptr =>
    obtain ⟨r, -, hr⟩ := Except.of_bind h
    cases hr
    exact ⟨(List.length_filter_le ..).trans hw, le_rfl⟩
  case flush =>
    unfold World.step at h
    generalize magazineFlushCaches w.state = s at h
    cases h
    exact ⟨hw, le_rfl⟩
  all_goals
    cases h
    exact ⟨hw, le_rfl⟩

lemma card_serving_mono (h : ∀ n, Serves place' n k → Serves place n k) :
    (serving place' k).card ≤ (serving place k).card :=
  Finset.card_le_card fun n hn => mem_serving.mpr (h n (mem_serving.mp hn))

lemma Serves.kept_active (h : Serves place m k) : Kept place (update place m (some (.active cpu k))) := by
  obtain ⟨p, hp, hk⟩ := h
  exact .update hp (.inr hk.symm)

lemma Pooled.kept (h : Pooled w G place) (hs : World.step w a = .ok w') (hk : Kept place place') :
    Pooled w' G place' := by
  obtain ⟨hlive, hpeak⟩ := step_peak hs h.live
  refine ⟨hlive, fun k => (h.out k).trans (Nat.add_le_add_right hpeak _), fun hp k => ?_⟩
  exact (card_serving_mono fun n => hk.serves n k).trans (h.served (hpeak.trans hp) k)

-- Blocks of a slab are taken only if the other blocks are live or in active magazines.
lemma Pooled.installed (h : Pooled w G place) (hs : World.step w a = .ok w')
    (hw : Heap w.state w.live G place none) (hw' : Heap w'.state w'.live G' place' none)
    (hi : Installs w.state cpu G place G' place' k m) (hlen : w.live.length < w'.peak) :
    Pooled w' G' place' := by
  obtain ⟨hfree, ⟨rfl, hm⟩ | ⟨hfull, hpartly, hgrown, hm⟩, rfl⟩ := hi
  · exact h.kept hs hm.kept_active
  · obtain ⟨hlive, hpeak⟩ := step_peak hs h.live
    obtain ⟨hk, hother⟩ := hgrown.out_eq hw.stocked hw'.stocked
    refine ⟨hlive, fun k' => ?_, fun hp k' => ?_⟩
    · have hout := h.out k'
      by_cases hkk : k' = k
      · have hle := hw.out_le hfull hpartly
        have hactive := hw.shelved.card_actives_lt hfree
        have hcapacity : magazineCapacity = 32 := rfl
        rw [hcapacity] at hk hle
        rw [hkk]
        omega
      · rw [hother k' hkk]
        omega
    · have hserved := h.served (hpeak.trans hp) k'
      obtain hm | ⟨hm, hempty⟩ := hm
      · exact (card_serving_mono fun n => hm.kept_active.serves n k').trans hserved
      · by_cases hkk : k' = k
        case neg =>
          refine (card_serving_mono fun n hn => ?_).trans hserved
          obtain ⟨p, hp, hpk⟩ := hn
          by_cases hnm : n = m
          · rw [hnm, Function.update_self] at hp
            cases hp
            exact absurd (Option.some.inj hpk).symm hkk
          · exact ⟨p, (Function.update_of_ne hnm ..).symm.trans hp, hpk⟩
        case pos =>
          -- the depot has no magazines
          subst hkk
          refine (Finset.card_le_card (t := actives _ k') fun n hn => ?_).trans
            (hw'.shelved.card_actives_le_all.trans (by decide))
          obtain ⟨p, hp, hpk⟩ := mem_serving.mp hn
          cases p
          case pool => cases hpk
          case active cpu k =>
            cases hpk
            exact mem_actives.mpr ⟨cpu, hp⟩
          case depot k f =>
            cases hpk
            have hnm : n ≠ m := by
              rintro rfl
              rw [Function.update_self] at hp
              cases hp
            rw [Function.update_of_ne hnm] at hp
            cases f
            case full => exact absurd hp (hw.shelved.place_ne hfull)
            case partlyFull => exact absurd hp (hw.shelved.place_ne hpartly)
            case empty => exact absurd hp (hw.shelved.place_ne hempty)

-- A magazine is taken from the pool only if the others are active or full.
lemma Pooled.taken (h : Pooled w G place) (hs : World.step w (.free cpu ptr) = .ok w')
    (hw' : Heap w'.state w'.live G place' none) (ht : Takes w.state cpu ptr place place' w'.state k)
    (hb : ¬w.Bypasses (.free cpu ptr)) : Pooled w' G place' := by
  obtain ⟨hlive, hpeak⟩ := step_peak hs h.live
  have hout (k : SizeClass) : G.out k ≤ w'.peak + 2047 := (h.out k).trans (Nat.add_le_add_right hpeak _)
  refine ⟨hlive, hout, fun hp k' => ?_⟩
  by_cases hk : k' = k
  case neg => exact (card_serving_mono fun n => ht.serves n k' hk).trans (h.served (hpeak.trans hp) k')
  subst hk
  have hdepots (f : Fill) (hf : f ≠ .full) : w'.state.depots k' f = none := by
    rw [ht.depots f hf]
    by_contra hne
    exact hb ⟨k', ht.header, ht.roomy, f, hf, hne⟩
  obtain ⟨m, hm, hcount⟩ := ht.count
  have hle := hw'.shelved.card_serving_le hdepots
  have hactive := hw'.shelved.card_actives_le_all (k := k')
  have hfulls := hw'.add_le_out hm
  have hk := hout k'
  have hcapacity : magazineCapacity = 32 := rfl
  rw [hcount, hcapacity] at hfulls
  omega

lemma Pooled.step (h : Pooled w G place) (hs : World.step w a = .ok w')
    (hw : Heap w.state w.live G place none) (hw' : Heap w'.state w'.live G' place' none)
    (hm : Moves w a G place w' G' place') (hb : ¬w.Bypasses a) : Pooled w' G' place' := by
  cases hm
  case kept hk => exact h.kept hs hk
  case installed hlen hi => exact h.installed hs hw hw' hi hlen
  case taken cpu ptr k ha ht =>
    subst ha
    exact h.taken hs hw' ht hb

-- A call that needs a magazine finds the pool exhausted.
def World.Exhausts (w : World) : Action → Prop
  | .alloc cpu size _ => size ≠ 0 ∧ w.state.magazinePoolHead = none ∧ ∃ k, getSizeClass size = some k ∧
    activeMagazine w.state cpu k = none ∧ ∀ f, w.state.depots k f = none
  | .free cpu ptr => w.state.magazinePoolHead = none ∧
    ∃ k : SizeClass, headerClass w.state ptr = k ∧ roomyMagazine w.state cpu k = none
  | _ => False

-- If the pool is exhausted, then every magazine serves a size class.
lemma Heap.card_le_sum (h : Heap w.state w.live G place none) (hp : ∀ m, place m ≠ none)
    (hpool : w.state.magazinePoolHead = none) : 1024 ≤ ∑ k, (serving place k).card := by
  have huniv : (Finset.univ : Finset MagazineId) ⊆ Finset.univ.biUnion (serving place) := fun m _ => by
    obtain ⟨p, hm⟩ := Option.ne_none_iff_exists'.mp (hp m)
    cases p
    case pool => exact absurd hm (h.shelved.place_ne hpool)
    case depot k f => exact Finset.mem_biUnion.mpr ⟨k, Finset.mem_univ k, mem_serving.mpr ⟨_, hm, rfl⟩⟩
    case active cpu k => exact Finset.mem_biUnion.mpr ⟨k, Finset.mem_univ k, mem_serving.mpr ⟨_, hm, rfl⟩⟩
  have hle := (Finset.card_le_card huniv).trans Finset.card_biUnion_le
  rwa [Finset.card_fin] at hle

lemma Pooled.pool_ne_none (h : Pooled w G place) (hw : Heap w.state w.live G place none)
    (hp : ∀ m, place m ≠ none) (hpeak : w.peak ≤ 33) (hk : (serving place k).card < 128) :
    w.state.magazinePoolHead ≠ none := fun hpool => by
  have hlt : ∑ k, (serving place k).card < ∑ _k : SizeClass, 128 :=
    Finset.sum_lt_sum (fun k _ => h.served hpeak k) ⟨k, Finset.mem_univ k, hk⟩
  rw [Finset.sum_const, Finset.card_fin] at hlt
  exact absurd (hw.card_le_sum hp hpool) (Nat.not_le_of_lt hlt)

lemma Heap.live_countP_pos (h : Heap w.state w.live G place none) (he : e ∈ w.live)
    (hk : headerClass w.state e.1 = k) : 0 < (liveBlocks w.live).countP (G.Carved k) := by
  obtain ⟨x, k', hx, hc, -, -, hidx⟩ := h.stocked.live e he
  rw [headerClass, hx, Nat.add_sub_cancel, hidx] at hk
  obtain rfl : k' = k := Fin.ext hk
  have hmem := Stocked.mem_liveBlocks he
  rw [hx, Nat.add_sub_cancel] at hmem
  exact Multiset.countP_pos.mpr ⟨x, hmem, hc⟩

lemma Pooled.not_exhausts (h : Pooled w G place) (hw : Heap w.state w.live G place none)
    (hp : ∀ m, place m ≠ none) (hpeak : w.peak ≤ 33) (ha : World.Legal w a) (hb : ¬w.Bypasses a) :
    ¬w.Exhausts a := by
  cases a
  case alloc cpu size vmem =>
    rintro ⟨-, hpool, k, -, -, hdepots⟩
    refine h.pool_ne_none (k := k) hw hp hpeak ?_ hpool
    have hle := hw.shelved.card_serving_le fun f _ => hdepots f
    have hactive := hw.shelved.card_actives_le_all (k := k)
    have hfulls : fulls place k = ∅ := Finset.eq_empty_of_forall_notMem fun m hm =>
      hw.shelved.place_ne (p := .depot k .full) (hdepots .full) (mem_fulls.mp hm)
    rw [hfulls, Finset.card_empty] at hle
    omega
  case free cpu ptr =>
    rintro ⟨hpool, k, hk, hroomy⟩
    obtain ⟨size, he⟩ := ha
    refine h.pool_ne_none (k := k) hw hp hpeak ?_ hpool
    have hle := hw.shelved.card_serving_le fun f hf => by
      by_contra hne
      exact hb ⟨k, hk, hroomy, f, hf, hne⟩
    have hlive := hw.live_countP_pos he hk
    have hout := h.out k
    have hcapacity : magazineCapacity = 32 := rfl
    rcases hc : w.state.caches cpu k with _ | m
    · have hactive := hw.shelved.card_actives_lt hc
      have hfulls := hw.fulls_le_out (k := k)
      rw [hcapacity] at hfulls
      omega
    have hactive := hw.shelved.card_actives_le_all (k := k)
    have hfulls := hw.add_le_out (hw.shelved.mem_active.mp hc)
    have hfull := full_of_roomy_eq_none hroomy hc
    rw [hcapacity] at hfulls hfull
    omega
  case flush => exact id
  case store => exact id
  case setValidation => exact id

end

section

variable {w : World}

-- No magazine is dropped.
def World.Tidy (w : World) (a : Action) : Prop :=
  w.Legal a ∧ ∀ m, ¬w.Loses a m

def World.Thrifty (w : World) (a : Action) : Prop :=
  w.Tidy a ∧ ¬w.Bypasses a

lemma World.Run.placed (h : World.Run World.Tidy w) :
    ∃ G place, Heap w.state w.live G place none ∧ ∀ m, place m ≠ none := by
  refine Machine.Run.invariant (P := fun w => ∃ G place, Heap w.state w.live G place none ∧ ∀ m, place m ≠ none)
    h ?_ fun hw ha hs => ?_
  · rintro - ⟨memory, rfl⟩
    exact ⟨_, _, init_heap memory, fun _ => nofun⟩
  · obtain ⟨G, place, hw, hp⟩ := hw
    obtain ⟨G', place', hw', hp', -⟩ := hw.of_step ha.1 hs
    refine ⟨G', place', hw', fun m hm => ?_⟩
    obtain hm | hm := hp' m hm
    · exact hp m hm
    · exact ha.2 m hm

lemma World.Run.pooled (h : World.Run World.Thrifty w) :
    ∃ G place, Heap w.state w.live G place none ∧ (∀ m, place m ≠ none) ∧ Pooled w G place := by
  refine Machine.Run.invariant
    (P := fun w => ∃ G place, Heap w.state w.live G place none ∧ (∀ m, place m ≠ none) ∧ Pooled w G place)
    h ?_ fun hw ha hs => ?_
  · rintro - ⟨memory, rfl⟩
    refine ⟨_, _, init_heap memory, fun _ => nofun, le_rfl, fun k => Nat.zero_le _, fun _ k => ?_⟩
    refine (Finset.card_eq_zero.mpr (Finset.eq_empty_of_forall_notMem fun m hm => ?_)).trans_le (Nat.zero_le _)
    obtain ⟨p, hp, hk⟩ := mem_serving.mp hm
    cases hp
    cases hk
  · obtain ⟨G, place, hw, hp, hpool⟩ := hw
    obtain ⟨G', place', hw', hp', hm⟩ := hw.of_step ha.1.1 hs
    refine ⟨G', place', hw', fun m hm => ?_, hpool.step hs hw hw' (hm ha.1.2) ha.2⟩
    obtain hm | hm := hp' m hm
    · exact hp m hm
    · exact ha.1.2 m hm

-- Every magazine is at one place, and with few live blocks the pool is not exhausted.
theorem World.Run.magazines_conserved :
    (World.Run World.Tidy w → ∀ m, ∃! p, m ∈ magazinesAt w.state p) ∧
    (World.Run World.Thrifty w → w.peak ≤ 33 → ∀ a, w.Thrifty a → ¬w.Exhausts a ∧ ∃ w', w.step a = .ok w') := by
  refine ⟨fun h m => ?_, fun h hpeak a ha => ?_⟩
  · obtain ⟨G, place, hw, hp⟩ := World.Run.placed h
    obtain ⟨p, hm⟩ := Option.ne_none_iff_exists'.mp (hp m)
    refine ⟨p, hw.shelved.mem_magazinesAt.mpr hm, fun q hq => ?_⟩
    exact Option.some.inj ((hw.shelved.mem_magazinesAt.mp hq).symm.trans hm)
  · obtain ⟨G, place, hw, hp, hpool⟩ := World.Run.pooled h
    have hnot := hpool.not_exhausts hw hp hpeak ha.1.1 ha.2
    refine ⟨hnot, ?_⟩
    obtain ⟨-, hpanics⟩ | ⟨w', hw', -⟩ := hw.step ha.1.1
    · obtain ⟨hnone, cpu, ptr, rfl, hk⟩ := hpanics
      exact absurd ⟨hnone, hk⟩ hnot
    · exact ⟨w', hw'⟩

lemma World.loses_alloc : (size ≠ 0 ∧ ∃ k, getSizeClass size = some k ∧
      (∃ m ∈ w.state.caches cpu k, (w.state.magazines m).count = 0) ∧ Refillable w.state k vmem) ↔
    ∃ m, w.Loses (.alloc cpu size vmem) m := by
  constructor
  · rintro ⟨hz, k, hk, ⟨m, hm, hc⟩, hr⟩
    exact ⟨m, hz, k, hk, hm, hc, hr⟩
  · rintro ⟨m, hz, k, hk, hm, hc, hr⟩
    exact ⟨hz, k, hk, ⟨m, hm, hc⟩, hr⟩

instance (w : World) : (a : Action) → Decidable (∃ m, w.Loses a m)
  | .alloc _ _ _ => decidable_of_iff _ World.loses_alloc
  | .free _ _ => isFalse fun ⟨_, h⟩ => h
  | .flush => isFalse fun ⟨_, h⟩ => h
  | .store _ _ _ => isFalse fun ⟨_, h⟩ => h
  | .setValidation _ => isFalse fun ⟨_, h⟩ => h

instance (w : World) (a : Action) : Decidable (w.Tidy a) :=
  decidable_of_iff (w.Legal a ∧ ¬∃ m, w.Loses a m) (and_congr_right fun _ => not_exists)

instance (w : World) : (a : Action) → Decidable (w.Bypasses a)
  | .free cpu ptr => inferInstanceAs (Decidable (∃ k : SizeClass, headerClass w.state ptr = k ∧
    roomyMagazine w.state cpu k = none ∧ ∃ f ≠ Fill.full, w.state.depots k f ≠ none))
  | .alloc _ _ _ | .flush | .store _ _ _ | .setValidation _ => isFalse id

instance (w : World) (a : Action) : Decidable (w.Thrifty a) :=
  inferInstanceAs (Decidable (_ ∧ _))

-- A block is freed on another CPU, and the caches are flushed.
theorem World.Run.magazines_conserved_flushed : ∃ w : World, (w.live.length = 2 ∧ w.state.caches 1 7 = none) ∧
    (∀ m, ∃! p, m ∈ magazinesAt w.state p) ∧ ∃ w', w.step (.free 0 131088) = .ok w' := by
  obtain ⟨w, hw, hlen, hc, hpeak, ha⟩ := (Machine.Run.init ⟨fun _ => 0, rfl⟩ :
      World.Run World.Thrifty { state := init fun _ => 0 }).exists_of_all
    (l := [.alloc 0 1024 ⟨true, some 65536⟩, .alloc 1 1000 ⟨true, some 131072⟩, .free 1 65552, .flush,
      .alloc 0 1024 ⟨false, none⟩])
    (P := fun w => w.live.length = 2 ∧ w.state.caches 1 7 = none ∧ w.peak ≤ 33 ∧ w.Thrifty (.free 0 131088))
    (by decide +kernel)
  exact ⟨w, ⟨hlen, hc⟩, World.Run.magazines_conserved.1 (hw.mono fun _ _ h => h.1),
    (World.Run.magazines_conserved.2 hw hpeak _ ha).2⟩

-- The sixteenth block is in a second slab, whose magazine replaces the one of the first.
theorem magazine_dropped : ∃ w, World.Run World.Legal w ∧ ∀ p, 0 ∉ magazinesAt w.state p :=
  (Machine.Run.init ⟨fun _ => 0, rfl⟩ : World.Run World.Legal { state := init fun _ => 0 }).exists_of_all
    (l := .alloc 0 1024 ⟨true, some 65536⟩ :: List.replicate 14 (.alloc 0 1024 ⟨false, none⟩) ++
      [.alloc 0 1024 ⟨true, some 131072⟩])
    (P := fun w => ∀ p, 0 ∉ magazinesAt w.state p) (by decide +kernel)

end

end MagazineHeap
