import VoidFrame.Mem.Theorems.Page

-- The pages that are found, and the blocks of pages that callers hold.

namespace PMem

variable {s t : State} {page : Nat}

section

variable {word : BitVec 64} {bit : Nat}

lemma findFirstFreeBit_eq_none (h : findFirstFreeBit word = none) (hb : bit < 64) :
    word.getLsbD bit = true := by
  unfold findFirstFreeBit at h
  split at h
  case isFalse => cases h
  case isTrue hw =>
    rw [hw, BitVec.getLsbD_allOnes]
    exact decide_eq_true hb

lemma findFirstFreeBit_eq_some (h : findFirstFreeBit word = some bit) :
    bit < 64 ∧ word.getLsbD bit = false ∧ ∀ b < bit, word.getLsbD b = true := by
  unfold findFirstFreeBit at h
  split at h
  case isTrue hw => cases h
  case isFalse hw =>
    have hne : ~~~word ≠ 0 := fun he => hw (by simpa using congrArg (~~~·) he)
    obtain ⟨hlt, hclear⟩ := Bitmap.ctz_not_lt hne
    cases h
    refine ⟨hlt, hclear, fun b hb => ?_⟩
    have hl := BitVec.getLsbD_false_of_lt_ctz hb
    simpa [hb.trans hlt] using hl

-- A pass finds a free page, or all pages of its words are used.
lemma searchWords_cases (first : Bool) (hint : Nat) (ha : lowmemPages ≤ a * 64)
    (he : first = false → 0 < n → (a + n) * 64 ≤ s.totalPages) :
    (∃ page, searchWords s first (List.range' a n) hint = (some page, hint) ∧ lowmemPages ≤ page ∧
      page < s.totalPages ∧ s.pageBitmap.get page = false) ∨
    searchWords s first (List.range' a n) hint = (none, hint) ∧
      ∀ i, a * 64 ≤ i → i < (a + n) * 64 → i < s.totalPages → s.pageBitmap.get i = true := by
  induction n generalizing a
  case zero =>
    refine .inr ⟨rfl, fun i h1 h2 => ?_⟩
    omega
  case succ n ih =>
    rw [List.range'_succ, searchWords]
    cases hf : findFirstFreeBit (s.pageBitmap a)
    case none =>
      obtain h | ⟨h, hused⟩ := ih (a := a + 1) (by omega) (fun hn _ => by have := he hn; omega)
      · exact .inl h
      · refine .inr ⟨h, fun i h1 h2 hi => ?_⟩
        by_cases hw : i / 64 = a
        · subst hw
          exact findFirstFreeBit_eq_none hf (Nat.mod_lt i (by decide))
        · exact hused i (by omega) (by omega) hi
    case some bit =>
      obtain ⟨hlt, hclear, hlow⟩ := findFirstFreeBit_eq_some hf
      rw [← Bitmap.get_word (m := s.pageBitmap) hlt] at hclear
      dsimp only
      split
      case isTrue hend =>
        -- the free bit lies behind the last page, and all pages in front of it are used
        refine .inr ⟨rfl, fun i h1 _ hi => ?_⟩
        have hw : i / 64 = a := by omega
        have hb := hlow (i % 64) (by omega)
        rwa [← hw] at hb
      case isFalse hend =>
        have hin : a * 64 + bit < s.totalPages := by
          cases first
          case false => have := he rfl n.succ_pos; omega
          case true => simpa using hend
        rw [if_neg (by omega)]
        exact .inl ⟨_, rfl, by omega, hin, hclear⟩

lemma hint_cases
    (h : wrapHint s (if s.nextFreeHint < lowmemPages then lowmemPages else s.nextFreeHint) = hint) :
    lowmemPages ≤ hint ∧ (hint = lowmemPages ∨ hint < s.totalPages) := by
  unfold wrapHint at h
  split at h <;> split at h <;> omega

lemma markPageUsed_updates (hin : page < s.totalPages) (hfree : s.pageBitmap.get page = false) :
    Updates true (· = page) s (markPageUsed s page) := by
  have hw : page < s.bitmapWords * 64 := hin.trans_le (words_le s)
  have hlt := words_lt s
  unfold markPageUsed
  rw [if_neg (by omega), hfree]
  refine ⟨fun i => ?_, rfl, fun hu => ?_⟩
  · by_cases he : i = page <;> simp [he]
  · have hc := Bitmap.count_set hw hfree
    have hle : (s.pageBitmap.set page).count (s.bitmapWords * 64) ≤ s.bitmapWords * 64 := Nat.count_le _
    change (s.usedPages + 1) % 2 ^ 64 = (s.pageBitmap.set page).count (s.bitmapWords * 64)
    omega

lemma markPageFree_updates (hin : page < s.totalPages) (hused : s.pageBitmap.get page = true) :
    Updates false (· = page) s (markPageFree s page) := by
  have hw : page < s.bitmapWords * 64 := hin.trans_le (words_le s)
  have hlt := words_lt s
  unfold markPageFree
  rw [if_neg (by omega), hused]
  refine ⟨fun i => ?_, rfl, fun hu => ?_⟩
  · by_cases he : i = page <;> simp [he]
  · have hc := Bitmap.count_clear hw hused
    have hle : s.pageBitmap.count (s.bitmapWords * 64) ≤ s.bitmapWords * 64 := Nat.count_le _
    change (s.usedPages + (2 ^ 64 - 1)) % 2 ^ 64 = (s.pageBitmap.clear page).count (s.bitmapWords * 64)
    omega

lemma isPageFree_eq (hin : page < s.totalPages) : isPageFree s page = !s.pageBitmap.get page := by
  have hw := words_le s
  unfold isPageFree
  rw [if_neg (by omega)]

lemma eq_iff_range (i : Nat) : i = page ↔ page ≤ i ∧ i < page + 1 := by
  omega

lemma takePage_takes (hlow : lowmemPages ≤ page) (hin : page < s.totalPages)
    (hfree : s.pageBitmap.get page = false) : Takes s (takePage s page).2 page 1 where
  low := hlow
  bound := hin
  free := fun i h1 h2 => (eq_iff_range i).mpr ⟨h1, h2⟩ ▸ hfree
  updates := ((markPageUsed_updates hin hfree).congr eq_iff_range).hint _

-- No page can be taken.
def Exhausted (s : State) : Prop :=
  s.totalPages - 1 ≤ s.usedPages ∨ ∀ i, lowmemPages ≤ i → i < s.totalPages → s.pageBitmap.get i = true

lemma not_exhausted (hu : ¬(s.totalPages + (2 ^ 64 - 1)) % 2 ^ 64 ≤ s.usedPages) (hlow : lowmemPages ≤ page)
    (hin : page < s.totalPages) (hfree : s.pageBitmap.get page = false) : ¬Exhausted s := by
  have hb := bounded_lt (Nat.le_refl s.totalPages)
  rintro (h | h)
  · omega
  · rw [h page hlow hin] at hfree
    cases hfree

lemma allocPage_cases (s : State) :
    (Exhausted s ∧ ∃ hint, allocPage s = (none, { s with nextFreeHint := hint })) ∨
    ¬Exhausted s ∧ ∃ page t, allocPage s = (some (page * pageSize), t) ∧ Takes s t page 1 := by
  have hb := bounded_lt (Nat.le_refl s.totalPages)
  unfold allocPage
  split
  case isTrue hu => exact .inl ⟨.inl (by omega), s.nextFreeHint, rfl⟩
  case isFalse hu =>
    dsimp only
    generalize hh : wrapHint s (if s.nextFreeHint < lowmemPages then lowmemPages else s.nextFreeHint) = hint
    obtain ⟨hlow, hin⟩ := hint_cases hh
    have hw := words_le s
    simp only [lowmemPages, pageSize] at hlow hin
    -- the words from the hint on, then those in front of it
    obtain ⟨page, hs, h1, h2, h3⟩ | ⟨hs, hused⟩ := searchWords_cases (s := s) true hint (a := hint / 64)
      (n := s.bitmapWords - hint / 64) (by simp only [lowmemPages, pageSize]; omega)
      (fun h => by cases h)
    · rw [hs]
      exact .inr ⟨not_exhausted hu h1 h2 h3, page, _, rfl, takePage_takes h1 h2 h3⟩
    · rw [hs]
      dsimp only
      obtain ⟨page, hs', h1, h2, h3⟩ | ⟨hs', hused'⟩ := searchWords_cases (s := s) false hint
        (a := lowmemPages / 64) (n := hint / 64 - lowmemPages / 64) (by decide)
        (fun _ => by simp only [lowmemPages, pageSize]; omega)
      · rw [hs']
        exact .inr ⟨not_exhausted hu h1 h2 h3, page, _, rfl, takePage_takes h1 h2 h3⟩
      · rw [hs']
        refine .inl ⟨.inr fun i hi1 hi2 => ?_, hint, rfl⟩
        simp only [lowmemPages, pageSize] at hi1 hused'
        by_cases hi : i < hint / 64 * 64
        · exact hused' i (by omega) (by omega) hi2
        · exact hused i (by omega) (by omega) hi2

-- `AllocPage` finds a page whenever there is one, and takes it alone.
theorem allocPage_complete (s : State) :
    ((allocPage s).1 = none ↔ s.totalPages - 1 ≤ s.usedPages ∨
      ∀ i, lowmemPages ≤ i → i < s.totalPages → s.pageBitmap.get i = true) ∧
    ∀ addr, (allocPage s).1 = some addr → ∃ page, addr = page * pageSize ∧ lowmemPages ≤ page ∧
      page < s.totalPages ∧ s.pageBitmap.get page = false ∧ (allocPage s).2.pageBitmap.get page = true ∧
      ∀ i, i ≠ page → (allocPage s).2.pageBitmap.get i = s.pageBitmap.get i := by
  obtain ⟨he, hint, ha⟩ | ⟨he, page, t, ha, ht⟩ := allocPage_cases s
  · rw [ha]
    exact ⟨iff_of_true rfl he, fun addr h => by cases h⟩
  · rw [ha]
    refine ⟨iff_of_false (fun h => by cases h) he, fun addr h => ?_⟩
    cases h
    refine ⟨page, rfl, ht.low, ht.bound, ht.free page le_rfl page.lt_succ_self, ?_, fun i hi => ?_⟩
    · exact (ht.updates.get page).trans (if_pos ⟨le_rfl, page.lt_succ_self⟩)
    · exact (ht.updates.get i).trans (if_neg fun h => hi ((eq_iff_range i).mpr h))

end

section

variable {w w' : World} {b : Block} {a : Action}

def Block.alignment : Block → Nat
  | .page _ => pageSize
  | .huge _ _ => hugePageSize

-- The pages of a block that is held are used, and lie above the low memory.
structure Block.Owned (b : Block) (s : State) : Prop where
  nonempty : 1 ≤ b.count
  low : lowmemPages ≤ b.start
  bound : b.start + b.count ≤ s.totalPages
  used : ∀ i, b.Contains i → s.pageBitmap.get i = true
  aligned : b.addr.toNat % b.alignment = 0

def Block.Apart (b b' : Block) : Prop :=
  ∀ i, ¬(b.Contains i ∧ b'.Contains i)

lemma Block.Apart.symm (h : b.Apart b') : b'.Apart b :=
  fun i hi => h i hi.symm

structure World.Sound (w : World) : Prop where
  counted : Counted w.memory
  owned : ∀ b ∈ w.held, b.Owned w.memory
  apart : w.held.Pairwise Block.Apart

lemma Block.addr_toNat (block : UInt64 → Block) (hb : ∀ addr, (block addr).addr = addr) {start : Nat}
    (h : start ≤ s.totalPages) : (block (.ofNat (start * pageSize))).addr.toNat = start * pageSize := by
  have hbound := s.bound
  simp only [maxPages, pageSize] at hbound ⊢
  rw [hb, UInt64.toNat_ofNat']
  omega

-- A block that is taken is apart from all blocks that are held.
lemma World.Sound.hold (block : UInt64 → Block) {start count : Nat} (hw : w.Sound)
    (ha : ∀ addr, (block addr).addr = addr) (hc : ∀ addr, (block addr).count = count) (hpos : 1 ≤ count)
    (hal : ∀ addr, start * pageSize % (block addr).alignment = 0) (ht : Takes w.memory t start count) :
    World.Sound { memory := t, held := block (.ofNat (start * pageSize)) :: w.held } := by
  have haddr := Block.addr_toNat block ha ((Nat.le_add_right ..).trans ht.bound)
  have hstart : (block (.ofNat (start * pageSize))).start = start := by
    rw [Block.start, haddr]
    exact Nat.mul_div_cancel _ (by decide)
  have hcontains (i : Nat) :
      (block (.ofNat (start * pageSize))).Contains i ↔ start ≤ i ∧ i < start + count := by
    rw [Block.Contains, hstart, hc]
  refine ⟨ht.counted hw.counted, fun b hb => ?_, List.pairwise_cons.mpr ⟨fun b hb i hi => ?_, hw.apart⟩⟩
  · obtain rfl | hb := List.mem_cons.mp hb
    · refine ⟨(hc _).symm ▸ hpos, ?_, ?_, fun i hi => ?_, ?_⟩
      · rw [hstart]
        exact ht.low
      · rw [hstart, hc, ht.updates.totalPages]
        exact ht.bound
      · exact (ht.updates.get i).trans (if_pos ((hcontains i).mp hi))
      · rw [haddr]
        exact hal _
    · have ho := hw.owned b hb
      refine ⟨ho.nonempty, ho.low, ht.updates.totalPages.symm ▸ ho.bound, fun i hi => ?_, ho.aligned⟩
      rw [ht.updates.get i, ho.used i hi, ite_self]
  · have hfree := ht.free i ((hcontains i).mp hi.1).1 ((hcontains i).mp hi.1).2
    rw [(hw.owned b hb).used i hi.2] at hfree
    cases hfree

lemma World.Sound.erase (hw : w.Sound) (hb : b ∈ w.held)
    (hu : Updates false b.Contains w.memory t) :
    World.Sound { memory := t, held := w.held.erase b } := by
  have hp : (b :: w.held.erase b).Pairwise Block.Apart :=
    ((List.perm_cons_erase hb).pairwise_iff fun h => Block.Apart.symm h).mp hw.apart
  refine ⟨hu.counted hw.counted (fun h => by cases h), fun b' hb' => ?_, (List.pairwise_cons.mp hp).2⟩
  have ho := hw.owned b' (List.mem_of_mem_erase hb')
  refine ⟨ho.nonempty, ho.low, hu.totalPages.symm ▸ ho.bound, fun i hi => ?_, ho.aligned⟩
  rw [hu.get i, if_neg fun h => (List.pairwise_cons.mp hp).1 b' hb' i ⟨h, hi⟩]
  exact ho.used i hi

lemma Block.Owned.addr_ne_zero (h : b.Owned s) : b.addr ≠ 0 := by
  intro he
  have hlow := h.low
  rw [Block.start, he] at hlow
  exact absurd hlow (by decide)

lemma Block.Owned.freePage_updates {addr : UInt64} (h : (Block.page addr).Owned s) :
    Updates false (Block.page addr).Contains s (freePage s addr) := by
  have hlt : addr.toNat / pageSize < s.totalPages := h.bound
  have hused := h.used (addr.toNat / pageSize) ⟨le_rfl, Nat.lt_succ_self _⟩
  have hu := (markPageFree_updates hlt hused).congr (Q := (Block.page addr).Contains) eq_iff_range
  unfold freePage
  have h0 : addr ≠ 0 := h.addr_ne_zero
  have hal : addr.toNat % pageSize = 0 := h.aligned
  rw [if_neg h0, if_neg (not_not.mpr hal)]
  dsimp only
  rw [if_neg (Nat.not_le_of_lt hlt), isPageFree_eq hlt, hused, Bool.not_true, if_neg (by decide)]
  split
  · exact hu.hint _
  · exact hu

lemma Block.Owned.freeHugePages_updates {addr numPages : UInt64} (h : (Block.huge addr numPages).Owned s) :
    ∃ t, freeHugePages s addr numPages = .ok t ∧ Updates false (Block.huge addr numPages).Contains s t := by
  have hb : addr.toNat / pageSize + numPages.toNat * pagesPerHuge ≤ s.totalPages := h.bound
  have hn : numPages ≠ 0 := by
    intro he
    have hpos := h.nonempty
    rw [Block.count, he] at hpos
    exact absurd hpos (by decide)
  have h0 : addr ≠ 0 := h.addr_ne_zero
  have hal : addr.toNat % hugePageSize = 0 := h.aligned
  exact PMem.freeHugePages_updates h0 hn hal hb

lemma World.Sound.hint (hw : w.Sound) (hint : Nat) :
    World.Sound { w with memory := { w.memory with nextFreeHint := hint } } := by
  refine ⟨⟨hw.counted.used, hw.counted.clear⟩, fun b hb => ?_, hw.apart⟩
  have ho := hw.owned b hb
  exact ⟨ho.nonempty, ho.low, ho.bound, ho.used, ho.aligned⟩

lemma World.Sound.exec (hw : w.Sound) (ha : Admits w a) : ∃ w', exec w a = .ok w' ∧ w'.Sound := by
  cases a
  case allocPage =>
    refine ⟨_, rfl, ?_⟩
    obtain ⟨_, hint, he⟩ | ⟨_, page, t, he, ht⟩ := allocPage_cases w.memory
    · rw [he]
      exact hw.hint hint
    · rw [he]
      exact hw.hold .page (fun _ => rfl) (fun _ => rfl) le_rfl (fun _ => Nat.mul_mod_left ..) ht
  case freePage page =>
    exact ⟨_, rfl, hw.erase ha (hw.owned _ ha).freePage_updates⟩
  case allocHugePages numPages =>
    have hs : Sized numPages := ⟨ha.1, sized_of_le ha.2⟩
    unfold PMem.exec
    dsimp only
    obtain he | ⟨start, t, he, hal, ht⟩ := hs.allocHugePages_cases w.memory
    · rw [he]
      exact ⟨_, rfl, hw⟩
    · rw [he]
      refine ⟨_, rfl, hw.hold (.huge · numPages) (fun _ => rfl) (fun _ => rfl) ?_ (fun _ => ?_) ht⟩
      · exact Nat.mul_pos (UInt64.le_iff_toNat_le.mp ha.1) (by decide : 0 < pagesPerHuge)
      · exact huge_aligned hal
  case freeHugePages pages numPages =>
    obtain ⟨t, ht, hu⟩ := (hw.owned _ ha).freeHugePages_updates
    unfold PMem.exec
    dsimp only
    rw [ht]
    exact ⟨_, rfl, hw.erase ha hu⟩

theorem blocks_sound (h : Machine.Run (fun w => Counted w.memory ∧ w.held = []) exec Admits w) :
    Counted w.memory ∧ w.held.Pairwise (fun b b' => ∀ i, ¬(b.Contains i ∧ b'.Contains i)) ∧
    (∀ b ∈ w.held, 0x100000 ≤ b.addr.toNat ∧ ∀ i, b.Contains i → 0x100000 ≤ i * pageSize) ∧
    ∀ a, Admits w a → ∃ w', exec w a = .ok w' := by
  have hw : w.Sound := by
    refine h.invariant (fun w hi => ?_) fun {w a w'} hw ha he => ?_
    · obtain ⟨hc, hn⟩ := hi
      exact ⟨hc, by simp [hn], by simp [hn]⟩
    · obtain ⟨w'', he', hw'⟩ := hw.exec ha
      rw [he] at he'
      cases he'
      exact hw'
  refine ⟨hw.counted, hw.apart, fun b hb => ?_, fun a ha => ?_⟩
  · have hlow := (hw.owned b hb).low
    unfold Block.start at hlow
    simp only [lowmemPages, pageSize] at hlow
    refine ⟨by omega, fun i hi => ?_⟩
    have hi := hi.1
    unfold Block.start at hi
    simp only [pageSize] at hi ⊢
    omega
  · obtain ⟨w', he, _⟩ := hw.exec ha
    exact ⟨w', he⟩

theorem blocks_sound_vacant : ∃ w : World, w.held = [.page 0x100000, .huge 0x200000 1, .page 0x101000] ∧
    Counted w.memory ∧ w.held.Pairwise (fun b b' => ∀ i, ¬(b.Contains i ∧ b'.Contains i)) ∧
    (∀ b ∈ w.held, 0x100000 ≤ b.addr.toNat ∧ ∀ i, b.Contains i → 0x100000 ≤ i * pageSize) ∧
    ∀ a, Admits w a → ∃ w', exec w a = .ok w' := by
  have hi : Machine.Run (fun w => Counted w.memory ∧ w.held = []) exec Admits { memory := vacant } :=
    .init ⟨counted_zero _, rfl⟩
  obtain ⟨w, hr, hh⟩ := hi.exists_of_all
    (l := [.allocPage, .allocPage, .freePage 0x100000, .allocHugePages 1, .allocPage])
    (P := fun w => w.held = [.page 0x100000, .huge 0x200000 1, .page 0x101000])
    (by decide +kernel)
  exact ⟨w, hh, blocks_sound hr⟩

end

end PMem
