import VoidFrame.Mem.PMem

-- What the operations on the bitmap of pages do to its bits.

namespace PMem

variable {s t u : State} {v : Bool} {P Q : Nat → Prop} [DecidablePred P] [DecidablePred Q]
  {op : BitVec 64 → BitVec 64 → BitVec 64} {w start count page : Nat} {mask : BitVec 64}

-- The number of pages that are used is the number of bits that are set, and no bit is set beyond the last
-- page.
structure Counted (s : State) : Prop where
  used : s.usedPages = s.pageBitmap.count s.totalPages
  clear : ∀ i, s.totalPages ≤ i → s.pageBitmap.get i = false

lemma words_le (s : State) : s.totalPages ≤ s.bitmapWords * 64 := by
  unfold State.bitmapWords
  omega

lemma words_lt (s : State) : s.bitmapWords * 64 < 2 ^ 64 := by
  have h := s.bound
  unfold State.bitmapWords
  simp only [maxPages, pageSize] at h
  omega

lemma Counted.count_words (h : Counted s) : s.pageBitmap.count (s.bitmapWords * 64) = s.usedPages := by
  rw [h.used]
  exact Bitmap.count_eq_of_le (words_le s) h.clear

lemma counted_zero (hn : n ≤ maxPages) :
    Counted { pageBitmap := fun _ => 0, totalPages := n, bound := hn } := by
  have hclear (i : Nat) : Bitmap.get (fun _ => (0 : BitVec 64)) i = false := BitVec.getLsbD_zero
  exact ⟨(Bitmap.count_eq_of_le n.zero_le fun i _ => hclear i).symm, fun i _ => hclear i⟩

-- The bits that `P` selects are set to `v`, and counted.
structure Updates (v : Bool) (P : Nat → Prop) [DecidablePred P] (s t : State) : Prop where
  get : ∀ i, t.pageBitmap.get i = if P i then v else s.pageBitmap.get i
  totalPages : t.totalPages = s.totalPages
  used : s.usedPages = s.pageBitmap.count (s.bitmapWords * 64) →
    t.usedPages = t.pageBitmap.count (t.bitmapWords * 64)

lemma Updates.refl (v : Bool) (s : State) : Updates v (fun _ => False) s s :=
  ⟨fun _ => rfl, rfl, id⟩

lemma Updates.trans (h : Updates v P s t) (h' : Updates v Q t u) :
    Updates v (fun i => P i ∨ Q i) s u := by
  refine ⟨fun i => ?_, h'.totalPages.trans h.totalPages, fun hs => h'.used (h.used hs)⟩
  rw [h'.get i, h.get i]
  by_cases hp : P i <;> by_cases hq : Q i <;> simp [hp, hq]

lemma Updates.congr (h : Updates v P s t) (hpq : ∀ i, P i ↔ Q i) : Updates v Q s t :=
  ⟨fun i => by rw [h.get i]; simp only [hpq i], h.totalPages, h.used⟩

lemma Updates.hint (h : Updates v P s t) (hint : Nat) : Updates v P s { t with nextFreeHint := hint } :=
  ⟨h.get, h.totalPages, h.used⟩

lemma Updates.bitmapWords (h : Updates v P s t) : t.bitmapWords = s.bitmapWords := by
  unfold State.bitmapWords
  rw [h.totalPages]

lemma Updates.counted (h : Updates v P s t) (hs : Counted s)
    (hP : v = true → ∀ i, P i → i < s.totalPages) : Counted t := by
  have hclear (i : Nat) (hi : t.totalPages ≤ i) : t.pageBitmap.get i = false := by
    rw [h.totalPages] at hi
    rw [h.get i, hs.clear i hi]
    cases v
    case false => simp
    have hn : ¬P i := fun hp => Nat.not_le_of_lt (hP rfl i hp) hi
    simp [hn]
  refine ⟨?_, hclear⟩
  rw [h.used hs.count_words.symm]
  exact Bitmap.count_eq_of_le (words_le t) hclear

-- The operation sets the bits of a mask to `v`.
def Sets (v : Bool) (op : BitVec 64 → BitVec 64 → BitVec 64) : Prop :=
  ∀ x mask i, (op x mask).getLsbD i = if mask.getLsbD i then v else x.getLsbD i

lemma sets_or : Sets true fun before mask => before ||| mask := by
  intro x mask i
  rw [BitVec.getLsbD_or]
  by_cases h : mask.getLsbD i = true <;> simp [h]

lemma sets_and_not : Sets false fun before mask => before &&& ~~~mask := by
  intro x mask i
  rw [BitVec.getLsbD_and, BitVec.getLsbD_not]
  cases h : mask.getLsbD i
  case true => simp
  case false =>
    by_cases hi : i < 64
    · simp [hi]
    · simp [BitVec.getLsbD_of_ge _ _ (Nat.le_of_not_lt hi)]

lemma maskWord_updates (mask : BitVec 64) (ho : Sets v op) (hw : w < s.bitmapWords) : ∃ t, maskWord op s w mask = .ok t ∧
    Updates v (fun i => i / 64 = w ∧ mask.getLsbD (i % 64) = true) s t := by
  unfold maskWord State.word
  rw [if_pos hw]
  refine ⟨_, rfl, fun i => ?_, rfl, fun hu => ?_⟩
  · dsimp only
    unfold Bitmap.get
    by_cases hi : i / 64 = w
    · subst hi
      rw [Function.update_self, ho]
      simp
    · simp [hi]
  · -- the count of the other words stays
    have hc := Bitmap.count_update (m := s.pageBitmap) (x := op (s.pageBitmap w) mask) hw
    have hlt := words_lt s
    have hle : Bitmap.count (Function.update s.pageBitmap w (op (s.pageBitmap w) mask))
        (s.bitmapWords * 64) ≤ s.bitmapWords * 64 := Nat.count_le _
    have hpop : Bitmap.popcount (s.pageBitmap w) ≤ 64 := Nat.count_le _
    change (s.usedPages + Bitmap.popcount (op (s.pageBitmap w) mask) +
      (2 ^ 64 - Bitmap.popcount (s.pageBitmap w))) % 2 ^ 64 =
      Bitmap.count (Function.update s.pageBitmap w (op (s.pageBitmap w) mask)) (s.bitmapWords * 64)
    rw [hu]
    omega

lemma maskWords_updates (ho : Sets v op) (hw : w + n ≤ s.bitmapWords) :
    ∃ t, maskWords op n s w = .ok t ∧ Updates v (fun i => w ≤ i / 64 ∧ i / 64 < w + n) s t := by
  induction n generalizing s w
  case zero => exact ⟨s, rfl, (Updates.refl v s).congr fun i => iff_of_false id (by omega)⟩
  case succ n ih =>
    obtain ⟨t, ht, hu⟩ := maskWord_updates (s := s) (w := w) (BitVec.allOnes 64) ho (by omega)
    obtain ⟨t', ht', hu'⟩ := ih (s := t) (w := w + 1) (by rw [hu.bitmapWords]; omega)
    refine ⟨t', ?_, (hu.trans hu').congr fun i => ?_⟩
    · unfold maskWords
      rw [ht]
      exact ht'
    · have hi : i % 64 < 64 := Nat.mod_lt i (by decide)
      simp only [BitVec.getLsbD_allOnes, hi, decide_true, and_true]
      omega

lemma getLsbD_lowMask : (lowMask a).getLsbD i = decide (a ≤ i ∧ i < 64) :=
  Bitmap.getLsbD_allOnes_shiftLeft

lemma getLsbD_highMask (ha : a < 64) : (highMask a).getLsbD i = decide (i ≤ a) :=
  Bitmap.getLsbD_allOnes_shiftRight ha

lemma endBit_eq (hc : 1 ≤ count) (hlt : start + count < 2 ^ 64) : endBit start count = start + count - 1 := by
  unfold endBit
  omega

lemma bounded_lt (h : page ≤ s.totalPages) : page < 2 ^ 64 := by
  have hb := s.bound
  simp only [maxPages, pageSize] at hb
  omega

-- A range of pages is changed as a whole.
lemma rangeUpdate_updates (ho : Sets v op) (hc : 1 ≤ count) (hle : start + count ≤ s.totalPages) :
    ∃ t, rangeUpdate op s start count = .ok t ∧
      Updates v (fun i => start ≤ i ∧ i < start + count) s t := by
  have he := endBit_eq hc (bounded_lt hle)
  have hoff : (start + count - 1) % 64 < 64 := Nat.mod_lt _ (by decide)
  have hlast : (start + count - 1) / 64 < s.bitmapWords := by
    unfold State.bitmapWords
    omega
  unfold rangeUpdate
  dsimp only
  rw [he]
  split
  case isTrue hw =>
    obtain ⟨t, ht, hu⟩ := maskWord_updates (s := s) (highMask ((start + count - 1) % 64) &&&
      lowMask (start % 64)) ho (hw ▸ hlast)
    refine ⟨t, ht, hu.congr fun i => ?_⟩
    rw [BitVec.getLsbD_and, getLsbD_highMask hoff, getLsbD_lowMask]
    simp only [Bool.and_eq_true, decide_eq_true_eq]
    omega
  case isFalse hw =>
    -- the first word, the words in between and the last word
    obtain ⟨t1, ht1, hu1⟩ := maskWord_updates (s := s) (w := start / 64) (lowMask (start % 64)) ho
      (by omega)
    obtain ⟨t2, ht2, hu2⟩ := maskWords_updates (s := t1) (w := start / 64 + 1)
      (n := (start + count - 1) / 64 - (start / 64 + 1)) ho (by rw [hu1.bitmapWords]; omega)
    obtain ⟨t3, ht3, hu3⟩ := maskWord_updates (s := t2) (w := (start + count - 1) / 64)
      (highMask ((start + count - 1) % 64)) ho (by rw [hu2.bitmapWords, hu1.bitmapWords]; exact hlast)
    refine ⟨t3, ?_, ((hu1.trans hu2).trans hu3).congr fun i => ?_⟩
    · simp only [bind, Except.bind, ht1, ht2, ht3]
    · rw [getLsbD_highMask hoff, getLsbD_lowMask]
      simp only [decide_eq_true_eq]
      omega

lemma wordsFree_eq (hw : w + n ≤ s.bitmapWords) :
    wordsFree s n w = .ok (decide (∀ k, w ≤ k → k < w + n → s.pageBitmap k = 0)) := by
  induction n generalizing w
  case zero =>
    unfold wordsFree
    exact congrArg Except.ok (decide_eq_true fun k h1 h2 => by omega).symm
  case succ n ih =>
    unfold wordsFree State.word
    rw [if_pos (by omega)]
    simp only [bind, Except.bind, pure, Except.pure]
    split
    case isTrue hz =>
      refine congrArg Except.ok (decide_eq_false fun h => hz (h w le_rfl (by omega))).symm
    case isFalse hz =>
      rw [ih (by omega)]
      refine congrArg Except.ok (decide_eq_decide.mpr ⟨fun h k h1 h2 => ?_, fun h k h1 h2 => h k (by omega) (by omega)⟩)
      by_cases hk : k = w
      · rw [hk]; exact not_not.mp hz
      · exact h k (by omega) (by omega)

lemma word_and_eq_zero : s.pageBitmap w &&& mask = 0 ↔
    ∀ i, i / 64 = w → mask.getLsbD (i % 64) = true → s.pageBitmap.get i = false := by
  rw [Bitmap.and_eq_zero]
  constructor
  · intro h i hi hm
    rw [Bitmap.get, hi]
    exact h _ (Nat.mod_lt i (by decide)) hm
  · intro h b hb hm
    have hd : (w * 64 + b) / 64 = w := by omega
    have hr : (w * 64 + b) % 64 = b := by omega
    have hg := h (w * 64 + b) hd (hr.symm ▸ hm)
    rwa [Bitmap.get, hd, hr] at hg

lemma word_eq_zero : s.pageBitmap w = 0 ↔ ∀ i, i / 64 = w → s.pageBitmap.get i = false := by
  have h : s.pageBitmap w &&& BitVec.allOnes 64 = 0 ↔ _ := word_and_eq_zero
  rw [BitVec.and_allOnes] at h
  rw [h]
  refine forall_congr' fun i => imp_congr_right fun _ => ?_
  rw [BitVec.getLsbD_allOnes, decide_eq_true (Nat.mod_lt i (by decide))]
  simp

lemma rangeIsFree_iff (hc : 1 ≤ count) (hle : start + count ≤ s.totalPages) :
    ∃ b, rangeIsFree s start count = .ok b ∧
      (b = true ↔ ∀ i, start ≤ i → i < start + count → s.pageBitmap.get i = false) := by
  have he := endBit_eq hc (bounded_lt hle)
  have hlt := bounded_lt hle
  have hoff : (start + count - 1) % 64 < 64 := Nat.mod_lt _ (by decide)
  have hlast : (start + count - 1) / 64 < s.bitmapWords := by
    unfold State.bitmapWords
    omega
  unfold rangeIsFree
  dsimp only
  rw [he, if_neg (by rw [Nat.mod_eq_of_lt hlt]; omega)]
  unfold State.word
  split
  case isTrue hw =>
    rw [if_pos (hw ▸ hlast)]
    refine ⟨_, rfl, ?_⟩
    rw [decide_eq_true_eq, word_and_eq_zero]
    refine forall_congr' fun i => ?_
    rw [BitVec.getLsbD_and, getLsbD_highMask hoff, getLsbD_lowMask]
    simp only [Bool.and_eq_true, decide_eq_true_eq]
    constructor
    · intro h h1 h2
      exact h (by omega) (by omega)
    · intro h h1 h2
      exact h (by omega) (by omega)
  case isFalse hw =>
    have hfirst : start / 64 < s.bitmapWords := by omega
    -- the first word, the words in between and the last word
    have hiff : (∀ i, start ≤ i → i < start + count → s.pageBitmap.get i = false) ↔
        s.pageBitmap (start / 64) &&& lowMask (start % 64) = 0 ∧
        (∀ k, start / 64 + 1 ≤ k → k < start / 64 + 1 + ((start + count - 1) / 64 - (start / 64 + 1)) →
          s.pageBitmap k = 0) ∧
        s.pageBitmap ((start + count - 1) / 64) &&& highMask ((start + count - 1) % 64) = 0 := by
      simp only [word_and_eq_zero, word_eq_zero, getLsbD_highMask hoff, getLsbD_lowMask, decide_eq_true_eq]
      constructor
      · intro h
        refine ⟨fun i h1 h2 => ?_, fun k h1 h2 i hi => ?_, fun i h1 h2 => ?_⟩ <;>
          exact h i (by omega) (by omega)
      · rintro ⟨h1, h2, h3⟩ i hi1 hi2
        by_cases hf : i / 64 = start / 64
        case pos => exact h1 i hf (by omega)
        by_cases hl : i / 64 = (start + count - 1) / 64
        · exact h3 i hl (by omega)
        · exact h2 (i / 64) (by omega) (by omega) i rfl
    rw [if_pos hfirst, wordsFree_eq (by omega), hiff]
    simp only [bind, Except.bind, pure, Except.pure]
    split
    case isTrue ha => exact ⟨false, rfl, iff_of_false (by decide) fun h => ha h.1⟩
    case isFalse ha =>
      rw [not_not] at ha
      split
      case isTrue hb =>
        refine ⟨false, rfl, ?_⟩
        rw [Bool.not_eq_true', decide_eq_false_iff_not] at hb
        exact iff_of_false (by decide) fun h => hb h.2.1
      case isFalse hb =>
        rw [Bool.not_eq_true', decide_eq_false_iff_not, not_not] at hb
        refine ⟨_, rfl, ?_⟩
        rw [decide_eq_true_eq]
        exact ⟨fun h => ⟨ha, hb, h⟩, fun h => h.2.2⟩

section

-- A range of free pages has been taken.
structure Takes (s t : State) (start count : Nat) : Prop where
  low : lowmemPages ≤ start
  bound : start + count ≤ s.totalPages
  free : ∀ i, start ≤ i → i < start + count → s.pageBitmap.get i = false
  updates : Updates true (fun i => start ≤ i ∧ i < start + count) s t

lemma Takes.counted (h : Takes s t start count) (hs : Counted s) : Counted t :=
  h.updates.counted hs fun _ _ hi => hi.2.trans_le h.bound

lemma pagesPerHuge_eq : pagesPerHuge = 512 :=
  rfl

lemma hugeStart_eq : hugeStart = 512 :=
  rfl

variable {needed : Nat}

-- The loop ends, and either finds nothing or takes a range at a boundary of 2 MiB.
lemma hugeLoop_cases (hn : 1 ≤ needed) (hlow : pagesPerHuge ≤ start)
    (hal : start % pagesPerHuge = 0) (hlt : start + needed < 2 ^ 64) (hpos : 1 ≤ fuel)
    (hf : s.totalPages + 2 ≤ fuel + start) :
    hugeLoop s needed fuel start = .ok (none, s) ∨ ∃ start' t,
      hugeLoop s needed fuel start = .ok (some (start' * pageSize), t) ∧
      start' % pagesPerHuge = 0 ∧ Takes s t start' needed := by
  have hbound := s.bound
  simp only [maxPages, pageSize] at hbound
  induction fuel generalizing start
  case zero => omega
  case succ fuel ih =>
    unfold hugeLoop
    rw [Nat.mod_eq_of_lt hlt]
    split
    case isFalse => exact .inl rfl
    case isTrue hle =>
      obtain ⟨b, hfree, hiff⟩ := rangeIsFree_iff hn hle
      rw [hfree]
      cases b
      case false =>
        rw [pagesPerHuge_eq] at hlow hal ih ⊢
        exact ih (show 512 ≤ start + 512 by omega) (by omega) (by omega) (by omega) (by omega)
      obtain ⟨t, ht, hu⟩ := rangeUpdate_updates sets_or hn hle
      refine .inr ⟨start, { t with nextFreeHint := wrapHint t (start + needed) }, ?_, hal,
        ⟨hlow.trans' (by decide), hle, hiff.mp rfl, hu.hint _⟩⟩
      simp only [bind, Except.bind, rangeSetUsed, ht]
      rfl

-- The number of pages is not too large for 64 bits.
def Sized (numPages : UInt64) : Prop :=
  1 ≤ numPages ∧ hugeStart + numPages.toNat * pagesPerHuge < 2 ^ 64

lemma Sized.toNat_pos (h : Sized numPages) : 1 ≤ numPages.toNat :=
  UInt64.le_iff_toNat_le.mp h.1

lemma wraps_of_not_sized (h : ¬Sized numPages) :
    numPages.toNat = 0 ∨ 2 ^ 64 ≤ hugeStart + numPages.toNat * pagesPerHuge := by
  by_contra hn
  obtain ⟨h0, hlt⟩ := not_or.mp hn
  exact h ⟨UInt64.le_iff_toNat_le.mpr (Nat.one_le_iff_ne_zero.mpr h0), Nat.lt_of_not_le hlt⟩

lemma Sized.allocHugePages_cases (h : Sized numPages) (s : State) :
    allocHugePages s numPages = .ok (none, s) ∨ ∃ start t,
      allocHugePages s numPages = .ok (some (start * pageSize), t) ∧
      start % pagesPerHuge = 0 ∧ Takes s t start (numPages.toNat * pagesPerHuge) := by
  have hlt := h.2
  have hpos := h.toNat_pos
  unfold allocHugePages
  rw [hugeStart_eq, pagesPerHuge_eq] at hlt
  have hmod : numPages.toNat * 512 % 2 ^ 64 = numPages.toNat * 512 := Nat.mod_eq_of_lt (by omega)
  rw [hugeStart_eq, pagesPerHuge_eq, hmod]
  exact hugeLoop_cases (by omega) le_rfl rfl (by omega) (by omega) (by omega)

lemma freeHugePages_updates (h0 : pages ≠ 0) (hn : numPages ≠ 0)
    (hal : pages.toNat % hugePageSize = 0)
    (hle : pages.toNat / pageSize + numPages.toNat * pagesPerHuge ≤ s.totalPages) :
    ∃ t, freeHugePages s pages numPages = .ok t ∧ Updates false (fun i => pages.toNat / pageSize ≤ i ∧
      i < pages.toNat / pageSize + numPages.toNat * pagesPerHuge) s t := by
  have hlt := bounded_lt hle
  have hpos : numPages.toNat ≠ 0 := fun he => hn (UInt64.toNat_inj.mp he)
  have hc : 1 ≤ numPages.toNat * pagesPerHuge := Nat.mul_pos (Nat.pos_of_ne_zero hpos) (by decide)
  obtain ⟨t, ht, hu⟩ := rangeUpdate_updates sets_and_not hc hle
  unfold freeHugePages
  rw [if_neg (not_or.mpr ⟨h0, hn⟩), if_neg (not_not.mpr hal)]
  dsimp only
  rw [Nat.mod_eq_of_lt ((Nat.le_add_left ..).trans_lt hlt), Nat.mod_eq_of_lt hlt, if_neg (Nat.not_lt.mpr hle)]
  simp only [rangeSetFree, ht, bind, Except.bind]
  refine ⟨_, rfl, ?_⟩
  split
  · exact hu.hint _
  · exact hu

lemma freeHugePages_cases (h : pages ≠ 0 → numPages ≠ 0 → pages.toNat % hugePageSize = 0 →
      pages.toNat / pageSize + numPages.toNat * pagesPerHuge < 2 ^ 64) (s : State) :
    freeHugePages s pages numPages = .ok s ∨
      ∃ t, freeHugePages s pages numPages = .ok t ∧ Updates false (fun i => pages.toNat / pageSize ≤ i ∧
        i < pages.toNat / pageSize + numPages.toNat * pagesPerHuge) s t := by
  by_cases h0 : pages = 0 ∨ numPages = 0
  case pos => exact .inl (if_pos h0)
  obtain ⟨hp, hn⟩ := not_or.mp h0
  by_cases hal : pages.toNat % hugePageSize = 0
  case neg => exact .inl ((if_neg h0).trans (if_pos hal))
  have hlt := h hp hn hal
  by_cases hle : pages.toNat / pageSize + numPages.toNat * pagesPerHuge ≤ s.totalPages
  case pos => exact .inr (freeHugePages_updates hp hn hal hle)
  left
  unfold freeHugePages
  rw [if_neg h0, if_neg (not_not.mpr hal)]
  dsimp only
  rw [Nat.mod_eq_of_lt ((Nat.le_add_left ..).trans_lt hlt), Nat.mod_eq_of_lt hlt,
    if_pos (Nat.lt_of_not_le hle)]
  rfl

lemma sized_of_le {numPages : UInt64} (h : numPages.toNat * pagesPerHuge ≤ s.totalPages) :
    hugeStart + numPages.toNat * pagesPerHuge < 2 ^ 64 := by
  have hb := s.bound
  rw [hugeStart_eq]
  simp only [maxPages, pageSize] at hb
  omega

lemma huge_aligned (h : start % pagesPerHuge = 0) : start * pageSize % hugePageSize = 0 := by
  rw [pagesPerHuge_eq] at h
  simp only [pageSize, hugePageSize]
  omega

lemma maskWord_last {b : Nat} (ho : Sets v op) (hm : mask.getLsbD (b % 64) = true) (h : maskWord op s (b / 64) mask = .ok t) :
    t.pageBitmap.get b = v ∧ b / 64 < s.bitmapWords := by
  by_cases hw : b / 64 < s.bitmapWords
  case pos =>
    obtain ⟨t', ht, hu⟩ := maskWord_updates mask ho hw
    obtain rfl := Except.ok.inj (ht.symm.trans h)
    exact ⟨(hu.get b).trans (if_pos ⟨rfl, hm⟩), hw⟩
  case neg =>
    rw [maskWord, State.word, if_neg hw] at h
    cases h

lemma getLsbD_highMask_self (b : Nat) : (highMask (b % 64)).getLsbD (b % 64) = true := by
  rw [getLsbD_highMask (Nat.mod_lt _ (by decide))]
  exact decide_eq_true le_rfl

-- The last bit of a range is changed even if the range ends in front of its start.
lemma rangeUpdate_last (ho : Sets v op) (hne : start / 64 ≠ endBit start count / 64)
    (h : rangeUpdate op s start count = .ok t) :
    t.pageBitmap.get (endBit start count) = v ∧ endBit start count ≠ 2 ^ 64 - 1 := by
  unfold rangeUpdate at h
  dsimp only at h
  rw [if_neg hne] at h
  obtain ⟨t1, -, h⟩ := Except.of_bind h
  obtain ⟨t2, -, h⟩ := Except.of_bind h
  have ⟨hv, hw⟩ := maskWord_last ho (getLsbD_highMask_self _) h
  have := words_lt t2
  exact ⟨hv, fun he => by omega⟩

lemma rangeIsFree_last (hne : start / 64 ≠ endBit start count / 64) (h : rangeIsFree s start count = .ok true) :
    s.pageBitmap.get (endBit start count) = false := by
  unfold rangeIsFree State.word at h
  dsimp only at h
  rw [if_neg hne] at h
  split at h
  case isTrue => cases h
  obtain ⟨w1, -, h⟩ := Except.of_bind h
  split at h
  case isTrue => cases h
  obtain ⟨w2, -, h⟩ := Except.of_bind h
  split at h
  case isTrue => cases h
  obtain ⟨w3, h3, h⟩ := Except.of_bind h
  split at h3 <;> cases h3
  have hz := decide_eq_true_eq.mp (Except.ok.inj h)
  exact word_and_eq_zero.mp hz _ rfl (getLsbD_highMask_self _)

-- A range whose length has been cut ends in front of its start, or behind the memory, or too early.
lemma endBit_cases (hs : start % pagesPerHuge = 0) (hpos : 0 < start) (hlt : start < 2 ^ 64)
    (hn : n = 0 ∨ 2 ^ 64 ≤ start + n * pagesPerHuge) :
    (endBit start (n * pagesPerHuge % 2 ^ 64) < start ∨ endBit start (n * pagesPerHuge % 2 ^ 64) = 2 ^ 64 - 1) ∧
      start / 64 ≠ endBit start (n * pagesPerHuge % 2 ^ 64) / 64 ∨
    1 ≤ n * pagesPerHuge % 2 ^ 64 ∧ start + n * pagesPerHuge % 2 ^ 64 < 2 ^ 64 ∧
      n * pagesPerHuge % 2 ^ 64 < n * pagesPerHuge := by
  rw [pagesPerHuge_eq] at *
  unfold endBit
  omega

-- An update of such a range changes a page that is not in the range, or leaves one that is.
lemma rangeUpdate_cut (ho : Sets v op) (hs : start % pagesPerHuge = 0) (hpos : 0 < start) (hlt : start < 2 ^ 64)
    (hn : n = 0 ∨ 2 ^ 64 ≤ start + n * pagesPerHuge)
    (hle : (start + n * pagesPerHuge % 2 ^ 64) % 2 ^ 64 ≤ s.totalPages)
    (h : rangeUpdate op s start (n * pagesPerHuge % 2 ^ 64) = .ok t) :
    (start / 64 ≠ endBit start (n * pagesPerHuge % 2 ^ 64) / 64 ∧
      endBit start (n * pagesPerHuge % 2 ^ 64) < start ∧
      t.pageBitmap.get (endBit start (n * pagesPerHuge % 2 ^ 64)) = v) ∨
    ∃ i, (start ≤ i ∧ i < start + n * pagesPerHuge) ∧ t.pageBitmap.get i = s.pageBitmap.get i ∧
      t.pageBitmap.get start = v := by
  obtain ⟨he, hne⟩ | ⟨hc, hsum, hcut⟩ := endBit_cases hs hpos hlt hn
  · have ⟨hv, hend⟩ := rangeUpdate_last ho hne h
    exact .inl ⟨hne, he.resolve_right hend, hv⟩
  · rw [Nat.mod_eq_of_lt hsum] at hle
    obtain ⟨t', ht, hu⟩ := rangeUpdate_updates ho hc hle
    obtain rfl := Except.ok.inj (ht.symm.trans h)
    refine .inr ⟨start + n * pagesPerHuge % 2 ^ 64, ⟨Nat.le_add_right _ _, Nat.add_lt_add_left hcut _⟩, ?_, ?_⟩
    · exact (hu.get _).trans (if_neg fun hi => Nat.lt_irrefl _ hi.2)
    · exact (hu.get _).trans (if_pos ⟨le_rfl, Nat.lt_add_of_pos_right hc⟩)

-- The search has come to the start after `k` others.
lemma wrapped_add {k : Nat} (hk : (hugeStart + needed) % 2 ^ 64 + pagesPerHuge * k ≤ s.totalPages + pagesPerHuge) :
    (hugeStart + pagesPerHuge * k + needed) % 2 ^ 64 = (hugeStart + needed) % 2 ^ 64 + pagesPerHuge * k := by
  have hb := s.bound
  simp only [maxPages, pageSize, hugeStart_eq, pagesPerHuge_eq] at *
  omega

lemma hugeLoop_skip {k : Nat} (h : ∀ j < k, (hugeStart + needed) % 2 ^ 64 + pagesPerHuge * j ≤ s.totalPages ∧
      rangeIsFree s (hugeStart + pagesPerHuge * j) needed = .ok false) (fuel : Nat) :
    hugeLoop s needed (fuel + k) hugeStart = hugeLoop s needed fuel (hugeStart + pagesPerHuge * k) := by
  induction k generalizing fuel
  case zero => rfl
  case succ k ih =>
    have ⟨hle, hf⟩ := h k (Nat.lt_succ_self k)
    rw [← Nat.add_assoc, Nat.add_right_comm, ih fun j hj => h j (Nat.lt_succ_of_lt hj), hugeLoop,
      wrapped_add (hle.trans (Nat.le_add_right _ _)), if_pos hle, hf]
    rw [Nat.mul_succ, ← Nat.add_assoc]
    rfl

-- No start that the search comes to is free, by the test for the range as it is cut to 64 bits.
def Blocked (s : State) (needed : Nat) : Prop :=
  ∀ k, (hugeStart + needed) % 2 ^ 64 + pagesPerHuge * k ≤ s.totalPages →
    rangeIsFree s (hugeStart + pagesPerHuge * k) needed = .ok false

lemma Blocked.hugeLoop_eq (h : Blocked s needed) : hugeLoop s needed (s.totalPages + 1) hugeStart = .ok (none, s) := by
  by_cases h0 : (hugeStart + needed) % 2 ^ 64 ≤ s.totalPages
  case neg =>
    unfold hugeLoop
    rw [if_neg h0]
    rfl
  -- the first start lies in the bitmap
  have hpos : 0 < s.totalPages := by
    refine Nat.pos_of_ne_zero fun hz => ?_
    have hf := h 0 h0
    have hw : s.bitmapWords = 0 := by rw [State.bitmapWords, hz]
    unfold rangeIsFree State.word at hf
    dsimp only at hf
    rw [Nat.mul_zero, Nat.add_zero, if_neg (Nat.not_lt.mpr h0)] at hf
    simp only [hw, Nat.not_lt_zero, if_false] at hf
    split at hf <;> cases hf
  have hk := Nat.lt_mul_div_succ (s.totalPages - (hugeStart + needed) % 2 ^ 64) (show 0 < pagesPerHuge by decide)
  have hk' := Nat.mul_div_le (s.totalPages - (hugeStart + needed) % 2 ^ 64) pagesPerHuge
  generalize (s.totalPages - (hugeStart + needed) % 2 ^ 64) / pagesPerHuge = k at hk hk'
  have hfuel : s.totalPages + 1 = s.totalPages - (k + 1) + 1 + (k + 1) := by
    rw [pagesPerHuge_eq] at hk'
    omega
  rw [hfuel, hugeLoop_skip fun j hj => ?_, hugeLoop, wrapped_add (s := s) (by rw [Nat.mul_succ]; omega), if_neg (by omega)]
  · rfl
  · have hj : (hugeStart + needed) % 2 ^ 64 + pagesPerHuge * j ≤ s.totalPages := by
      have := Nat.mul_le_mul_left pagesPerHuge (Nat.le_of_lt_succ hj)
      omega
    exact ⟨hj, h j hj⟩

-- Either nothing changes, or exactly the pages of a range at a boundary of 2 MiB are newly used.
def AllocExact (s : State) (numPages : UInt64) : Prop :=
  ∃ r, allocHugePages s numPages = .ok r ∧
    (r = (none, s) ∨ ∃ start, r.1 = some (start * pageSize) ∧ start * pageSize % hugePageSize = 0 ∧
      ∀ i, (start ≤ i ∧ i < start + numPages.toNat * pagesPerHuge →
          s.pageBitmap.get i = false ∧ r.2.pageBitmap.get i = true) ∧
        (¬(start ≤ i ∧ i < start + numPages.toNat * pagesPerHuge) →
          r.2.pageBitmap.get i = s.pageBitmap.get i))

lemma Sized.exact (h : Sized numPages) (s : State) : AllocExact s numPages := by
  obtain he | ⟨start, t, he, hal, ht⟩ := h.allocHugePages_cases s
  · exact ⟨_, he, .inl rfl⟩
  · refine ⟨_, he, .inr ⟨start, rfl, huge_aligned hal, fun i => ⟨fun hi => ⟨ht.free i hi.1 hi.2, ?_⟩, fun hi => ?_⟩⟩⟩
    · exact (ht.updates.get i).trans (if_pos hi)
    · exact (ht.updates.get i).trans (if_neg hi)

lemma AllocExact.sized_or_blocked (h : AllocExact s numPages) :
    Sized numPages ∨ Blocked s (numPages.toNat * pagesPerHuge % 2 ^ 64) := by
  by_contra hn
  obtain ⟨hsz, hbl⟩ := not_or.mp hn
  classical
  have hex := not_forall.mp hbl
  -- the first start that is not refused
  have hlast := Nat.find_spec hex
  have hfirst := fun j hj => not_not.mp (Nat.find_min (H := hex) (m := j) hj)
  generalize Nat.find hex = k at hlast hfirst
  obtain ⟨hle, hf⟩ := Classical.not_imp.mp hlast
  obtain ⟨r, hr, hex⟩ := h
  have hk : k ≤ s.totalPages := by
    rw [pagesPerHuge_eq] at hle
    omega
  have hsum := wrapped_add (hle.trans (Nat.le_add_right _ _))
  have hskip := hugeLoop_skip (k := k) (fun j hj =>
    have hj' := (Nat.add_le_add_left (Nat.mul_le_mul_left _ hj.le) _).trans hle
    ⟨hj', hfirst j hj hj'⟩) (s.totalPages - k + 1)
  rw [allocHugePages, show s.totalPages + 1 = s.totalPages - k + 1 + k by omega, hskip, hugeLoop, hsum,
    if_pos hle] at hr
  obtain ⟨b, hb, hr⟩ := Except.of_bind hr
  cases b
  case false => exact hf hb
  obtain ⟨t, ht, hr⟩ := Except.of_bind hr
  obtain rfl := Except.ok.inj hr
  have hlt : hugeStart + pagesPerHuge * k < 2 ^ 64 := by
    have hb := s.bound
    simp only [maxPages, pageSize, hugeStart_eq, pagesPerHuge_eq] at *
    omega
  have hcut := (wraps_of_not_sized hsz).imp_right fun h => h.trans
    (Nat.add_le_add_right (Nat.le_add_right hugeStart (pagesPerHuge * k)) _)
  obtain he | ⟨start, he, -, hall⟩ := hex
  · cases he
  obtain rfl := Nat.eq_of_mul_eq_mul_right (by decide) (Option.some.inj he)
  obtain ⟨hne, hout, ht⟩ | ⟨i, hi, hsame, -⟩ := rangeUpdate_cut sets_or
    (by rw [Nat.add_mul_mod_self_left]; rfl) (Nat.add_pos_left (by decide) _) hlt hcut (hsum.trans_le hle) ht
  · have hs := (hall _).2 fun hi => absurd hi.1 (Nat.not_le.mpr hout)
    rw [rangeIsFree_last hne hb] at hs
    exact Bool.noConfusion (ht.symm.trans hs)
  · have ⟨hs, hu⟩ := (hall i).1 hi
    exact Bool.noConfusion (hs.symm.trans (hsame.symm.trans hu))

-- Unless a request is refused, exactly the pages of its range are free afterwards.
def FreeExact (s : State) (pages numPages : UInt64) : Prop :=
  ∃ t, freeHugePages s pages numPages = .ok t ∧
    (t = s ∨ ∀ i, t.pageBitmap.get i = if pages.toNat / pageSize ≤ i ∧
      i < pages.toNat / pageSize + numPages.toNat * pagesPerHuge then false else s.pageBitmap.get i)

-- A range that is not refused fits into 64 bits.
def Fits (totalPages : Nat) (pages numPages : UInt64) : Prop :=
  pages ≠ 0 → numPages ≠ 0 → pages.toNat % hugePageSize = 0 →
    (pages.toNat / pageSize + numPages.toNat * pagesPerHuge % 2 ^ 64) % 2 ^ 64 ≤ totalPages →
    pages.toNat / pageSize + numPages.toNat * pagesPerHuge < 2 ^ 64

lemma Fits.exact (h : Fits s.totalPages pages numPages) : FreeExact s pages numPages := by
  by_cases hle : (pages.toNat / pageSize + numPages.toNat * pagesPerHuge % 2 ^ 64) % 2 ^ 64 ≤ s.totalPages
  case pos =>
    obtain he | ⟨t, he, hu⟩ := freeHugePages_cases (fun h0 hn hal => h h0 hn hal hle) s
    · exact ⟨s, he, .inl rfl⟩
    · exact ⟨t, he, .inr hu.get⟩
  case neg =>
    refine ⟨s, ?_, .inl rfl⟩
    unfold freeHugePages
    dsimp only
    rw [if_pos (Nat.lt_of_not_le hle)]
    split_ifs <;> rfl

-- Every page is used.
def State.full (s : State) : State :=
  { s with pageBitmap := fun _ => BitVec.allOnes 64 }

lemma State.full_get (s : State) (i : Nat) : s.full.pageBitmap.get i = true := by
  rw [Bitmap.get, full, BitVec.getLsbD_allOnes]
  exact decide_eq_true (Nat.mod_lt i (by decide))

lemma FreeExact.fits (h : FreeExact s.full pages numPages) : Fits s.totalPages pages numPages := by
  intro h0 hn hal hle
  by_contra hlt
  obtain ⟨t, ht, hex⟩ := h
  unfold freeHugePages at ht
  rw [if_neg (not_or.mpr ⟨h0, hn⟩), if_neg (not_not.mpr hal)] at ht
  dsimp only at ht
  rw [if_neg (show ¬s.full.totalPages < _ from Nat.not_lt.mpr hle)] at ht
  obtain ⟨u, hu, ht⟩ := Except.of_bind ht
  have hget : t.pageBitmap = u.pageBitmap := by
    obtain rfl := Except.ok.inj ht
    split <;> rfl
  have hpos : pages.toNat ≠ 0 := fun he => h0 (UInt64.toNat_inj.mp he)
  have hbound := pages.toNat_lt
  simp only [hugePageSize] at hal
  obtain ⟨-, hout, hv⟩ | ⟨i, hi, hsame, hv⟩ := rangeUpdate_cut (s := s.full) sets_and_not
    (by simp only [pagesPerHuge_eq, pageSize]; omega) (by simp only [pageSize]; omega)
    (by simp only [pageSize]; omega) (.inr (Nat.le_of_not_lt hlt)) hle hu
  · rw [← hget] at hv
    obtain rfl | hall := hex
    · exact Bool.noConfusion (hv.symm.trans (s.full_get _))
    · rw [hall, if_neg fun hi => absurd hi.1 (Nat.not_le.mpr hout), s.full_get] at hv
      cases hv
  · rw [← hget] at hv hsame
    obtain rfl | hall := hex
    · exact Bool.noConfusion (hv.symm.trans (s.full_get _))
    · rw [hall, if_pos hi, s.full_get] at hsame
      cases hsame

-- An allocation is exact unless the length of its range does not fit into 64 bits and the search takes a
-- range, and so is a release, whatever the bitmap, unless the range that is not refused does not fit.
theorem huge_pages_exact (s : State) (pages numPages : UInt64) :
    (AllocExact s numPages ↔ Sized numPages ∨ Blocked s (numPages.toNat * pagesPerHuge % 2 ^ 64)) ∧
    ((∀ u : State, u.totalPages = s.totalPages → FreeExact u pages numPages) ↔
      Fits s.totalPages pages numPages) := by
  refine ⟨⟨AllocExact.sized_or_blocked, ?_⟩, fun h => (h s.full rfl).fits, fun h u hu => Fits.exact (hu ▸ h)⟩
  rintro (h | h)
  · exact h.exact s
  · exact ⟨_, h.hugeLoop_eq, .inl rfl⟩

-- A memory of 4 MiB without a page that is used.
def vacant : State where
  pageBitmap := fun _ => 0
  totalPages := 1024
  bound := by decide

-- Pages are taken for a range of none, pages in front of the start of a range are freed, and a range is
-- taken that is shorter than the number of its pages.
theorem huge_pages_inexact :
    (∃ r, allocHugePages vacant 0 = .ok r ∧ r.1 = some 0x200000 ∧
      (∀ i < 1024, r.2.pageBitmap.get i = decide (448 ≤ i ∧ i < 576)) ∧
      ((freeHugePages r.2 0x200000 (2 ^ 55)).toOption.any fun u =>
        ∀ i < 1024, u.pageBitmap.get i = false) = true) ∧
    ∃ r, allocHugePages vacant (2 ^ 55 + 1) = .ok r ∧ r.1 = some 0x200000 ∧
      r.2.pageBitmap.get 1024 = false :=
  ⟨Except.exists_of_any (by decide +kernel), Except.exists_of_any (by decide +kernel)⟩

end

end PMem
