import VoidFrame.Mem.Boot
import VoidFrame.Mem.Theorems.Block

-- What `MemoryInit` leaves free.

namespace PMem

variable {s t u : State} {page first last : Nat} {info : MultibootInfo} {kernel : Kernel} {e : MmapEntry}
  {P Q : Nat → Prop}

-- Exactly these pages of the memory are marked as used.
structure Marks (P : Nat → Prop) (s t : State) : Prop where
  totalPages : t.totalPages = s.totalPages
  get : ∀ i < s.totalPages, t.pageBitmap.get i = true ↔ s.pageBitmap.get i = true ∨ P i

namespace Marks

lemma refl (s : State) : Marks (fun _ => False) s s :=
  ⟨rfl, fun _ _ => (or_false _).to_iff.symm⟩

lemma trans (h : Marks P s t) (h' : Marks Q t u) : Marks (fun i => P i ∨ Q i) s u :=
  ⟨h'.totalPages.trans h.totalPages, fun i hi => by
    rw [h'.get i (h.totalPages.symm ▸ hi), h.get i hi, or_assoc]⟩

lemma congr (h : Marks P s t) (hpq : ∀ i < s.totalPages, P i ↔ Q i) : Marks Q s t :=
  ⟨h.totalPages, fun i hi => by rw [h.get i hi, hpq i hi]⟩

end Marks

lemma markPageUsed_marks (s : State) (page : Nat) : Marks (· = page) s (markPageUsed s page) := by
  have hw := words_le s
  by_cases hin : page < s.totalPages
  case neg =>
    have he : markPageUsed s page = s := if_pos (.inl (Nat.le_of_not_lt hin))
    rw [he]
    exact (Marks.refl s).congr fun i hi => ⟨False.elim, fun he => hin (he ▸ hi)⟩
  cases hg : s.pageBitmap.get page
  case false =>
    have hu := markPageUsed_updates hin hg
    refine ⟨hu.totalPages, fun i _ => ?_⟩
    rw [hu.get i]
    by_cases he : i = page <;> simp [he]
  case true =>
    have he : markPageUsed s page = s := by
      unfold markPageUsed
      rw [if_neg (by omega), hg]
      rfl
    rw [he]
    exact ⟨rfl, fun i _ => ⟨.inl, fun h => h.elim id fun he => he ▸ hg⟩⟩

lemma markPages_marks (s : State) (first last : Nat) :
    Marks (fun i => first ≤ i ∧ i < last) s (markPages s first last) := by
  unfold markPages
  generalize hn : last - first = n
  induction n generalizing s first
  case zero => exact (Marks.refl s).congr fun i _ => ⟨False.elim, fun h => by omega⟩
  case succ n ih =>
    rw [List.range'_succ, List.foldl_cons]
    exact ((markPageUsed_marks s first).trans (ih _ (first + 1) (by omega))).congr fun i _ => by omega

-- The walk from an address up to an end comes to the page.
def Reaches (current endAddr i : Nat) : Prop :=
  current / pageSize ≤ i ∧ i * pageSize + current % pageSize < endAddr

-- The fuel is used up if the address wraps.
lemma reserveLoop_marks (hf : fuel * pageSize ≤ endAddr.toNat - current.toNat + 2 * pageSize)
    (h : reserveLoop endAddr fuel s current = .ok t) : Marks (Reaches current.toNat endAddr.toNat) s t := by
  induction fuel generalizing s current
  case zero => cases h
  case succ fuel ih =>
    have hend := endAddr.toNat_lt
    have hadd : (current + .ofNat pageSize).toNat = (current.toNat + 4096) % 2 ^ 64 := UInt64.toNat_add ..
    unfold reserveLoop at h
    generalize current + .ofNat pageSize = next at h hadd
    split at h
    case isFalse hlt =>
      rw [UInt64.lt_iff_toNat_lt] at hlt
      cases h
      refine (Marks.refl _).congr fun i _ => ⟨False.elim, fun h => ?_⟩
      simp only [Reaches, pageSize] at h
      omega
    case isTrue hlt =>
      rw [UInt64.lt_iff_toNat_lt] at hlt
      by_cases hwrap : current.toNat + 4096 < 2 ^ 64
      case pos =>
        rw [Nat.mod_eq_of_lt hwrap] at hadd
        refine ((markPageUsed_marks s _).trans (ih ?_ h)).congr fun i _ => ?_
        · rw [Nat.succ_mul] at hf
          generalize fuel * pageSize = m at hf ⊢
          simp only [pageSize] at hf ⊢
          omega
        · simp only [Reaches, pageSize]
          omega
      case neg =>
        simp only [pageSize] at hf
        obtain rfl | rfl : fuel = 0 ∨ fuel = 1 := by omega
        · cases h
        unfold reserveLoop at h
        split at h
        case isTrue => cases h
        case isFalse hn =>
          rw [UInt64.lt_iff_toNat_lt] at hn
          omega

def MmapEntry.Contains (e : MmapEntry) (b : Nat) : Prop :=
  e.addr.toNat ≤ b ∧ b < e.addr.toNat + e.len.toNat

-- The bytes of a page.
def InPage (i b : Nat) : Prop :=
  i * pageSize ≤ b ∧ b < (i + 1) * pageSize

-- The entry is not available, and an address of the page is a multiple of the page size behind its start.
def MmapEntry.Strikes (e : MmapEntry) (i : Nat) : Prop :=
  e.type ≠ memoryAvailable ∧ Reaches e.addr.toNat (e.addr + e.len).toNat i

lemma reserveEntry_marks (h : reserveEntry s e = .ok t) : Marks e.Strikes s t := by
  unfold reserveEntry at h
  split at h
  case isTrue ha =>
    cases h
    exact (Marks.refl _).congr fun i _ => ⟨False.elim, fun h => h.1 ha⟩
  case isFalse ha =>
    by_cases hlt : e.addr < e.addr + e.len
    case pos =>
      refine (reserveLoop_marks ?_ h).congr fun i _ => (and_iff_right ha).symm
      have hend := UInt64.toNat_add e.addr e.len
      have haddr := e.addr.toNat_lt
      have hlen := e.len.toNat_lt
      rw [UInt64.lt_iff_toNat_lt] at hlt
      simp only [pageSize]
      omega
    case neg =>
      rw [reserveLoop, if_neg hlt] at h
      cases h
      rw [UInt64.lt_iff_toNat_lt] at hlt
      refine (Marks.refl _).congr fun i _ => ⟨False.elim, fun h => ?_⟩
      have := h.2
      simp only [Reaches, pageSize] at this
      omega

lemma reserveEntries_marks {entries : List MmapEntry} (h : entries.foldlM reserveEntry s = .ok t) :
    Marks (fun i => ∃ e ∈ entries, e.Strikes i) s t := by
  induction entries generalizing s
  case nil =>
    cases h
    exact (Marks.refl _).congr fun i _ => ⟨False.elim, fun ⟨e, he, _⟩ => nomatch he⟩
  case cons e' entries ih =>
    rw [List.foldlM_cons] at h
    obtain ⟨u, hu, h⟩ := Except.of_bind h
    exact ((reserveEntry_marks hu).trans (ih h)).congr fun i _ => by simp

section

variable (info : MultibootInfo) (kernel : Kernel)

-- The memory that is reserved next to the entries: the low memory, the bitmap, the kernel and the tags.
def Taken (b : Nat) : Prop :=
  b < 0x100000 ∨
  (bitmapStart ≤ b ∧ b < bitmapStart + bitmapSize (detectedPages info)) ∨
  (kernel.startAddr.toNat ≤ b ∧ b < kernel.endAddr.toNat) ∨
  (info.addr.toNat ≤ b ∧ b < info.addr.toNat + info.totalSize.toNat)

-- The pages of that memory, with the sums of the source, and those that an entry strikes.
def Struck (i : Nat) : Prop :=
  ((((∃ e ∈ mmapEntries (info.reread (bitmapSize (detectedPages info))), e.Strikes i) ∨
    0 ≤ i ∧ i < lowmemPages) ∨
    bitmapStart / pageSize ≤ i ∧
      i < (bitmapStart + bitmapSize (detectedPages info) + (pageSize - 1)) / pageSize) ∨
    kernel.startAddr.toNat / pageSize ≤ i ∧ i < (kernel.endAddr.toNat + (pageSize - 1)) % 2 ^ 64 / pageSize) ∨
    info.addr.toNat / pageSize ≤ i ∧
      i < (info.addr.toNat + info.totalSize.toNat + (pageSize - 1)) % 2 ^ 32 / pageSize

-- The reservations leave no byte out: every page that has one of another kind is struck.
structure Reserved : Prop where
  gapless : ∀ i < detectedPages info, ¬Struck info kernel i →
    ∀ b, InPage i b → ∃ e ∈ info.entries, e.type = memoryAvailable ∧ e.Contains b
  taken : ∀ i < detectedPages info, ¬Struck info kernel i → ∀ b, InPage i b → ¬Taken info kernel b

end

lemma memoryInit_marks (h : memoryInit info kernel = .ok s) :
    s.totalPages = detectedPages info ∧
      ∀ i < detectedPages info, s.pageBitmap.get i = true ↔ Struck info kernel i := by
  unfold memoryInit at h
  dsimp only at h
  split at h
  case isTrue => cases h
  obtain ⟨s₁, h₁, h⟩ := Except.of_bind h
  suffices hm : Marks (Struck info kernel)
      { pageBitmap := fun _ => 0, totalPages := detectedPages info, bound := detectedPages_le info } s by
    refine ⟨hm.totalPages, fun i hi => (hm.get i hi).trans ?_⟩
    refine or_iff_right (Bool.not_eq_true _ ▸ ?_)
    exact BitVec.getLsbD_zero
  obtain rfl := Except.ok.inj h
  exact ((((reserveEntries_marks h₁).trans (markPages_marks s₁ _ _)).trans (markPages_marks _ _ _)).trans
    (markPages_marks _ _ _)).trans (markPages_marks _ _ _)

-- A free page lies in entries that are available if and only if the reservations leave no byte out.
theorem free_available (h : memoryInit info kernel = .ok s) :
    (∀ i < s.totalPages, s.pageBitmap.get i = false → ∀ b, InPage i b →
      ¬Taken info kernel b ∧ ∃ e ∈ info.entries, e.type = memoryAvailable ∧ e.Contains b) ↔
    Reserved info kernel := by
  obtain ⟨ht, hm⟩ := memoryInit_marks h
  have hfree (i : Nat) (hi : i < detectedPages info) : s.pageBitmap.get i = false ↔ ¬Struck info kernel i := by
    rw [← hm i hi, Bool.not_eq_true]
  rw [ht]
  constructor
  · intro h
    exact ⟨fun i hi hs b hb => (h i hi ((hfree i hi).mpr hs) b hb).2,
      fun i hi hs b hb => (h i hi ((hfree i hi).mpr hs) b hb).1⟩
  · intro h i hi hf b hb
    have hs := (hfree i hi).mp hf
    exact ⟨h.taken i hi hs b hb, h.gapless i hi hs b hb⟩

-- A memory of 32 MiB.
def flatMap : MultibootInfo where
  addr := 0x9000
  totalSize := 0x100
  tags := [.other, .mmap [⟨0, 0x2000000, 1⟩]]

def smallKernel : Kernel where
  startAddr := 0x100000
  endAddr := 0x102000

lemma flatMap_pages : detectedPages flatMap = 0x2000 := by
  decide +kernel

lemma flatMap_reserved : Reserved flatMap smallKernel := by
  have hk : smallKernel.startAddr.toNat = 0x100000 ∧ smallKernel.endAddr.toNat = 0x102000 := ⟨rfl, rfl⟩
  have ha : flatMap.addr.toNat = 0x9000 ∧ flatMap.totalSize.toNat = 0x100 := ⟨rfl, rfl⟩
  constructor
  case gapless =>
    intro i hi _ b hb
    refine ⟨⟨0, 0x2000000, 1⟩, by decide, rfl, Nat.zero_le b, ?_⟩
    have hr := hb.2
    rw [flatMap_pages] at hi
    simp only [pageSize] at hr
    change b < 0 + 0x2000000
    omega
  case taken =>
    intro i _ hs b hb ht
    obtain ⟨hs, h4⟩ := not_or.mp hs
    obtain ⟨hs, h3⟩ := not_or.mp hs
    obtain ⟨hs, h2⟩ := not_or.mp hs
    obtain ⟨-, h1⟩ := not_or.mp hs
    simp only [Taken, InPage, flatMap_pages, bitmapSize, bitmapStart, lowmemPages, pageSize, hk, ha] at *
    omega

theorem free_available_flat : ∃ s, memoryInit flatMap smallKernel = .ok s ∧
    (s.totalPages = 0x2000 ∧ s.pageBitmap.get 0x1800 = false) ∧
    ∀ i < s.totalPages, s.pageBitmap.get i = false → ∀ b, InPage i b → ¬Taken flatMap smallKernel b ∧
      ∃ e ∈ flatMap.entries, e.type = memoryAvailable ∧ e.Contains b := by
  obtain ⟨s, h, hs⟩ := Except.exists_of_any (x := memoryInit flatMap smallKernel)
    (P := fun s => s.totalPages = 0x2000 ∧ s.pageBitmap.get 0x1800 = false) (by decide +kernel)
  exact ⟨s, h, hs, (free_available h).mpr flatMap_reserved⟩

-- A map with an entry that is reserved and ends inside of a page, a gap, and an end inside of a page.
def raggedMap : MultibootInfo where
  addr := 0x9000
  totalSize := 0x100
  tags := [.mmap [⟨0, 0x1100000, 1⟩, ⟨0x1100800, 0x1000, 2⟩, ⟨0x1101800, 0xfe800, 1⟩,
    ⟨0x1300000, 0xcff800, 1⟩]]

-- The second page of the reserved entry, the pages of the gap and the last page are free.
theorem free_unavailable : ∃ s, memoryInit raggedMap smallKernel = .ok s ∧ s.totalPages = 0x2000 ∧
    (s.pageBitmap.get 0x1101 = false ∧ MmapEntry.Contains ⟨0x1100800, 0x1000, 2⟩ 0x1101000) ∧
    (s.pageBitmap.get 0x1200 = false ∧ ∀ e ∈ raggedMap.entries, ¬e.Contains 0x1200000) ∧
    (s.pageBitmap.get 0x1fff = false ∧ ∀ e ∈ raggedMap.entries, ¬e.Contains 0x1fff800) := by
  obtain ⟨s, h, h₁, h₂, h₃, h₄⟩ := Except.exists_of_any (x := memoryInit raggedMap smallKernel)
    (P := fun s => s.totalPages = 0x2000 ∧ s.pageBitmap.get 0x1101 = false ∧
      s.pageBitmap.get 0x1200 = false ∧ s.pageBitmap.get 0x1fff = false) (by decide +kernel)
  refine ⟨s, h, h₁, ⟨h₂, ?_⟩, ⟨h₃, ?_⟩, h₄, ?_⟩
  all_goals unfold MmapEntry.Contains; decide

end PMem
