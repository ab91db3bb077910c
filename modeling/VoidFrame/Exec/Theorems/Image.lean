import VoidFrame.Exec.Theorems.Elf

-- The image of a process is the union of the segments of the file.

namespace Elf

open Exec

def ProgramHeader.Has (p : ProgramHeader) (v : Nat) : Prop :=
  p.vaddr.toNat ≤ v ∧ v < p.vaddr.toNat + p.memsz.toNat

def ProgramHeader.byte (p : ProgramHeader) (file : Buffer) (v : Nat) : UInt8 :=
  if v - p.vaddr.toNat < p.filesz.toNat then file.data (p.offset.toNat + (v - p.vaddr.toNat)) else 0

-- The segments are disjoint, and their sums do not wrap.
structure Regular (file : Buffer) : Prop where
  filesz   {i}     (hi : Loads file i) : (programHeader file i).filesz ≤ (programHeader file i).memsz
  source   {i}     (hi : Loads file i) : let p := programHeader file i
                   p.offset.toNat + p.filesz.toNat < 2 ^ 64
  target   {i}     (hi : Loads file i) : let p := programHeader file i
                   p.vaddr.toNat + p.memsz.toNat < 2 ^ 64
  disjoint {i j v} (hi : Loads file i) (hj : Loads file j) :
                   (programHeader file i).Has v → (programHeader file j).Has v → i = j

-- The image of a process, whose least address is `base`.
structure Loaded (file : Buffer) (base : UInt64) (p : Process) : Prop where
  least : ∃ i, Loads file i ∧ (programHeader file i).vaddr = base
  base_le  {i} : Loads file i → base ≤ (programHeader file i).vaddr
  inside   {i v} : Loads file i → (programHeader file i).Has v → v - base.toNat < p.image.size
  segment  {i v} : Loads file i → (programHeader file i).Has v →
                   p.image.data (v - base.toNat) = (programHeader file i).byte file v
  gap      {v} : base.toNat ≤ v → v - base.toNat < p.image.size →
                   (∀ i, Loads file i → ¬(programHeader file i).Has v) → p.image.data (v - base.toNat) = 0
  entry : p.entry = (elfHeader file.data).entry - base
  entry_ge : base ≤ (elfHeader file.data).entry
  entry_lt : p.entry.toNat < p.image.size

variable {file image image' : Buffer} {env : Environment} {i : Nat} {base size : UInt64}

lemma loadImage_inversion
    (h : loadImage env options blocks file = .ok o) (hp : o.process = some p) :
    ∃ size memory base image,
      calculateProcessMemorySize file (elfHeader file.data) = .ok size ∧ size ≠ 0 ∧ ¬options.maxMemory < size ∧
      allocateImage env size = .ok (some memory) ∧
      baseVaddr file (elfHeader file.data) = .ok base ∧
      loadSegments file (elfHeader file.data) base (List.range (elfHeader file.data).phnum.toNat) memory =
        .ok (some image) ∧
      ¬((elfHeader file.data).entry < base ∨ base + size ≤ (elfHeader file.data).entry) ∧
      p = ⟨image, (elfHeader file.data).entry - base, procPrivNorm⟩ := by
  have failed {blocks : List Block} (he : Except.ok (ε := Fault) (.failure blocks) = .ok o) : False := by
    obtain rfl := Except.ok.inj he
    cases hp
  obtain ⟨size, hsize, h⟩ := Except.of_bind h
  split_ifs at h with hz hm
  · exact (failed h).elim
  · exact (failed h).elim
  obtain ⟨r, hr, h⟩ := Except.of_bind h
  rcases r with _ | memory
  · exact (failed h).elim
  obtain ⟨base, hb, h⟩ := Except.of_bind h
  obtain ⟨r, hl, h⟩ := Except.of_bind h
  rcases r with _ | image
  · exact (failed h).elim
  dsimp only at h
  split_ifs at h with he
  · exact (failed h).elim
  obtain rfl := Except.ok.inj h
  exact ⟨size, memory, base, image, hsize, hz, hm, hr, hb, hl, he, launch_process hp⟩

-- A segment goes to its place in the image, and the rest of the image is as it was.
structure Puts (file : Buffer) (base : UInt64) (i : Nat) (image image' : Buffer) : Prop where
  size : image'.size = image.size
  data {n} : Loads file i → (programHeader file i).Has (n + base.toNat) →
    image'.data n = (programHeader file i).byte file (n + base.toNat)
  rest {n} : ¬(Loads file i ∧ (programHeader file i).Has (n + base.toNat)) → image'.data n = image.data n

namespace Readable

variable (hs : Readable file) (hr : Regular file) (hz : file.size < 2 ^ 64)
include hs hr hz

lemma loadSegment_puts (hi : i < (elfHeader file.data).phnum.toNat) (hb : base = (extremes file).1)
    (h : loadSegment file (elfHeader file.data) base image i = .ok (some image')) : Puts file base i image image' := by
  by_cases ht : (programHeader file i).type = ptLoad
  case neg =>
    rw [loadSegment, hs.pType_eq hi] at h
    obtain rfl := Option.some.inj (Except.ok.inj ((if_pos ht).symm.trans h))
    exact ⟨rfl, fun hl => absurd hl.right ht, fun _ => rfl⟩
  have hl : Loads file i := ⟨hi, ht⟩
  rw [hs.loadSegment_eq hz hl] at h
  dsimp only at h
  have hlow := hl.between.left
  rw [← hb] at hlow
  have hsub : ((programHeader file i).vaddr - base).toNat = (programHeader file i).vaddr.toNat - base.toNat :=
    UInt64.toNat_sub_of_le _ _ (UInt64.le_iff_toNat_le.mpr hlow)
  have htarget := hr.target hl
  have hle := UInt64.le_iff_toNat_le.mp (hr.filesz hl)
  dsimp only at htarget
  split at h
  case isTrue => cases h
  split at h
  case isTrue => cases h
  obtain ⟨b, hc, he⟩ := Except.of_map h
  obtain rfl := Option.some.inj he
  obtain ⟨hbs, hbd⟩ := loadBytes_data (hr.filesz hl) (by omega) hc
  rw [hsub] at hbd
  refine ⟨hbs, fun {n} _ hv => ?_, fun {n} hv => ?_⟩
  · obtain ⟨h1, h2⟩ := hv
    have hn : n - ((programHeader file i).vaddr.toNat - base.toNat) =
        n + base.toNat - (programHeader file i).vaddr.toNat := by omega
    rw [hbd, if_pos ⟨by omega, by omega⟩, hn]
    rfl
  · exact (hbd n).trans (if_neg fun h => hv ⟨hl, by omega, by omega⟩)

-- After the loop each segment of the list is in its place: the segments do not overlap, so that a later one does
-- not disturb an earlier one.
lemma loadSegments_data (hl : ∀ i ∈ l, i < (elfHeader file.data).phnum.toNat)
    (hb : base = (extremes file).1)
    (h : loadSegments file (elfHeader file.data) base l image = .ok (some image')) :
    image'.size = image.size ∧ ∀ n,
      (∀ i ∈ l, Loads file i → (programHeader file i).Has (n + base.toNat) →
        image'.data n = (programHeader file i).byte file (n + base.toNat)) ∧
      ((∀ i ∈ l, ¬(Loads file i ∧ (programHeader file i).Has (n + base.toNat))) → image'.data n = image.data n) := by
  induction l generalizing image
  case nil =>
    obtain rfl := Option.some.inj (Except.ok.inj h)
    exact ⟨rfl, fun n => ⟨fun i hi => (List.not_mem_nil hi).elim, fun _ => rfl⟩⟩
  case cons i l ih =>
    obtain ⟨r, hi, h⟩ := Except.of_bind h
    rcases r with _ | b
    · cases h
    have hp := hs.loadSegment_puts hr hz (hl i List.mem_cons_self) hb hi
    obtain ⟨hsize, hdata⟩ := ih (fun j hj => hl j (List.mem_cons_of_mem _ hj)) h
    refine ⟨hsize.trans hp.size, fun n => ⟨fun j hj hlj hv => ?_, fun hn => ?_⟩⟩
    · by_cases hlater : ∃ k ∈ l, Loads file k ∧ (programHeader file k).Has (n + base.toNat)
      · obtain ⟨k, hk, hlk, hvk⟩ := hlater
        obtain rfl := hr.disjoint hlk hlj hvk hv
        exact (hdata n).left k hk hlk hvk
      · have hji : j = i := (List.mem_cons.mp hj).resolve_right fun hjl => hlater ⟨j, hjl, hlj, hv⟩
        subst hji
        exact ((hdata n).right fun k hk hv => hlater ⟨k, hk, hv⟩).trans (hp.data hlj hv)
    · exact ((hdata n).right fun k hk => hn k (List.mem_cons_of_mem _ hk)).trans (hp.rest (hn i List.mem_cons_self))

end Readable

lemma Loads.bounds (hr : Regular file) (hi : Loads file i) :
    (extremes file).1.toNat ≤ (programHeader file i).vaddr.toNat ∧
      (programHeader file i).vaddr.toNat + (programHeader file i).memsz.toNat ≤ (extremes file).2.toNat := by
  refine ⟨hi.between.left, ?_⟩
  have h := hi.between.right
  rwa [UInt64.toNat_add, Nat.mod_eq_of_lt (hr.target hi)] at h

lemma entry_lt (hle : base ≤ highest) (he : ¬(entry < base ∨ base + (highest - base) ≤ entry)) :
    base ≤ entry ∧ (entry - base).toNat < (highest - base).toNat := by
  obtain ⟨h1, h2⟩ := not_or.mp he
  have hb : base ≤ entry := UInt64.not_lt.mp h1
  have hh : entry < highest := by
    have := UInt64.not_le.mp h2
    rwa [UInt64.add_comm, UInt64.sub_add_cancel] at this
  refine ⟨hb, ?_⟩
  rw [UInt64.toNat_sub_of_le _ _ hb, UInt64.toNat_sub_of_le _ _ hle]
  have := UInt64.lt_iff_toNat_lt.mp hh
  have := UInt64.le_iff_toNat_le.mp hb
  omega

-- The image of a process that is created for a file is the union of the segments, and the entry point is in it.
theorem createProcessFromElf_loaded (env : Environment) (filename : Option CString) (options : Option ElfLoadOptions)
    (o : Outcome) (p : Process) (h : createProcessFromElf env filename options = .ok o) (hp : o.process = some p)
    (hr : Regular env.file) : ∃ base, Loaded env.file base p := by
  rcases createProcessFromElf_cases env filename options with ⟨-, he⟩ | ⟨ho, -, he⟩
  · obtain rfl := Except.ok.inj (he.symm.trans h)
    cases hp
  · obtain ⟨size, memory, base, image, hsize, hne, -, ha, hb, hl, hentry, rfl⟩ :=
      loadImage_inversion (he.symm.trans h) hp
    have hs := readable_of_eq (ho.le.trans_lt (by decide)) hsize
    have hbase : base = (extremes env.file).1 := Except.ok.inj (hb.symm.trans (hs.baseVaddr_eq env.fileSize.toNat_lt))
    have hsize := Except.ok.inj (hsize.symm.trans (hs.calculateProcessMemorySize_eq env.fileSize.toNat_lt))
    by_cases hmax : (extremes env.file).1 = UInt64.ofNat (2 ^ 64 - 1)
    case pos => exact absurd (hsize.trans (if_pos hmax)) hne
    rw [if_neg hmax, ← hbase] at hsize
    obtain ⟨j, hj, hlow⟩ := (extremes_fst env.file).resolve_left hmax
    obtain ⟨his, hid⟩ := allocateImage_eq_some ha
    obtain ⟨hps, hpd⟩ := hs.loadSegments_data hr env.fileSize.toNat_lt (fun i hi => List.mem_range.mp hi) hbase hl
    have hbounds {i} (hi : Loads env.file i) := hi.bounds hr
    rw [← hbase] at hbounds
    have hle : base ≤ (extremes env.file).2 := by
      have := hbounds hj
      exact UInt64.le_iff_toNat_le.mpr (by omega)
    have hn : image.size = (extremes env.file).2.toNat - base.toNat := by
      rw [hps, his, hsize, UInt64.toNat_sub_of_le _ _ hle]
    obtain ⟨hge, hlt⟩ := entry_lt hle (hsize ▸ hentry)
    refine ⟨base, ?_⟩
    constructor
    case least => exact ⟨j, hj, hlow.symm.trans hbase.symm⟩
    case base_le => exact fun hi => UInt64.le_iff_toNat_le.mpr (hbounds hi).left
    case entry => rfl
    case entry_ge => exact hge
    case entry_lt =>
      show _ < image.size
      rwa [hps, his, hsize]
    case inside =>
      intro i v hi hv
      have := hbounds hi
      unfold ProgramHeader.Has at hv
      show _ < image.size
      omega
    case segment =>
      intro i v hi hv
      have hv' : v - base.toNat + base.toNat = v := Nat.sub_add_cancel ((hbounds hi).left.trans hv.left)
      have hd := (hpd (v - base.toNat)).left i (List.mem_range.mpr hi.lt) hi
      rw [hv'] at hd
      exact hd hv
    case gap =>
      intro v hb hlt hv
      have hv' : v - base.toNat + base.toNat = v := Nat.sub_add_cancel hb
      have hd := (hpd (v - base.toNat)).right
      rw [hv'] at hd
      refine (hd fun i _ hi => hv i hi.left hi.right).trans (hid _ ?_)
      rw [← his, ← hps]
      exact hlt

theorem createProcessFromElf_loaded_sample :
    ∃ o p base, createProcessFromElf (sampleEnvironment 120 (sample 56 0 120 200)) (some []) none = .ok o ∧
      o.process = some p ∧ Loaded (sampleEnvironment 120 (sample 56 0 120 200)).file base p := by
  have hn {i} (hi : i < (elfHeader (sampleEnvironment 120 (sample 56 0 120 200)).file.data).phnum.toNat) : i = 0 :=
    Nat.lt_one_iff.mp hi
  have hr : Regular (sampleEnvironment 120 (sample 56 0 120 200)).file := by
    constructor
    case filesz => intro i hi; rw [hn hi.lt]; decide
    case source => intro i hi; rw [hn hi.lt]; decide
    case target => intro i hi; rw [hn hi.lt]; decide
    case disjoint => intro i j v hi hj _ _; rw [hn hi.lt, hn hj.lt]
  obtain ⟨o, ho, hp⟩ := Except.exists_of_any (P := fun o : Outcome => o.process.isSome = true)
    (x := createProcessFromElf (sampleEnvironment 120 (sample 56 0 120 200)) (some []) none) (by decide +kernel)
  obtain ⟨p, hp⟩ := Option.isSome_iff_exists.mp hp
  obtain ⟨base, hl⟩ := createProcessFromElf_loaded _ _ _ o p ho hp hr
  exact ⟨o, p, base, ho, hp, hl⟩

end Elf
