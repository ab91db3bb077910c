import VoidFrame.Exec.Elf
import VoidFrame.Exec.Theorems.Loader
import VoidFrame.Library.Loop

namespace Elf

open Exec

-- A program header.
structure ProgramHeader where
  type : UInt32
  offset : UInt64
  vaddr : UInt64
  filesz : UInt64
  memsz : UInt64

def programHeader (file : Buffer) (i : Nat) : ProgramHeader :=
  let e := (entryAt (elfHeader file.data) i).toNat
  { type := Bytes.u32 file.data e
    offset := Bytes.u64 file.data (e + 8)
    vaddr := Bytes.u64 file.data (e + 16)
    filesz := Bytes.u64 file.data (e + 32)
    memsz := Bytes.u64 file.data (e + 40) }

def Loads (file : Buffer) (i : Nat) : Prop :=
  i < (elfHeader file.data).phnum.toNat ∧ (programHeader file i).type = ptLoad

-- The fields that the loader reads are in the file.
structure Readable (file : Buffer) : Prop where
  type   {i} (hi : i < (elfHeader file.data).phnum.toNat) :
             (entryAt (elfHeader file.data) i).toNat + 4 ≤ file.size
  fields {i} (hi : Loads file i) : (entryAt (elfHeader file.data) i).toNat + 48 ≤ file.size

variable {file : Buffer} {i : Nat}

lemma Loads.lt (h : Loads file i) : i < (elfHeader file.data).phnum.toNat :=
  h.left

namespace Readable

variable (hs : Readable file) (hz : file.size < 2 ^ 64)
include hs

lemma pType_eq (hi : i < (elfHeader file.data).phnum.toNat) :
    pType file (elfHeader file.data) i = .ok (programHeader file i).type :=
  Buffer.load_eq (hs.type hi)

include hz

lemma field_eq (hi : Loads file i) (hk : k.toNat ≤ 40) :
    file.load64 Fault.file (entryAt (elfHeader file.data) i + k).toNat =
      .ok (Bytes.u64 file.data ((entryAt (elfHeader file.data) i).toNat + k.toNat)) := by
  have hf := hs.fields hi
  have he : (entryAt (elfHeader file.data) i + k).toNat = (entryAt (elfHeader file.data) i).toNat + k.toNat := by
    rw [UInt64.toNat_add, Nat.mod_eq_of_lt (by omega)]
  rw [he]
  exact Buffer.load_eq (by omega)

lemma pOffset_eq (hi : Loads file i) :
    pOffset file (elfHeader file.data) i = .ok (programHeader file i).offset :=
  hs.field_eq hz hi (k := 8) (by decide)

lemma pVaddr_eq (hi : Loads file i) :
    pVaddr file (elfHeader file.data) i = .ok (programHeader file i).vaddr :=
  hs.field_eq hz hi (k := 16) (by decide)

lemma pFilesz_eq (hi : Loads file i) :
    pFilesz file (elfHeader file.data) i = .ok (programHeader file i).filesz :=
  hs.field_eq hz hi (k := 32) (by decide)

lemma pMemsz_eq (hi : Loads file i) :
    pMemsz file (elfHeader file.data) i = .ok (programHeader file i).memsz :=
  hs.field_eq hz hi (k := 40) (by decide)

end Readable

namespace ProgramHeader

-- The rounds of the two loops over the table, when the fields can be read.
def extend (p : ProgramHeader) (r : UInt64 × UInt64) : UInt64 × UInt64 :=
  if p.type = ptLoad then
    (if p.vaddr < r.1 then p.vaddr else r.1, if r.2 < p.vaddr + p.memsz then p.vaddr + p.memsz else r.2)
  else r

def lower (p : ProgramHeader) (base : UInt64) : UInt64 :=
  if p.type = ptLoad then if p.vaddr < base then p.vaddr else base else base

def Between (p : ProgramHeader) (r : UInt64 × UInt64) : Prop :=
  r.1.toNat ≤ p.vaddr.toNat ∧ (p.vaddr + p.memsz).toNat ≤ r.2.toNat

variable {p q : ProgramHeader} {r : UInt64 × UInt64}

lemma lower_eq : p.lower r.1 = (p.extend r).1 := by
  unfold lower extend
  split <;> rfl

lemma extend_fst (h : p.type = ptLoad) : (p.extend r).1 = if p.vaddr < r.1 then p.vaddr else r.1 := by
  rw [extend, if_pos h]

lemma extend_snd (h : p.type = ptLoad) :
    (p.extend r).2 = if r.2 < p.vaddr + p.memsz then p.vaddr + p.memsz else r.2 := by
  rw [extend, if_pos h]

lemma extend_of_ne (h : p.type ≠ ptLoad) : p.extend r = r :=
  if_neg h

lemma between_extend (h : p.type = ptLoad) : p.Between (p.extend r) := by
  rw [Between, extend_fst h, extend_snd h]
  constructor
  · split
    case isTrue => exact le_refl _
    case isFalse hlt => exact not_lt.mp fun h => hlt (UInt64.lt_iff_toNat_lt.mpr h)
  · split
    case isTrue => exact le_refl _
    case isFalse hlt => exact not_lt.mp fun h => hlt (UInt64.lt_iff_toNat_lt.mpr h)

lemma Between.extend (hr : p.Between r) : p.Between (q.extend r) := by
  by_cases h : q.type = ptLoad
  case neg => rwa [extend_of_ne h]
  rw [Between, extend_fst h, extend_snd h]
  constructor
  · split
    case isTrue hlt => exact (UInt64.lt_iff_toNat_lt.mp hlt).le.trans hr.left
    case isFalse => exact hr.left
  · split
    case isTrue hlt => exact hr.right.trans (UInt64.lt_iff_toNat_lt.mp hlt).le
    case isFalse => exact hr.right

end ProgramHeader

section

variable (file)

def extremes : UInt64 × UInt64 :=
  (List.range (elfHeader file.data).phnum.toNat).foldl (fun r i => (programHeader file i).extend r)
    (UInt64.ofNat (2 ^ 64 - 1), 0)

variable {file}

lemma foldl_lower (l : List Nat) (r : UInt64 × UInt64) :
    l.foldl (fun base i => (programHeader file i).lower base) r.1 =
      (l.foldl (fun r i => (programHeader file i).extend r) r).1 :=
  List.foldl_hom Prod.fst fun _ _ => ProgramHeader.lower_eq

lemma Loads.between (hi : Loads file i) : (programHeader file i).Between (extremes file) :=
  Loop.foldl_all
    (P := fun r i => (programHeader file i).type = ptLoad → (programHeader file i).Between r)
    (fun _ _ h => ProgramHeader.between_extend h)
    (fun _ _ _ hr h => (hr h).extend)
    (List.mem_range.mpr hi.lt) hi.right

lemma extremes_fst (file : Buffer) :
    (extremes file).1 = UInt64.ofNat (2 ^ 64 - 1) ∨
      ∃ i, Loads file i ∧ (extremes file).1 = (programHeader file i).vaddr := by
  refine List.foldlRecOn
    (motive := fun (r : UInt64 × UInt64) =>
      r.1 = UInt64.ofNat (2 ^ 64 - 1) ∨ ∃ i, Loads file i ∧ r.1 = (programHeader file i).vaddr)
    _ _ (.inl rfl) ?_
  intro r hr i hi
  by_cases h : (programHeader file i).type = ptLoad
  case neg => rwa [ProgramHeader.extend_of_ne h]
  rw [ProgramHeader.extend_fst h]
  split
  · exact .inr ⟨i, ⟨List.mem_range.mp hi, h⟩, rfl⟩
  · exact hr

namespace Readable

variable (hs : Readable file) (hz : file.size < 2 ^ 64)
include hs hz

lemma extent_eq (hi : i < (elfHeader file.data).phnum.toNat) :
    extent file (elfHeader file.data) r i = .ok ((programHeader file i).extend r) := by
  rw [extent, hs.pType_eq hi]
  by_cases h : (programHeader file i).type = ptLoad
  case neg => exact (if_neg h).trans (congrArg _ (ProgramHeader.extend_of_ne h).symm)
  refine (if_pos h).trans ?_
  rw [hs.pVaddr_eq hz ⟨hi, h⟩, hs.pMemsz_eq hz ⟨hi, h⟩, ProgramHeader.extend, if_pos h]
  rfl

lemma lowestVaddr_eq (hi : i < (elfHeader file.data).phnum.toNat) :
    lowestVaddr file (elfHeader file.data) base i = .ok ((programHeader file i).lower base) := by
  rw [lowestVaddr, hs.pType_eq hi, ProgramHeader.lower]
  by_cases h : (programHeader file i).type = ptLoad
  case neg => exact (if_neg h).trans (congrArg _ (if_neg h).symm)
  refine (if_pos h).trans ?_
  rw [hs.pVaddr_eq hz ⟨hi, h⟩, if_pos h]
  rfl

lemma calculateProcessMemorySize_eq :
    calculateProcessMemorySize file (elfHeader file.data) =
      .ok (if (extremes file).1 = UInt64.ofNat (2 ^ 64 - 1) then 0 else (extremes file).2 - (extremes file).1) := by
  rw [calculateProcessMemorySize, Loop.foldlM_eq fun r i hi => hs.extent_eq hz (List.mem_range.mp hi)]
  rfl

lemma baseVaddr_eq : baseVaddr file (elfHeader file.data) = .ok (extremes file).1 := by
  rw [baseVaddr, Loop.foldlM_eq fun r i hi => hs.lowestVaddr_eq hz (List.mem_range.mp hi)]
  exact congrArg _ (foldl_lower _ (UInt64.ofNat (2 ^ 64 - 1), 0))

end Readable

end

section

variable {r : UInt64 × UInt64} {r' : UInt64 × UInt64}

lemma le_of_extent_eq (hz : file.size < 2 ^ 63) (h : extent file (elfHeader file.data) r i = .ok r') :
    (entryAt (elfHeader file.data) i).toNat + 4 ≤ file.size ∧
      ((programHeader file i).type = ptLoad → (entryAt (elfHeader file.data) i).toNat + 48 ≤ file.size) := by
  obtain ⟨type, ht, h⟩ := Except.of_bind h
  have hle : (entryAt (elfHeader file.data) i).toNat + 4 ≤ file.size := Buffer.le_of_load_eq ht
  have htype : type = (programHeader file i).type := Except.ok.inj (ht.symm.trans (Buffer.load_eq hle))
  refine ⟨hle, fun hl => ?_⟩
  rw [if_pos (htype.trans hl)] at h
  obtain ⟨vaddr, -, h⟩ := Except.of_bind h
  obtain ⟨memsz, hm, -⟩ := Except.of_bind h
  have hle' := Buffer.le_of_load_eq hm
  have ha : (entryAt (elfHeader file.data) i + 40).toNat = (entryAt (elfHeader file.data) i).toNat + 40 := by
    rw [UInt64.toNat_add]
    exact Nat.mod_eq_of_lt (show (entryAt (elfHeader file.data) i).toNat + 40 < 2 ^ 64 by omega)
  omega

end

lemma readable_of_eq (hz : file.size < 2 ^ 63)
    (h : calculateProcessMemorySize file (elfHeader file.data) = .ok size) : Readable file := by
  obtain ⟨r, hl, -⟩ := Except.of_bind h
  have hread {i} (hi : i < (elfHeader file.data).phnum.toNat) :
      (entryAt (elfHeader file.data) i).toNat + 4 ≤ file.size ∧
        ((programHeader file i).type = ptLoad → (entryAt (elfHeader file.data) i).toNat + 48 ≤ file.size) := by
    obtain ⟨_, _, he⟩ := Loop.exists_of_foldlM_eq hl (List.mem_range.mpr hi)
    exact le_of_extent_eq hz he
  exact ⟨fun hi => (hread hi).left, fun hi => (hread hi.lt).right hi.right⟩

section

variable (file)

-- The distance from the lowest address to the highest end of a segment, or 0 if there is no segment.
def imageSize : UInt64 :=
  if (extremes file).1 = UInt64.ofNat (2 ^ 64 - 1) then 0 else (extremes file).2 - (extremes file).1

-- The loader stops at a segment whose bounds are not accepted.
def Rejects (i : Nat) : Prop :=
  Loads file i ∧ let p := programHeader file i
    (UInt64.ofNat file.size < p.offset + p.filesz ∨ imageSize file < p.vaddr - (extremes file).1 + p.memsz)

-- There is an image, and it is not too large.
def Admits (options : ElfLoadOptions) : Prop :=
  imageSize file ≠ 0 ∧ ¬options.maxMemory < imageSize file

-- The bytes of a segment do not wrap in the file and have room in the image.
def Placed (i : Nat) : Prop :=
  Loads file i → let p := programHeader file i
    Fits (imageSize file) (p.vaddr - (extremes file).1) p.offset p.filesz p.memsz

-- The image can be allocated, and the segments before the first that is rejected have room in it.
structure Sound : Prop where
  alloc : Allocatable (imageSize file)
  segment : ∀ i < (elfHeader file.data).phnum.toNat, (∀ j ≤ i, ¬Rejects file j) → Placed file i

end

namespace Readable

variable (hs : Readable file) (hz : file.size < 2 ^ 64)
include hs hz

lemma loadSegment_eq (hi : Loads file i) : loadSegment file (elfHeader file.data) base image i =
      let p := programHeader file i
      if UInt64.ofNat file.size < p.offset + p.filesz then .ok none
      else if UInt64.ofNat image.size < p.vaddr - base + p.memsz then .ok none
      else some <$> loadBytes image file (p.vaddr - base) p.offset p.filesz p.memsz := by
  rw [loadSegment, hs.pType_eq hi.lt, hs.pOffset_eq hz hi, hs.pFilesz_eq hz hi, hs.pVaddr_eq hz hi,
    hs.pMemsz_eq hz hi]
  exact if_neg (not_not.mpr hi.right)

lemma loadSegment_rejects (him : image.size = (imageSize file).toNat) (hr : Rejects file i) :
    loadSegment file (elfHeader file.data) (extremes file).1 image i = .ok none := by
  rw [hs.loadSegment_eq hz hr.left, him, UInt64.ofNat_toNat]
  dsimp only
  split_ifs with hf hm
  · rfl
  · rfl
  · exact absurd hr.right (not_or.mpr ⟨hf, hm⟩)

lemma loadSegment_accepts (hi : i < (elfHeader file.data).phnum.toNat) (him : image.size = (imageSize file).toNat)
    (hr : ¬Rejects file i) :
    ((∃ r, loadSegment file (elfHeader file.data) (extremes file).1 image i = .ok r) ↔ Placed file i) ∧
      ∀ r, loadSegment file (elfHeader file.data) (extremes file).1 image i = .ok r →
        ∃ b, r = some b ∧ b.size = (imageSize file).toNat := by
  by_cases h : (programHeader file i).type = ptLoad
  case neg =>
    rw [loadSegment, hs.pType_eq hi]
    refine ⟨⟨fun _ hl => absurd hl.right h, fun _ => ⟨_, if_pos h⟩⟩, fun r hr => ⟨image, ?_, him⟩⟩
    exact (Except.ok.inj ((if_pos h).symm.trans hr)).symm
  have hl : Loads file i := ⟨hi, h⟩
  obtain ⟨hf, hm⟩ := not_or.mp fun h => hr ⟨hl, h⟩
  rw [hs.loadSegment_eq hz hl]
  dsimp only
  rw [if_neg hf, him, UInt64.ofNat_toNat, if_neg hm]
  refine ⟨⟨fun ⟨r, h⟩ _ => ?_, fun h => ?_⟩, fun r h => ?_⟩
  · obtain ⟨b, hb, -⟩ := Except.of_map h
    exact fits_of_loadBytes hz him hb
  · obtain ⟨b, hb, -⟩ := (h hl).loadBytes_ok hz him hf hm
    exact ⟨some b, by rw [hb]; rfl⟩
  · obtain ⟨b, hb, he⟩ := Except.of_map h
    exact ⟨b, he.symm, (loadBytes_size hb).trans him⟩

lemma loadSegments_iff (him : image.size = (imageSize file).toNat) :
    (∃ r, loadSegments file (elfHeader file.data) (extremes file).1
      (List.range (elfHeader file.data).phnum.toNat) image = .ok r) ↔
    ∀ i < (elfHeader file.data).phnum.toNat, (∀ j ≤ i, ¬Rejects file j) → Placed file i := by
  have hloop := loop_ok_iff (g := loadSegments file (elfHeader file.data) (extremes file).1) (k := 0)
    (fun _ => rfl) (fun i l b => congrArg _ (funext fun r => by cases r <;> rfl))
    (fun i b _ hb => hs.loadSegment_rejects hz hb)
    (fun i b hi hb => hs.loadSegment_accepts hz (hi.trans_eq (Nat.zero_add _)) hb) him
  rw [List.range_eq_range', hloop]
  simp only [Nat.zero_add, Nat.zero_le, true_imp_iff]

lemma loadImage_iff :
    (∃ r, loadImage env options blocks file = .ok r) ↔
      (Admits file options → env.processMemory = true → Sound file) := by
  have hsize : calculateProcessMemorySize file (elfHeader file.data) = .ok (imageSize file) :=
    hs.calculateProcessMemorySize_eq hz
  rw [loadImage, hsize]
  dsimp only [Bind.bind, Except.bind]
  by_cases h0 : imageSize file = 0
  case pos =>
    rw [if_pos h0]
    exact ⟨fun _ ha => absurd h0 ha.left, fun _ => ⟨_, rfl⟩⟩
  by_cases hm : options.maxMemory < imageSize file
  case pos =>
    rw [if_neg h0, if_pos hm]
    exact ⟨fun _ ha => absurd hm ha.right, fun _ => ⟨_, rfl⟩⟩
  rw [if_neg h0, if_neg hm]
  by_cases hp : env.processMemory = true
  case neg =>
    rw [show allocateImage env (imageSize file) = .ok none from if_pos (.inr (by simpa using hp))]
    exact ⟨fun _ _ h => absurd h hp, fun _ => ⟨_, rfl⟩⟩
  by_cases ha : Allocatable (imageSize file)
  case neg =>
    refine ⟨fun ⟨r, h⟩ => ?_, fun h => absurd (h ⟨h0, hm⟩ hp).alloc ha⟩
    obtain ⟨m, hm, -⟩ := Except.of_bind h
    exact absurd (allocatable_of_ok hp h0 hm) ha
  obtain ⟨image, hi, him⟩ := allocateImage_some ha hp h0
  rw [hi, hs.baseVaddr_eq hz]
  dsimp only
  refine Iff.trans ?_ ((hs.loadSegments_iff hz him).trans ⟨fun h _ _ => ⟨ha, h⟩, fun h => (h ⟨h0, hm⟩ hp).segment⟩)
  generalize loadSegments file _ _ _ image = x
  rcases x with e | _ | image
  · exact ⟨fun ⟨_, h⟩ => (nomatch h), fun ⟨_, h⟩ => (nomatch h)⟩
  · exact ⟨fun _ => ⟨_, rfl⟩, fun _ => ⟨_, rfl⟩⟩
  dsimp only
  split_ifs <;> exact ⟨fun _ => ⟨_, rfl⟩, fun _ => ⟨_, rfl⟩⟩

end Readable

-- Either the file is not loaded, or it is a valid one.
lemma createProcessFromElf_cases (env : Environment) (filename : Option CString)
    (options : Option ElfLoadOptions) :
    (¬(Opened env filename (options.getD {}).privilegeLevel maxElfFileSize ∧ validateElfFile env.file) ∧
      createProcessFromElf env filename options = .ok (.failure [])) ∨
    Opened env filename (options.getD {}).privilegeLevel maxElfFileSize ∧ validateElfFile env.file ∧
      createProcessFromElf env filename options = loadImage env (options.getD {}) [.file] env.file := by
  have hread (h0 : env.fileSize ≠ 0) : env.bytesRead ≤ 0 ∨ env.bytesRead ≠ env.fileSize.toNat ↔
      env.bytesRead ≠ env.fileSize.toNat := by
    have hpos : env.fileSize.toNat ≠ 0 := fun h => h0 (UInt64.toNat_inj.mp h)
    omega
  rcases opened_cases env filename (options.getD {}).privilegeLevel maxElfFileSize hread
    (if validateElfFile env.file then loadImage env (options.getD {}) [.file] env.file
      else return .failure []) with ⟨ho, he⟩ | ⟨ho, he⟩
  · exact .inl ⟨fun h => ho h.left, he⟩
  by_cases hv : validateElfFile env.file
  case neg => exact .inl ⟨fun h => hv h.right, he.trans (if_neg hv)⟩
  case pos => exact .inr ⟨ho, hv, he.trans (if_pos hv)⟩

-- The loader reads only in the file and writes only in the image, if and only if the headers of a file that comes
-- to be loaded are in the file and its segments are in order.
theorem createProcessFromElf_safe (env : Environment) (filename : Option CString)
    (options : Option ElfLoadOptions) :
    (∃ r, createProcessFromElf env filename options = .ok r) ↔
      (Opened env filename (options.getD {}).privilegeLevel maxElfFileSize → validateElfFile env.file →
        Readable env.file ∧
          (Admits env.file (options.getD {}) → env.processMemory = true → Sound env.file)) := by
  rcases createProcessFromElf_cases env filename options with ⟨hn, he⟩ | ⟨ho, hv, he⟩
  · rw [he]
    exact ⟨fun _ h h' => absurd ⟨h, h'⟩ hn, fun _ => ⟨_, rfl⟩⟩
  have hz := env.fileSize.toNat_lt
  rw [he]
  constructor
  · rintro ⟨r, h⟩ - -
    obtain ⟨size, hsize, -⟩ := Except.of_bind h
    have hs := readable_of_eq (ho.le.trans_lt (by decide)) hsize
    exact ⟨hs, (hs.loadImage_iff hz).mp ⟨r, h⟩⟩
  · intro h
    obtain ⟨hs, h⟩ := h ho hv
    exact (hs.loadImage_iff hz).mpr h

-- A file with one program header after the ELF header.
def sample (phentsize : UInt8) (offset filesz memsz : UInt8) : List UInt8 :=
  elfIdent ++ List.replicate 10 0 ++ [2, 0, 62, 0] ++ List.replicate 4 0 ++
    [0, 16, 0, 0, 0, 0, 0, 0] ++ [64, 0, 0, 0, 0, 0, 0, 0] ++ List.replicate 14 0 ++ [phentsize, 0, 1, 0] ++
    List.replicate 6 0 ++
    [1, 0, 0, 0] ++ List.replicate 4 0 ++ [offset, 0, 0, 0, 0, 0, 0, 0] ++ [0, 16, 0, 0, 0, 0, 0, 0] ++
    List.replicate 8 0 ++ [filesz, 0, 0, 0, 0, 0, 0, 0] ++ [memsz, 0, 0, 0, 0, 0, 0, 0] ++ List.replicate 8 0

-- The entries of the table are said to have no bytes, and the table is after the end of the file; or a
-- segment has more bytes in the file than in memory.
theorem createProcessFromElf_unsafe :
    createProcessFromElf (sampleEnvironment 64 (sample 0 0 0 0)) (some []) none = .error .file ∧
      createProcessFromElf (sampleEnvironment 120 (sample 56 0 120 1)) (some []) none = .error .image :=
  ⟨rfl, rfl⟩

end Elf
