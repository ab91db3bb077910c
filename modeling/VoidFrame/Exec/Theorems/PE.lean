import VoidFrame.Exec.PE
import VoidFrame.Exec.Theorems.Loader

namespace PE

open Exec

-- A section header.
structure Section where
  virtualSize : UInt32
  virtualAddr : UInt32
  rawDataSize : UInt32
  rawDataPtr : UInt32

variable (file : Buffer)

-- Where the header is, and what is in it.
def header : Nat :=
  (Bytes.u32 file.data 60).toNat

def numSections : Nat :=
  (Bytes.u16 file.data (header file + 6)).toNat

def sectionTable : Nat :=
  header file + peHeaderSize + (Bytes.u16 file.data (header file + 20)).toNat

def sizeOfImage : UInt32 :=
  Bytes.u32 file.data (header file + peHeaderSize + 56)

def sectionHeader (i : Nat) : Section :=
  let offset := sectionTable file + i * sectionHeaderSize
  { virtualSize := Bytes.u32 file.data (offset + 8)
    virtualAddr := Bytes.u32 file.data (offset + 12)
    rawDataSize := Bytes.u32 file.data (offset + 16)
    rawDataPtr := Bytes.u32 file.data (offset + 20) }

def Rejects (i : Nat) : Prop :=
  let s := sectionHeader file i
  s.rawDataSize ≠ 0 ∧
    (file.size < (s.rawDataPtr + s.rawDataSize).toNat ∨ (sizeOfImage file).toNat < (s.virtualAddr + s.virtualSize).toNat)

-- The end of the data in the file does not wrap, and there is room for the data in the image.
def Placed (i : Nat) : Prop :=
  let s := sectionHeader file i
  s.rawDataSize ≠ 0 →
    s.rawDataPtr.toNat + s.rawDataSize.toNat < 2 ^ 32 ∧
    s.virtualAddr.toNat + s.rawDataSize.toNat ≤ (sizeOfImage file).toNat

-- This holds of the sections before the first that is rejected.
def Sound : Prop :=
  ∀ i < numSections file, (∀ j ≤ i, ¬Rejects file j) → Placed file i

-- There is an image, and it is not too large.
def Admits (options : PELoadOptions) : Prop :=
  sizeOfImage file ≠ 0 ∧ ¬options.maxMemory < (sizeOfImage file).toUInt64

-- The headers are in the file.
structure Valid : Prop where
  dos : dosHeaderSize ≤ file.size
  header : header file + (peHeaderSize + optionalHeaderSize) ≤ file.size
  table : sectionTable file + numSections file * sectionHeaderSize ≤ file.size

variable {file} {image : Buffer} {i : Nat}

namespace Valid

variable (hv : Valid file)
include hv

lemma eLfanew_eq : eLfanew file = .ok (Bytes.u32 file.data 60) :=
  Buffer.load_eq hv.dos

lemma imageSize_eq : imageSize file (PE.header file) = .ok (sizeOfImage file) :=
  Buffer.load_eq (by have := hv.header; unfold peHeaderSize optionalHeaderSize at *; omega)

lemma optHdrSize_eq : optHdrSize file (PE.header file) = .ok (Bytes.u16 file.data (PE.header file + 20)) :=
  Buffer.load_eq (by have := hv.header; unfold peHeaderSize at *; omega)

lemma sections_eq : sections file (PE.header file) = .ok (Bytes.u16 file.data (PE.header file + 6)) :=
  Buffer.load_eq (by have := hv.header; unfold peHeaderSize at *; omega)

lemma entryPoint_eq : ∃ entry, entryPoint file (PE.header file) = .ok entry :=
  ⟨_, Buffer.load_eq (by have := hv.header; unfold peHeaderSize optionalHeaderSize at *; omega)⟩

lemma calculatePEMemorySize_eq : calculatePEMemorySize file = .ok (sizeOfImage file).toUInt64 := by
  rw [calculatePEMemorySize, hv.eLfanew_eq]
  exact congrArg (fun x => do return (← x).toUInt64) hv.imageSize_eq

lemma field_eq (hi : i < numSections file) (hk : k ≤ 36) :
    file.load32 Fault.file (sectionTable file + i * sectionHeaderSize + k) =
      .ok (Bytes.u32 file.data (sectionTable file + i * sectionHeaderSize + k)) := by
  refine Buffer.load_eq ?_
  have ht := hv.table
  have hle : (i + 1) * sectionHeaderSize ≤ numSections file * sectionHeaderSize := Nat.mul_le_mul_right _ hi
  rw [Nat.succ_mul] at hle
  unfold sectionHeaderSize at *
  omega

lemma loadSection_eq (hi : i < numSections file) :
    loadSection file (sectionTable file) image i =
      let s := sectionHeader file i
      if s.rawDataSize = 0 then .ok (some image)
      else if file.size < (s.rawDataPtr + s.rawDataSize).toNat then .ok none
      else if image.size < (s.virtualAddr + s.virtualSize).toNat then .ok none
      else some <$> image.copy file .file .image s.virtualAddr.toNat s.rawDataPtr.toNat s.rawDataSize.toNat := by
  rw [loadSection, rawDataSize, rawDataPtr, virtualAddr, virtualSize, hv.field_eq hi (by decide : 8 ≤ 36),
    hv.field_eq hi (by decide : 12 ≤ 36), hv.field_eq hi (by decide : 16 ≤ 36), hv.field_eq hi (by decide : 20 ≤ 36)]
  rfl

lemma loadSection_rejects (hi : i < numSections file) (him : image.size = (sizeOfImage file).toNat)
    (hr : Rejects file i) : loadSection file (sectionTable file) image i = .ok none := by
  rw [hv.loadSection_eq hi]
  dsimp only
  rw [if_neg hr.left]
  split_ifs with hf hm
  · rfl
  · rfl
  · exact absurd hr.right (not_or.mpr ⟨hf, him ▸ hm⟩)

lemma loadSection_accepts (hz : file.size < 2 ^ 32) (hi : i < numSections file)
    (him : image.size = (sizeOfImage file).toNat) (hr : ¬Rejects file i) :
    ((∃ r, loadSection file (sectionTable file) image i = .ok r) ↔ Placed file i) ∧
      ∀ r, loadSection file (sectionTable file) image i = .ok r →
        ∃ b, r = some b ∧ b.size = (sizeOfImage file).toNat := by
  rw [hv.loadSection_eq hi]
  dsimp only
  by_cases h0 : (sectionHeader file i).rawDataSize = 0
  case pos =>
    rw [if_pos h0]
    exact ⟨⟨fun _ h => absurd h0 h, fun _ => ⟨_, rfl⟩⟩, fun r hr => ⟨image, (Except.ok.inj hr).symm, him⟩⟩
  obtain ⟨hf, hm⟩ := not_or.mp fun h => hr ⟨h0, h⟩
  rw [if_neg h0, if_neg hf, if_neg (him ▸ hm)]
  refine ⟨⟨fun ⟨r, h⟩ _ => ?_, fun h => ?_⟩, fun r h => ?_⟩
  · obtain ⟨b, hb, -⟩ := Except.of_map h
    obtain ⟨hsrc, hdst⟩ := Buffer.within_of_copy hb
    have hpos : (sectionHeader file i).rawDataSize.toNat ≠ 0 := fun h => h0 (UInt32.toNat_inj.mp h)
    exact ⟨(hsrc.resolve_left hpos).trans_lt hz, him ▸ hdst.resolve_left hpos⟩
  · obtain ⟨hsource, htarget⟩ := h h0
    rw [UInt32.toNat_add, Nat.mod_eq_of_lt hsource] at hf
    have hsrc : file.Within (sectionHeader file i).rawDataPtr.toNat (sectionHeader file i).rawDataSize.toNat :=
      .inr (not_lt.mp hf)
    have hdst : image.Within (sectionHeader file i).virtualAddr.toNat (sectionHeader file i).rawDataSize.toNat :=
      .inr (him ▸ htarget)
    obtain ⟨b, hb, -⟩ := Buffer.copy_size Fault.file Fault.image hsrc hdst
    exact ⟨some b, by rw [hb]; rfl⟩
  · obtain ⟨b, hb, he⟩ := Except.of_map h
    exact ⟨b, he.symm, (Buffer.copy_eq_ok hb).left.trans him⟩

lemma loadSections_iff (hz : file.size < 2 ^ 32) (him : image.size = (sizeOfImage file).toNat) :
    (∃ r, loadSections file (sectionTable file) (List.range (numSections file)) image = .ok r) ↔ Sound file := by
  have hloop := loop_ok_iff (g := loadSections file (sectionTable file)) (k := 0) (fun _ => rfl)
    (fun i l b => congrArg _ (funext fun r => by cases r <;> rfl))
    (fun i b hi hb => hv.loadSection_rejects (hi.trans_eq (Nat.zero_add _)) hb)
    (fun i b hi hb => hv.loadSection_accepts hz (hi.trans_eq (Nat.zero_add _)) hb) him
  rw [List.range_eq_range', hloop]
  simp only [Nat.zero_add, Nat.zero_le, true_imp_iff]
  rfl

lemma loadImage_iff (hz : file.size < 2 ^ 32) :
    (∃ r, loadImage env options blocks file = .ok r) ↔
      (Admits file options → env.processMemory = true → Sound file) := by
  rw [loadImage, hv.eLfanew_eq, hv.calculatePEMemorySize_eq]
  dsimp only [Bind.bind, Except.bind]
  by_cases hm : options.maxMemory < (sizeOfImage file).toUInt64
  case pos =>
    rw [if_pos hm]
    exact ⟨fun _ ha => absurd hm ha.right, fun _ => ⟨_, rfl⟩⟩
  by_cases h0 : sizeOfImage file = 0
  case pos =>
    rw [if_neg hm, h0]
    exact ⟨fun _ ha => absurd h0 ha.left, fun _ => ⟨_, rfl⟩⟩
  by_cases hp : env.processMemory = true
  case neg =>
    rw [if_neg hm, show allocateImage env (sizeOfImage file).toUInt64 = .ok none from
      if_pos (.inr (by simpa using hp))]
    exact ⟨fun _ _ h => absurd h hp, fun _ => ⟨_, rfl⟩⟩
  have hsize : (sizeOfImage file).toUInt64.toNat = (sizeOfImage file).toNat := UInt32.toNat_toUInt64 _
  have ha : Allocatable (sizeOfImage file).toUInt64 := by
    have := (sizeOfImage file).toNat_lt
    unfold Allocatable
    omega
  obtain ⟨image, ha, him⟩ := allocateImage_some ha hp fun h =>
    h0 (UInt32.toNat_inj.mp (hsize.symm.trans (congrArg UInt64.toNat h)))
  have hloads := hv.loadSections_iff hz (him.trans hsize)
  obtain ⟨entry, he⟩ := hv.entryPoint_eq
  have ho := hv.optHdrSize_eq
  have hn := hv.sections_eq
  unfold numSections sectionTable PE.header at hloads
  unfold PE.header at he ho hn
  rw [if_neg hm, ha, ho]
  dsimp only
  rw [hn]
  dsimp only
  refine Iff.trans ?_ (hloads.trans ⟨fun h _ _ => h, fun h => h ⟨h0, hm⟩ hp⟩)
  generalize loadSections file _ _ image = x
  rcases x with e | _ | image
  · exact ⟨fun ⟨_, h⟩ => (nomatch h), fun ⟨_, h⟩ => (nomatch h)⟩
  · exact ⟨fun _ => ⟨_, rfl⟩, fun _ => ⟨_, rfl⟩⟩
  dsimp only
  rw [he]
  dsimp only
  split <;> exact ⟨fun _ => ⟨_, rfl⟩, fun _ => ⟨_, rfl⟩⟩

end Valid

lemma validatePEFile_yields (file : Buffer) : (validatePEFile file).Yields fun valid => valid = true → Valid file := by
  unfold validatePEFile validatePEHeader
  refine .ite (fun _ => .ok fun h => by cases h) fun hd => ?_
  rw [if_neg hd]
  have hd : dosHeaderSize ≤ file.size := not_lt.mp hd
  refine .bind (Buffer.load_yields (by unfold dosHeaderSize at hd; omega)) fun _ _ => ?_
  refine .ite (fun _ => .ok fun h => by cases h) fun _ => ?_
  refine .bind (Buffer.load_yields hd) fun lfanew hl => ?_
  obtain rfl := hl
  refine .ite (fun _ => .ok fun h => by cases h) fun hp => ?_
  have hp : header file + (peHeaderSize + optionalHeaderSize) ≤ file.size := not_lt.mp (not_or.mp hp).right
  -- What is read next is in the two headers.
  have hread {α : Type} {width k : Nat} {f : (Nat → UInt8) → Nat → α}
      (hk : k + width ≤ peHeaderSize + optionalHeaderSize) :
      (file.load Fault.file width f (header file + k)).Yields (· = f file.data (header file + k)) :=
    Buffer.load_yields (by omega)
  refine .bind (hread (k := 0) (by decide)) fun _ _ => ?_
  refine .ite (fun _ => .ok fun h => by cases h) fun _ => ?_
  refine .bind (hread (k := 4) (by decide)) fun _ _ => ?_
  refine .ite (fun _ => .ok fun h => by cases h) fun _ => ?_
  refine .bind (hread (k := 22) (by decide)) fun _ _ => ?_
  refine .ite (fun _ => .ok fun h => by cases h) fun _ => ?_
  refine .bind (hread (k := 20) (by decide)) fun _ _ => ?_
  refine .ite (fun _ => .ok fun h => by cases h) fun _ => ?_
  refine .bind (hread (k := peHeaderSize) (by decide)) fun _ _ => ?_
  refine .ite (fun _ => .ok fun h => by cases h) fun _ => ?_
  refine .bind (hread (k := 20) (by decide)) fun opt ho => ?_
  refine .bind (hread (k := 6) (by decide)) fun n hn => ?_
  obtain rfl := ho
  obtain rfl := hn
  exact .ok fun h => ⟨hd, hp, not_lt.mp (of_decide_eq_true h)⟩

-- Either the file is not loaded, or it is a valid one.
lemma createProcessFromPE_cases (env : Environment) (filename : Option CString) (options : Option PELoadOptions) :
    (¬(Opened env filename (options.getD {}).privilegeLevel maxPEFileSize ∧ validatePEFile env.file = .ok true) ∧
      createProcessFromPE env filename options = .ok (.failure [])) ∨
    Opened env filename (options.getD {}).privilegeLevel maxPEFileSize ∧ validatePEFile env.file = .ok true ∧
      createProcessFromPE env filename options = loadImage env (options.getD {}) [.file] env.file := by
  rcases opened_cases env filename (options.getD {}).privilegeLevel maxPEFileSize (fun _ => Iff.rfl)
    (do if ← validatePEFile env.file then loadImage env (options.getD {}) [.file] env.file
        else return .failure []) with ⟨ho, he⟩ | ⟨ho, he⟩
  · exact .inl ⟨fun h => ho h.left, he⟩
  obtain ⟨valid, hx, -⟩ := validatePEFile_yields env.file
  cases valid
  case false => exact .inl ⟨fun h => (nomatch hx.symm.trans h.right), he.trans (by rw [hx]; rfl)⟩
  case true => exact .inr ⟨ho, hx, he.trans (by rw [hx]; rfl)⟩

-- The loader reads only in the file and writes only in the image, if and only if the sections of a file that
-- comes to be loaded are in order.
theorem createProcessFromPE_safe (env : Environment) (filename : Option CString) (options : Option PELoadOptions) :
    (∃ o, createProcessFromPE env filename options = .ok o) ↔
      (Opened env filename (options.getD {}).privilegeLevel maxPEFileSize → validatePEFile env.file = .ok true →
        Admits env.file (options.getD {}) → env.processMemory = true → Sound env.file) := by
  rcases createProcessFromPE_cases env filename options with ⟨hn, he⟩ | ⟨ho, hv, he⟩
  · rw [he]
    exact ⟨fun _ h h' => absurd ⟨h, h'⟩ hn, fun _ => ⟨_, rfl⟩⟩
  · obtain ⟨valid, hx, hvalid⟩ := validatePEFile_yields env.file
    have hvalid := hvalid (Except.ok.inj (hx.symm.trans hv))
    rw [he, hvalid.loadImage_iff (ho.le.trans_lt (by decide))]
    exact ⟨fun h _ _ => h, fun h => h ho hv⟩

-- A file with one section, and an image of 64 bytes.
def sample (virtualSize virtualAddr rawDataSize : UInt8) (rawDataPtr : List UInt8) : List UInt8 :=
  [0x4D, 0x5A] ++ List.replicate 58 0 ++ [64, 0, 0, 0] ++
    [0x50, 0x45, 0, 0, 0x64, 0x86, 1, 0] ++ List.replicate 12 0 ++ [112, 0, 2, 0] ++
    [0x0B, 0x02] ++ List.replicate 54 0 ++ [64, 0, 0, 0] ++ List.replicate 52 0 ++
    List.replicate 8 0 ++ [virtualSize, 0, 0, 0] ++ [virtualAddr, 0, 0, 0] ++ [rawDataSize, 0, 0, 0] ++ rawDataPtr ++
    List.replicate 16 0

-- The position of the data is above 2 ^ 32 - 32, so that the end of the data wraps; or the section has more data
-- than its virtual size.
theorem createProcessFromPE_unsafe :
    createProcessFromPE (sampleEnvironment 240 (sample 32 16 32 [0xF0, 0xFF, 0xFF, 0xFF])) (some []) none =
        .error .file ∧
      createProcessFromPE (sampleEnvironment 240 (sample 1 16 100 [0, 0, 0, 0])) (some []) none = .error .image :=
  ⟨rfl, rfl⟩

end PE
