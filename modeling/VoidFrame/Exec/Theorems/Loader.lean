import VoidFrame.Exec.Loader

namespace Exec

-- A size that does not wrap when it is rounded up and the guard pages are added.
def Allocatable (size : UInt64) : Prop :=
  size.toNat + 3 * 4096 ≤ 2 ^ 64

instance {size : UInt64} : Decidable (Allocatable size) :=
  inferInstanceAs (Decidable (_ ≤ _))

variable {env : Environment} {size : UInt64}

lemma toNat_pageAlignUp (size : UInt64) :
    (pageAlignUp size).toNat = (size.toNat + 4095) % 2 ^ 64 / 4096 * 4096 := by
  have hm : (~~~pageMask).toBitVec = BitVec.allOnes 64 <<< 12 := by decide
  have hs : (size + pageMask).toNat = (size.toNat + 4095) % 2 ^ 64 := UInt64.toNat_add ..
  have ha : (pageAlignUp size).toBitVec = (size + pageMask).toBitVec >>> 12 <<< 12 := by
    rw [BitVec.shiftLeft_ushiftRight, ← hm]
    rfl
  have hn : (pageAlignUp size).toNat = ((size + pageMask).toNat >>> 12 <<< 12) % 2 ^ 64 :=
    (congrArg BitVec.toNat ha).trans (BitVec.toNat_shiftLeft ..)
  rw [hn, hs, Nat.shiftRight_eq_div_pow, Nat.shiftLeft_eq, Nat.mod_eq_of_lt (by omega)]

lemma usable_eq (size : UInt64) :
    usable size = ((size.toNat + 4095) % 2 ^ 64 / 4096 * 4096 + 8192) % 2 ^ 64 - 8192 := by
  have hg : (2 * pageSize).toNat = 8192 := rfl
  rw [usable, UInt64.toNat_add, toNat_pageAlignUp, hg]

lemma le_usable (h : Allocatable size) : size.toNat ≤ usable size := by
  unfold Allocatable at h
  rw [usable_eq]
  omega

lemma allocateImage_some (h : Allocatable size) (hm : env.processMemory = true) (h0 : size ≠ 0) :
    ∃ image, allocateImage env size = .ok (some image) ∧ image.size = size.toNat := by
  unfold allocateImage
  rw [if_neg (by simp [hm, h0]), Nat.min_eq_left (le_usable h), Buffer.fill, if_pos (.inr (by simp))]
  exact ⟨_, rfl, rfl⟩

lemma usable_of_not_allocatable (h : ¬Allocatable size) : usable size = 0 := by
  unfold Allocatable at h
  have hlt := size.toNat_lt
  rw [usable_eq]
  omega

-- A size that wraps makes the loader clear bytes that it does not have.
lemma allocatable_of_ok (hm : env.processMemory = true) (h0 : size ≠ 0) (h : allocateImage env size = .ok r) :
    Allocatable size := by
  by_contra ha
  unfold allocateImage at h
  rw [if_neg (by simp [hm, h0]), usable_of_not_allocatable ha] at h
  obtain ⟨b, hb, -⟩ := Except.of_map h
  have hw : size.toNat = 0 ∨ 0 + size.toNat ≤ min size.toNat 0 := (Buffer.fill_eq_ok hb).left
  exact h0 (UInt64.toNat_inj.mp (by simpa using hw))

lemma allocateImage_eq_some (h : allocateImage env size = .ok (some image)) :
    image.size = size.toNat ∧ ∀ i < size.toNat, image.data i = 0 := by
  unfold allocateImage at h
  split_ifs at h with hz
  case pos => cases h
  obtain ⟨b, hb, he⟩ := Except.of_map h
  obtain rfl := Option.some.inj he
  obtain ⟨hw, hs, hd⟩ := Buffer.fill_eq_ok hb
  refine ⟨?_, fun i hi => (hd i).trans (if_pos ⟨Nat.zero_le i, by omega⟩)⟩
  have hw : size.toNat = 0 ∨ 0 + size.toNat ≤ min size.toNat (usable size) := hw
  rw [hs]
  show min size.toNat (usable size) = size.toNat
  omega

section

variable {image image' file : Buffer} {memOffset offset filesz memsz : UInt64}

lemma loadBytes_ok (hs : file.Within offset.toNat filesz.toNat) (hd : image.Within memOffset.toNat filesz.toNat)
    (hm : filesz < memsz → memOffset.toNat + memsz.toNat ≤ image.size) :
    ∃ image', loadBytes image file memOffset offset filesz memsz = .ok image' ∧ image'.size = image.size := by
  obtain ⟨b, hb, hbs⟩ := Buffer.copy_size Fault.file Fault.image hs hd
  rw [loadBytes, hb]
  by_cases hlt : filesz < memsz
  case neg => exact ⟨b, if_neg hlt, hbs⟩
  have hm := hm hlt
  have hlt' := UInt64.lt_iff_toNat_lt.mp hlt
  have hstart := UInt64.toNat_add memOffset filesz
  have hcount := UInt64.toNat_sub_of_le _ _ (UInt64.le_of_lt hlt)
  have hzero : b.Within (memOffset + filesz).toNat (memsz - filesz).toNat := .inr (by omega)
  obtain ⟨c, hc, hcs⟩ := Buffer.fill_size Fault.image 0 hzero
  exact ⟨c, (if_pos hlt).trans hc, hcs.trans hbs⟩

-- What is copied does not wrap in the file and has room in the image, and what is cleared does not wrap.
structure Fits (size memOffset offset filesz memsz : UInt64) : Prop where
  source : filesz = 0 ∨ offset.toNat + filesz.toNat < 2 ^ 64
  target : filesz = 0 ∨ memOffset.toNat + filesz.toNat ≤ size.toNat
  zeros  : memsz ≤ filesz ∨ memOffset.toNat + memsz.toNat < 2 ^ 64

lemma Fits.loadBytes_ok (h : Fits size memOffset offset filesz memsz) (hz : file.size < 2 ^ 64)
    (him : image.size = size.toNat) (hf : ¬UInt64.ofNat file.size < offset + filesz)
    (hm : ¬size < memOffset + memsz) :
    ∃ image', loadBytes image file memOffset offset filesz memsz = .ok image' ∧ image'.size = image.size := by
  have hfile : (UInt64.ofNat file.size).toNat = file.size := UInt64.toNat_ofNat_of_lt' hz
  refine Exec.loadBytes_ok ?_ ?_ ?_
  · rcases h.source with h0 | h
    · exact .inl (congrArg UInt64.toNat h0)
    · rw [UInt64.lt_iff_toNat_lt, hfile, UInt64.toNat_add, Nat.mod_eq_of_lt h] at hf
      exact .inr (not_lt.mp hf)
  · rcases h.target with h0 | h
    · exact .inl (congrArg UInt64.toNat h0)
    · exact .inr (him ▸ h)
  · intro hlt
    have h := h.zeros.resolve_left (UInt64.not_le.mpr hlt)
    rw [UInt64.lt_iff_toNat_lt, UInt64.toNat_add, Nat.mod_eq_of_lt h] at hm
    exact him ▸ not_lt.mp hm

lemma fits_of_loadBytes (hz : file.size < 2 ^ 64) (him : image.size = size.toNat)
    (h : loadBytes image file memOffset offset filesz memsz = .ok image') :
    Fits size memOffset offset filesz memsz := by
  obtain ⟨b, hb, h⟩ := Except.of_bind h
  obtain ⟨hsrc, hdst⟩ := Buffer.within_of_copy hb
  have hbs := (Buffer.copy_eq_ok hb).left
  have htarget : filesz = 0 ∨ memOffset.toNat + filesz.toNat ≤ size.toNat :=
    hdst.imp (fun h0 => UInt64.toNat_inj.mp h0) fun h => him ▸ h
  refine ⟨hsrc.imp (fun h0 => UInt64.toNat_inj.mp h0) fun h => by omega, htarget, ?_⟩
  by_cases hlt : filesz < memsz
  case neg => exact .inl (UInt64.not_lt.mp hlt)
  rw [if_pos hlt] at h
  have hw := (Buffer.fill_eq_ok h).left
  have hlt' := UInt64.lt_iff_toNat_lt.mp hlt
  have hsize := size.toNat_lt
  have hoff := memOffset.toNat_lt
  have hstart : memOffset.toNat + filesz.toNat < 2 ^ 64 := by
    rcases htarget with rfl | ht
    · exact hoff
    · omega
  rw [Buffer.Within, UInt64.toNat_sub_of_le _ _ (UInt64.le_of_lt hlt), UInt64.toNat_add,
    Nat.mod_eq_of_lt hstart, hbs, him] at hw
  exact .inr (by omega)

lemma loadBytes_size (h : loadBytes image file memOffset offset filesz memsz = .ok image') :
    image'.size = image.size := by
  obtain ⟨b, hb, h⟩ := Except.of_bind h
  split_ifs at h with hlt
  · exact (Buffer.fill_eq_ok h).right.left.trans (Buffer.copy_eq_ok hb).left
  · exact Except.ok.inj h ▸ (Buffer.copy_eq_ok hb).left

lemma loadBytes_data (hle : filesz ≤ memsz) (hm : memOffset.toNat + memsz.toNat < 2 ^ 64)
    (h : loadBytes image file memOffset offset filesz memsz = .ok image') :
    image'.size = image.size ∧ ∀ n, image'.data n =
      if memOffset.toNat ≤ n ∧ n < memOffset.toNat + memsz.toNat then
        if n - memOffset.toNat < filesz.toNat then file.data (offset.toNat + (n - memOffset.toNat)) else 0
      else image.data n := by
  have hle' := UInt64.le_iff_toNat_le.mp hle
  obtain ⟨b, hb, h⟩ := Except.of_bind h
  obtain ⟨hbs, hbd⟩ := Buffer.copy_eq_ok hb
  by_cases hlt : filesz < memsz
  case neg =>
    rw [if_neg hlt] at h
    obtain rfl := Except.ok.inj h
    have heq : filesz.toNat = memsz.toNat :=
      le_antisymm hle' (not_lt.mp fun h => hlt (UInt64.lt_iff_toNat_lt.mpr h))
    refine ⟨hbs, fun n => ?_⟩
    rw [hbd, heq]
    grind
  case pos =>
    rw [if_pos hlt] at h
    obtain ⟨-, hcs, hcd⟩ := Buffer.fill_eq_ok h
    have hstart : (memOffset + filesz).toNat = memOffset.toNat + filesz.toNat := by
      rw [UInt64.toNat_add, Nat.mod_eq_of_lt (by omega)]
    have hcount := UInt64.toNat_sub_of_le _ _ hle
    refine ⟨hcs.trans hbs, fun n => ?_⟩
    rw [hcd, hbd, hstart, hcount]
    grind

end

-- A loop over the parts of a file that stops at the first that is rejected. It ends without an access outside
-- of the buffers if and only if the parts before that one are in order.
lemma loop_ok_iff {f : Buffer → Nat → Except Fault (Option Buffer)}
    {g : List Nat → Buffer → Except Fault (Option Buffer)} {R G : Nat → Prop} {size n k : Nat}
    (hnil : ∀ b, g [] b = .ok (some b))
    (hcons : ∀ i l b, g (i :: l) b = f b i >>= fun r => r.elim (.ok none) (g l))
    (hrejects : ∀ i b, i < k + n → b.size = size → R i → f b i = .ok none)
    (haccepts : ∀ i b, i < k + n → b.size = size → ¬R i → ((∃ r, f b i = .ok r) ↔ G i) ∧
      ∀ r, f b i = .ok r → ∃ c, r = some c ∧ c.size = size)
    {b : Buffer} (hb : b.size = size) :
    (∃ r, g (List.range' k n) b = .ok r) ↔
      ∀ i, k ≤ i → i < k + n → (∀ j, k ≤ j → j ≤ i → ¬R j) → G i := by
  induction n generalizing k b
  case zero => exact ⟨fun _ i hk hi => by omega, fun _ => ⟨_, hnil b⟩⟩
  case succ n ih =>
    rw [List.range'_succ, hcons]
    have hk : k < k + (n + 1) := by omega
    by_cases hr : R k
    case pos =>
      rw [hrejects k b hk hb hr]
      exact ⟨fun _ i hi _ ha => absurd hr (ha k le_rfl hi), fun _ => ⟨none, rfl⟩⟩
    case neg =>
      obtain ⟨hgood, hsize⟩ := haccepts k b hk hb hr
      have hrest {c : Buffer} (hc : c.size = size) := ih (k := k + 1) (fun i b hi => hrejects i b (by omega))
        (fun i b hi => haccepts i b (by omega)) hc
      constructor
      · rintro ⟨r, h⟩ i hi hin ha
        obtain ⟨s, hs, h⟩ := Except.of_bind h
        obtain ⟨c, rfl, hc⟩ := hsize s hs
        obtain rfl | hlt := Nat.eq_or_lt_of_le hi
        · exact hgood.mp ⟨_, hs⟩
        · exact (hrest hc).mp ⟨r, h⟩ i hlt (by omega) fun j hj => ha j (by omega)
      · intro h
        obtain ⟨s, hs⟩ := hgood.mpr (h k le_rfl hk fun j hj hj' => Nat.le_antisymm hj' hj ▸ hr)
        obtain ⟨c, rfl, hc⟩ := hsize s hs
        rw [hs]
        refine (hrest hc).mpr fun i hi hin ha => h i (by omega) (by omega) fun j hj hji => ?_
        obtain rfl | hlt := Nat.eq_or_lt_of_le hj
        · exact hr
        · exact ha j hlt hji

-- The loader has the file: it has a name, the current process may create one, and the file was read.
structure Opened (env : Environment) (filename : Option CString) (privilege : UInt8) (maxSize : Nat) : Prop where
  named   : filename.isSome
  creator : ∃ creator, env.creator = some creator ∧ ¬(privilege = procPrivSystem ∧ creator ≠ procPrivSystem)
  nonzero : env.fileSize ≠ 0
  le      : env.fileSize.toNat ≤ maxSize
  memory  : env.fileMemory = true
  read    : env.bytesRead = env.fileSize.toNat

-- The checks that the loaders make before they look at the file. `c` is the check of the number of bytes read.
lemma opened_cases (env : Environment) (filename : Option CString) (privilege : UInt8) (maxSize : Nat) {c : Prop}
    [Decidable c] (hc : env.fileSize ≠ 0 → (c ↔ env.bytesRead ≠ env.fileSize.toNat)) (x : Except Fault Outcome) :
    let r : Except Fault Outcome :=
      if filename.isNone then return .failure []
      else match env.creator with
        | none => return .failure []
        | some creator =>
          if privilege = procPrivSystem ∧ creator ≠ procPrivSystem then return .failure []
          else if env.fileSize = 0 ∨ maxSize < env.fileSize.toNat then return .failure []
          else if !env.fileMemory then return .failure []
          else if c then return .failure []
          else x
    (¬Opened env filename privilege maxSize ∧ r = .ok (.failure [])) ∨
      Opened env filename privilege maxSize ∧ r = x := by
  intro r
  by_cases ho : Opened env filename privilege maxSize
  case pos =>
    obtain ⟨creator, hcr, hpriv⟩ := ho.creator
    have hread : ¬c := fun h => (hc ho.nonzero).mp h ho.read
    refine .inr ⟨ho, ?_⟩
    simp [r, hcr, Option.isSome_iff_ne_none.mp ho.named, ho.nonzero, not_lt.mpr ho.le, ho.memory, hread, hpriv]
  case neg =>
    refine .inl ⟨ho, ?_⟩
    rcases hcr : env.creator with _ | creator
    · simp only [r, hcr]
      exact ite_self _
    simp only [r, hcr]
    split_ifs with h1 h2 h3 h4 h5
    · rfl
    · rfl
    · rfl
    · rfl
    · rfl
    · obtain ⟨hne, hle⟩ := not_or.mp h3
      exact absurd ⟨by simpa [Option.isSome_iff_ne_none] using h1, ⟨creator, hcr, h2⟩, hne, not_lt.mp hle,
        by simpa using h4, not_not.mp fun h => h5 ((hc hne).mpr h)⟩ ho

lemma launch_process
    (h : (launch env blocks image entry).process = some p) : p = ⟨image, entry, procPrivNorm⟩ := by
  unfold launch at h
  dsimp only at h
  split at h
  · cases h
  · exact (Option.some.inj h).symm

-- A file that is read as it is, when there is enough memory.
def sampleEnvironment (fileSize : UInt64) (bytes : List UInt8) : Environment where
  creator := some procPrivNorm
  fileSize := fileSize
  bytesRead := fileSize.toNat
  contents := fun i => bytes.getD i 0
  fileMemory := true
  processMemory := true
  memory := fun _ => 0xCC
  createProcess := 7

end Exec
