import VoidFrame.Exec.Macho
import VoidFrame.Exec.Theorems.Loader

namespace Macho

open Exec

-- A load command, as far as it is a segment.
structure Command where
  cmd : UInt32
  vmaddr : UInt64
  vmsize : UInt64
  fileoff : UInt64
  filesize : UInt64

variable (file : Buffer)

def count : Nat :=
  (Bytes.u32 file.data 16).toNat

def position : Nat → Nat
  | 0 => machHeaderSize
  | i + 1 => position i + (Bytes.u32 file.data (position i + 4)).toNat

def command (i : Nat) : Command where
  cmd := Bytes.u32 file.data (position file i)
  vmaddr := Bytes.u64 file.data (position file i + 24)
  vmsize := Bytes.u64 file.data (position file i + 32)
  fileoff := Bytes.u64 file.data (position file i + 40)
  filesize := Bytes.u64 file.data (position file i + 48)

def IsSegment (i : Nat) : Prop :=
  i < count file ∧ (command file i).cmd = lcSegment64

-- The sizes of the segments among the first load commands. The sum can wrap.
def sizeUpTo : Nat → UInt64
  | 0 => 0
  | i + 1 => if (command file i).cmd = lcSegment64 then sizeUpTo i + (command file i).vmsize else sizeUpTo i

def total : UInt64 :=
  sizeUpTo file (count file)

-- The loader stops at a segment whose bounds are not accepted.
def Rejects (i : Nat) : Prop :=
  IsSegment file i ∧ let c := command file i
    (UInt64.ofNat file.size < c.fileoff + c.filesize ∨ total file < c.vmaddr + c.vmsize)

-- The bytes of this segment are loaded.
structure Loads (i : Nat) : Prop where
  segment : IsSegment file i
  accepts : ∀ j ≤ i, ¬Rejects file j

def Named (i : Nat) : Prop :=
  ∃ k < file.size - (position file i + 8), file.data (position file i + 8 + k) = 0

-- The header passes the checks.
structure Valid : Prop where
  magic : Bytes.u32 file.data 0 = mhMagic64
  size : Bytes.u32 file.data 20 ≠ 0
  count : Bytes.u32 file.data 16 ≠ 0
  le : (Bytes.u32 file.data 20).toNat ≤ file.size

-- The size of the image can be computed: the types and sizes of the commands are in the file, and the sizes of
-- the segments.
structure Readable : Prop where
  command {i} (hi : i < count file) : position file i + 8 ≤ file.size
  segment {i} (hi : IsSegment file i) : position file i + 40 ≤ file.size

-- The commands for which the checks of the loader are what they stand for:
-- * The size of the image can be allocated.
-- * The fields of a segment are in the file, and its name ends there.
-- * The bytes of a segment do not wrap in the file and have room in the image.
-- * The entry point is in the file.
structure Sound : Prop where
  alloc : Allocatable (total file)
  fields {i} : IsSegment file i → (∀ j < i, ¬Rejects file j) → position file i + 56 ≤ file.size
  name   {i} : Loads file i → Named file i
  bytes  {i} : Loads file i → let c := command file i
               Fits (total file) c.vmaddr c.fileoff c.filesize c.vmsize
  main   {i} : (∀ j < count file, ¬Rejects file j) → i < count file → (command file i).cmd = lcMain →
               (∀ j < i, (command file j).cmd ≠ lcMain) → position file i + 24 ≤ file.size

-- The file is in order as far as the loader looks at it. Without memory for the image it looks no further
-- than the sizes of the segments.
structure Safe (processMemory : Bool) : Prop where
  magic : 4 ≤ file.size
  header : Bytes.u32 file.data 0 = mhMagic64 → 24 ≤ file.size
  readable : Valid file → Readable file
  sound : Valid file → total file ≠ 0 → processMemory = true → Sound file

variable {file} {i : Nat}

namespace Readable

variable (hr : Readable file)
include hr

lemma cmd_yields (hi : i < count file) : (cmd file (position file i)).Yields (· = (Macho.command file i).cmd) :=
  Buffer.load_yields (by have := hr.command hi; omega)

-- The rule for the walk: what a round takes from one command to the next holds at the end.
lemma walk_yields {σ ρ : Type} {round : σ → Nat → UInt32 → Except Fault (σ ⊕ ρ)} {P : Nat → σ → Prop}
    {Q : ρ → Prop} {n k : Nat} {s : σ} (hk : k + n = count file) (hs : P k s)
    (hstep : ∀ i < count file, ∀ s, P i s →
      (round s (position file i) (Macho.command file i).cmd).Yields (Sum.elim (P (i + 1)) Q)) :
    (walk file round n (position file k) s).Yields (Sum.elim (P (count file)) Q) := by
  induction n generalizing k s
  case zero => exact .ok (hk ▸ hs)
  case succ n ih =>
    have hlt : k < count file := by omega
    refine .bind (hr.cmd_yields hlt) fun _ hc => ?_
    obtain rfl := hc
    refine .bind (hstep k hlt s hs) fun r h => ?_
    cases r
    case inr r => exact .ok h
    case inl s =>
      refine .bind (Buffer.load_yields (hr.command hlt)) fun _ hc => ?_
      obtain rfl := hc
      exact ih (by omega) h

lemma addVmsize_yields (hi : i < count file) :
    (addVmsize file (sizeUpTo file i) (position file i) (Macho.command file i).cmd).Yields
      (Sum.elim (· = sizeUpTo file (i + 1)) fun _ => True) := by
  unfold addVmsize
  refine .ite (fun h => ?_) fun h => ?_
  · refine .bind (Buffer.load_yields (hr.segment ⟨hi, h⟩)) fun _ hv => ?_
    obtain rfl := hv
    exact .ok (if_pos h).symm
  · exact .ok (if_neg h).symm

lemma calculateProcessMemorySize_yields (hn : ncmds file = .ok (Bytes.u32 file.data 16)) :
    (calculateProcessMemorySize file).Yields (· = total file) := by
  rw [calculateProcessMemorySize, hn]
  refine .bind (P := Sum.elim (· = total file) fun _ => True) ?_ fun r hr => ?_
  · refine hr.walk_yields (P := fun i s => s = sizeUpTo file i) (k := 0) (Nat.zero_add _) rfl fun i hi s hs => ?_
    rw [hs]
    exact hr.addVmsize_yields hi
  · cases r
    case inl s => exact .ok hr
    case inr e => exact e.elim

end Readable

namespace Sound

variable (hs : Sound file)
include hs

lemma field_yields (hi : IsSegment file i) (ha : ∀ j < i, ¬Rejects file j) (hk : k ≤ 48) :
    (file.load64 Fault.file (position file i + k)).Yields (· = Bytes.u64 file.data (position file i + k)) :=
  Buffer.load_yields (by have := hs.fields hi ha; omega)

lemma printSegname_yields (hi : Loads file i) : (printSegname file (position file i)).Yields fun _ => True := by
  obtain ⟨k, hk, h0⟩ := hs.name hi
  exact .of_eq (if_pos (List.any_eq_true.mpr ⟨k, List.mem_range.mpr hk, decide_eq_true h0⟩)) trivial

lemma loadSegment_yields (hz : file.size < 2 ^ 64) (hi : i < count file)
    (ha : ∀ j < i, ¬Rejects file j) (him : image.size = (total file).toNat) :
    (loadSegment file image (position file i) (command file i).cmd).Yields
      (Sum.elim (fun image' => image'.size = (total file).toNat ∧ ∀ j < i + 1, ¬Rejects file j) fun _ => True) := by
  unfold loadSegment
  have hnext (h : ¬Rejects file i) : ∀ j < i + 1, ¬Rejects file j := fun j hj =>
    (Nat.lt_succ_iff_lt_or_eq.mp hj).elim (ha j) fun he => he ▸ h
  refine .ite (fun hc => .ok ⟨him, hnext fun h => hc h.left.right⟩) fun hc => ?_
  have hseg : IsSegment file i := ⟨hi, not_not.mp hc⟩
  refine .bind (hs.field_yields hseg ha (k := 40) (by decide)) fun _ he => ?_
  obtain rfl := he
  refine .bind (hs.field_yields hseg ha (k := 48) (by decide)) fun _ he => ?_
  obtain rfl := he
  refine .ite (fun _ => .ok trivial) fun hf => ?_
  refine .bind (hs.field_yields hseg ha (k := 24) (by decide)) fun _ he => ?_
  obtain rfl := he
  refine .bind (hs.field_yields hseg ha (k := 32) (by decide)) fun _ he => ?_
  obtain rfl := he
  refine .ite (fun _ => .ok trivial) fun hm => ?_
  rw [him, UInt64.ofNat_toNat] at hm
  have hn : ¬Rejects file i := fun h => h.right.elim hf hm
  have hl : Loads file i := ⟨hseg, fun j hj => hnext hn j (Nat.lt_succ_of_le hj)⟩
  refine .bind ((hs.bytes hl).loadBytes_ok hz him hf hm) fun b hb => ?_
  refine .bind (hs.printSegname_yields hl) fun _ _ => ?_
  exact .ok ⟨hb.trans him, hnext hn⟩

lemma findMain_yields (ha : ∀ j < count file, ¬Rejects file j) (hi : i < count file)
    (hm : ∀ j < i, (command file j).cmd ≠ lcMain) :
    (findMain file () (position file i) (command file i).cmd).Yields
      (Sum.elim (fun _ => ∀ j < i + 1, (command file j).cmd ≠ lcMain) fun _ => True) := by
  unfold findMain
  refine .ite (fun hc => ?_) fun hc => .ok fun j hj => (Nat.lt_succ_iff_lt_or_eq.mp hj).elim (hm j) fun he => he ▸ hc
  have hle := hs.main ha hi hc hm
  refine .bind (Buffer.load_yields (by omega)) fun _ _ => ?_
  refine .bind (Buffer.load_yields (by omega)) fun _ _ => ?_
  exact .ok trivial

lemma findEntry_yields (ha : ∀ j < count file, ¬Rejects file j) (hi : i < count file) :
    (findEntry file entry () (position file i) (command file i).cmd).Yields
      (Sum.elim (fun _ => True) fun _ => True) := by
  unfold findEntry
  refine .ite (fun _ => .ok trivial) fun hc => ?_
  have hl : Loads file i := ⟨⟨hi, not_not.mp hc⟩, fun j hj => ha j (by omega)⟩
  have hfield {k : Nat} (hk : k ≤ 48) := hs.field_yields hl.segment (fun j hj => ha j (by omega)) hk
  refine .bind (hfield (k := 40) (by decide)) fun _ _ => ?_
  refine .ite (fun _ => .ok trivial) fun _ => ?_
  refine .bind (hfield (k := 48) (by decide)) fun _ _ => ?_
  refine .ite (fun _ => .ok trivial) fun _ => ?_
  refine .bind (hfield (k := 24) (by decide)) fun _ _ => ?_
  refine .bind (hs.printSegname_yields hl) fun _ _ => ?_
  exact .ok trivial

end Sound

-- What a walk that comes to an end has read: it stops at the first command at which a round ends it.
lemma walk_visits {σ ρ : Type} {round : σ → Nat → UInt32 → Except Fault (σ ⊕ ρ)} {P : Nat → σ → Prop}
    {S G : Nat → Prop} {n k : Nat} {s : σ} {r : σ ⊕ ρ} (h : walk file round n (position file k) s = .ok r)
    (hs : P k s)
    (hstep : ∀ i s r, i < k + n → P i s → round s (position file i) (command file i).cmd = .ok r →
      G i ∧ Sum.elim (fun s => P (i + 1) s ∧ ¬S i) (fun _ => S i) r) :
    (∀ i, k ≤ i → i < k + n → (∀ j, k ≤ j → j < i → ¬S j) →
      G i ∧ (¬S i → position file i + 8 ≤ file.size)) ∧
    ((∀ j, k ≤ j → j < k + n → ¬S j) → ∃ s, r = .inl s ∧ P (k + n) s) := by
  induction n generalizing k s
  case zero =>
    exact ⟨fun i hk hi => by omega, fun _ => ⟨s, (Except.ok.inj h).symm, hs⟩⟩
  case succ n ih =>
    obtain ⟨c, hc, h⟩ := Except.of_bind h
    obtain rfl : (command file k).cmd = c :=
      Except.ok.inj ((Buffer.load_eq (Buffer.le_of_load_eq hc)).symm.trans hc)
    obtain ⟨t, ht, h⟩ := Except.of_bind h
    obtain ⟨hgood, hnext⟩ := hstep k s t (by omega) hs ht
    cases t
    case inr x =>
      have hnext : S k := hnext
      refine ⟨fun i hk hi ha => ?_, fun ha => absurd hnext (ha k le_rfl (by omega))⟩
      obtain rfl | hlt := Nat.eq_or_lt_of_le hk
      · exact ⟨hgood, fun h => absurd hnext h⟩
      · exact absurd hnext (ha k le_rfl hlt)
    case inl s' =>
      obtain ⟨hs', hstop⟩ := hnext
      obtain ⟨size, hsize, h⟩ := Except.of_bind h
      have hle : position file k + 4 + 4 ≤ file.size := Buffer.le_of_load_eq hsize
      obtain rfl := Except.ok.inj ((Buffer.load_eq hle).symm.trans hsize)
      obtain ⟨hall, hend⟩ := ih (k := k + 1) h hs' fun i s r hi => hstep i s r (by omega)
      refine ⟨fun i hk hi ha => ?_, fun ha => ?_⟩
      · obtain rfl | hlt := Nat.eq_or_lt_of_le hk
        · exact ⟨hgood, fun _ => hle⟩
        · exact hall i hlt (by omega) fun j hj => ha j (by omega)
      · rw [Nat.add_comm n, ← Nat.add_assoc]
        exact hend fun j hj hj' => ha j (by omega) (by omega)

lemma field_of_eq {k : Nat} {v : UInt64} (h : file.load64 Fault.file (position file i + k) = .ok v) :
    v = Bytes.u64 file.data (position file i + k) ∧ position file i + k + 8 ≤ file.size :=
  have hle := Buffer.le_of_load_eq h
  ⟨Except.ok.inj (h.symm.trans (Buffer.load_eq hle)), hle⟩

lemma readable_of_eq (h : calculateProcessMemorySize file = .ok size) : Readable file := by
  obtain ⟨n, hn, h⟩ := Except.of_bind h
  obtain rfl := Except.ok.inj ((Buffer.load_eq (Buffer.le_of_load_eq hn)).symm.trans hn)
  obtain ⟨r, hr, -⟩ := Except.of_bind h
  have hv := (walk_visits (k := 0) (P := fun _ _ => True) (S := fun _ => False)
    (G := fun i => (command file i).cmd = lcSegment64 → position file i + 40 ≤ file.size) hr trivial
    fun i s r _ _ h => ?_).left
  · refine ⟨fun {i} hi => ?_, fun {i} hi => ?_⟩
    · exact (hv i (Nat.zero_le i) (hi.trans_eq (Nat.zero_add _).symm) fun _ _ _ => id).right id
    · exact (hv i (Nat.zero_le i) (hi.left.trans_eq (Nat.zero_add _).symm) fun _ _ _ => id).left hi.right
  · unfold addVmsize at h
    split_ifs at h with hc
    · obtain ⟨size, hsize, h⟩ := Except.of_bind h
      obtain rfl := Except.ok.inj h
      exact ⟨fun _ => (field_of_eq (k := 32) hsize).right, trivial, id⟩
    · obtain rfl := Except.ok.inj h
      exact ⟨fun h => absurd h hc, trivial, id⟩

lemma named_of_printSegname (h : printSegname file (position file i) = .ok u) : Named file i := by
  unfold printSegname at h
  split_ifs at h with hz
  obtain ⟨k, hk, h0⟩ := List.any_eq_true.mp hz
  exact ⟨k, List.mem_range.mp hk, of_decide_eq_true h0⟩

-- What a segment has to be for a round of the loop.
structure Placed (file : Buffer) (i : Nat) : Prop where
  fields : position file i + 56 ≤ file.size
  name   : ¬Rejects file i → Named file i
  bytes  : ¬Rejects file i → let c := command file i
           Fits (total file) c.vmaddr c.fileoff c.filesize c.vmsize

lemma placed_of_loadSegment (hz : file.size < 2 ^ 64) (hi : i < count file) (him : image.size = (total file).toNat)
    (h : loadSegment file image (position file i) (command file i).cmd = .ok r) :
    (IsSegment file i → Placed file i) ∧
      Sum.elim (fun image' => image'.size = (total file).toNat ∧ ¬Rejects file i) (fun _ => Rejects file i) r := by
  unfold loadSegment at h
  split_ifs at h with hc
  · obtain rfl := Except.ok.inj h
    exact ⟨fun hs => absurd hs.right hc, him, fun hr => hc hr.left.right⟩
  have hseg : IsSegment file i := ⟨hi, not_not.mp hc⟩
  obtain ⟨source, hsource, h⟩ := Except.of_bind h
  obtain ⟨count, hcount, h⟩ := Except.of_bind h
  obtain ⟨rfl, -⟩ := field_of_eq (k := 40) hsource
  obtain ⟨rfl, hfields⟩ := field_of_eq (k := 48) hcount
  split_ifs at h with hf
  · obtain rfl := Except.ok.inj h
    have hr : Rejects file i := ⟨hseg, .inl hf⟩
    exact ⟨fun _ => ⟨hfields, (absurd hr ·), (absurd hr ·)⟩, hr⟩
  obtain ⟨target, htarget, h⟩ := Except.of_bind h
  obtain ⟨size, hsize, h⟩ := Except.of_bind h
  obtain ⟨rfl, -⟩ := field_of_eq (k := 24) htarget
  obtain ⟨rfl, -⟩ := field_of_eq (k := 32) hsize
  rw [him, UInt64.ofNat_toNat] at h
  split_ifs at h with hm
  · obtain rfl := Except.ok.inj h
    have hr : Rejects file i := ⟨hseg, .inr hm⟩
    exact ⟨fun _ => ⟨hfields, (absurd hr ·), (absurd hr ·)⟩, hr⟩
  obtain ⟨b, hb, h⟩ := Except.of_bind h
  obtain ⟨u, hu, h⟩ := Except.of_bind h
  obtain rfl := Except.ok.inj h
  exact ⟨fun _ => ⟨hfields, fun _ => named_of_printSegname hu, fun _ => fits_of_loadBytes hz him hb⟩,
    (loadBytes_size hb).trans him, fun hr => hr.right.elim hf hm⟩

lemma main_of_findMain (h : findMain file () (position file i) (command file i).cmd = .ok r) :
    ((command file i).cmd = lcMain → position file i + 24 ≤ file.size) ∧
      Sum.elim (fun _ => True ∧ (command file i).cmd ≠ lcMain) (fun _ => (command file i).cmd = lcMain) r := by
  unfold findMain at h
  split_ifs at h with hc
  · obtain ⟨entry, -, h⟩ := Except.of_bind h
    obtain ⟨size, hsize, h⟩ := Except.of_bind h
    obtain rfl := Except.ok.inj h
    exact ⟨fun _ => (field_of_eq (k := 16) hsize).right, hc⟩
  · obtain rfl := Except.ok.inj h
    exact ⟨fun h => absurd h hc, trivial, hc⟩

lemma sound_of_loadImage {env : Environment} {blocks : List Block} (hz : file.size < 2 ^ 64)
    (h : loadImage env blocks file = .ok o) (h0 : total file ≠ 0) (hp : env.processMemory = true) : Sound file := by
  obtain ⟨size, hsize, h⟩ := Except.of_bind h
  have hr := readable_of_eq hsize
  obtain ⟨n, hn, -⟩ := Except.of_bind hsize
  have hn : ncmds file = .ok (Bytes.u32 file.data 16) := Buffer.load_eq (Buffer.le_of_load_eq hn)
  obtain ⟨_, he, rfl⟩ := hr.calculateProcessMemorySize_yields hn
  obtain rfl := Except.ok.inj (he.symm.trans hsize)
  rw [if_neg h0] at h
  obtain ⟨memory, hm, h⟩ := Except.of_bind h
  have halloc := allocatable_of_ok hp h0 hm
  obtain ⟨image, hi, him⟩ := allocateImage_some halloc hp h0
  obtain rfl := Except.ok.inj (hi.symm.trans hm)
  dsimp only at h
  rw [hn] at h
  obtain ⟨r, hw, h⟩ := Except.of_bind (show walk file (loadSegment file) (count file) (position file 0) image >>= _ = _ from h)
  obtain ⟨hall, hend⟩ := walk_visits (P := fun _ image => image.size = (total file).toNat) (S := Rejects file)
    (G := fun i => IsSegment file i → Placed file i) hw him
    fun i image r hi him h => placed_of_loadSegment hz (hi.trans_eq (Nat.zero_add _)) him h
  have hplaced {i} (hi : IsSegment file i) (ha : ∀ j < i, ¬Rejects file j) : Placed file i :=
    (hall i (Nat.zero_le i) (hi.left.trans_eq (Nat.zero_add _).symm) fun j _ => ha j).left hi
  have hloads {i} (hi : Loads file i) : Placed file i := hplaced hi.segment fun j hj => hi.accepts j hj.le
  constructor
  case alloc => exact halloc
  case fields => exact fun hi ha => (hplaced hi ha).fields
  case name => exact fun hi => (hloads hi).name (hi.accepts _ le_rfl)
  case bytes => exact fun hi => (hloads hi).bytes (hi.accepts _ le_rfl)
  case main =>
    intro i ha hi hc hfirst
    obtain ⟨image', rfl, -⟩ := hend fun j _ hj => ha j (hj.trans_eq (Nat.zero_add _))
    obtain ⟨r, hw, -⟩ := Except.of_bind
      (show walk file (findMain file) (count file) (position file 0) () >>= _ = _ from h)
    exact ((walk_visits (P := fun _ _ => True) (S := fun i => (command file i).cmd = lcMain)
      (G := fun i => (command file i).cmd = lcMain → position file i + 24 ≤ file.size) hw trivial
      fun i _ r _ _ h => main_of_findMain h).left i (Nat.zero_le i) (hi.trans_eq (Nat.zero_add _).symm)
      fun j _ => hfirst j).left hc

namespace Safe

variable {processMemory : Bool} (hs : Safe file processMemory)
include hs

lemma validateMachoHeader_yields :
    (validateMachoHeader file).Yields fun valid => valid = true → Valid file := by
  unfold validateMachoHeader
  refine .bind (Buffer.load_yields hs.magic) fun _ he => ?_
  obtain rfl := he
  refine .ite (fun _ => .ok fun h => by cases h) fun hm => ?_
  have hle := hs.header (not_not.mp hm)
  refine .bind (Buffer.load_yields (by omega)) fun _ he => ?_
  obtain rfl := he
  refine .ite (fun _ => .ok fun h => by cases h) fun hsize => ?_
  refine .bind (Buffer.load_yields (by omega)) fun _ he => ?_
  obtain rfl := he
  refine .ite (fun _ => .ok fun h => by cases h) fun hcount => ?_
  refine .bind (Buffer.load_yields (by omega)) fun _ he => ?_
  obtain rfl := he
  exact .ok fun h => ⟨not_not.mp hm, hsize, hcount, not_lt.mp (of_decide_eq_true h)⟩

lemma ncmds_eq (hv : Valid file) : ncmds file = .ok (Bytes.u32 file.data 16) :=
  Buffer.load_eq (by have := hs.header hv.magic; omega)

end Safe

lemma Safe.loadImage_ok {env : Environment} {blocks : List Block} (hs : Safe file env.processMemory) (hz : file.size < 2 ^ 64) (hv : Valid file) :
    (loadImage env blocks file).Yields fun _ => True := by
  have hr := hs.readable hv
  unfold loadImage
  refine .bind (hr.calculateProcessMemorySize_yields (hs.ncmds_eq hv)) fun _ he => ?_
  obtain rfl := he
  refine .ite (fun _ => .ok trivial) fun hne => ?_
  by_cases hp : env.processMemory = true
  case neg =>
    rw [show allocateImage env (total file) = .ok none from if_pos (.inr (by simpa using hp))]
    exact .ok trivial
  case pos =>
    have ht := hs.sound hv hne hp
    obtain ⟨image, ha, him⟩ := allocateImage_some ht.alloc hp hne
    rw [ha, hs.ncmds_eq hv]
    show (walk file (loadSegment file) (count file) machHeaderSize image >>= _).Yields _
    refine .bind (hr.walk_yields (k := 0) (Nat.zero_add _)
      (P := fun i image => image.size = (total file).toNat ∧ ∀ j < i, ¬Rejects file j) (Q := fun _ => True)
      ⟨him, fun j hj => absurd hj (Nat.not_lt_zero j)⟩
      fun i hi image h => ht.loadSegment_yields hz hi h.right h.left) fun r h => ?_
    cases r
    case inr _ => exact .ok trivial
    case inl image =>
      refine .bind (hr.walk_yields (k := 0) (Nat.zero_add _)
        (P := fun i _ => ∀ j < i, (command file j).cmd ≠ lcMain) (Q := fun _ => True)
        (fun j hj => absurd hj (Nat.not_lt_zero j))
        fun i hi _ hm => ht.findMain_yields h.right hi hm) fun _ _ => ?_
      refine .ite (fun _ => .ok trivial) fun _ => ?_
      refine .bind (hr.walk_yields (k := 0) (Nat.zero_add _) (P := fun _ _ => True) (Q := fun _ => True) trivial
        fun i hi _ _ => ht.findEntry_yields h.right hi) fun _ _ => ?_
      exact .ite (fun _ => .ok trivial) fun _ => .ok trivial

lemma safe_of_eq {env : Environment} (hz : file.size < 2 ^ 64)
    (h : (do if ← validateMachoHeader file then loadImage env blocks file
             else return Outcome.failure []) = .ok o) : Safe file env.processMemory := by
  obtain ⟨valid, hvalid, h⟩ := Except.of_bind h
  obtain ⟨m, hm, hread⟩ := Except.of_bind hvalid
  have hmagic : 4 ≤ file.size := Buffer.le_of_load_eq hm
  obtain rfl := Except.ok.inj ((Buffer.load_eq hmagic).symm.trans hm)
  have hheader (hm : Bytes.u32 file.data 0 = mhMagic64) : 24 ≤ file.size := by
    rw [if_neg (not_not.mpr hm)] at hread
    obtain ⟨size, hsize, -⟩ := Except.of_bind hread
    exact Buffer.le_of_load_eq hsize
  have himage (hv : Valid file) : loadImage env blocks file = .ok o := by
    have hle := hheader hv.magic
    have ht : validateMachoHeader file = .ok true := by
      rw [validateMachoHeader, magic, sizeofcmds, ncmds, Buffer.load32, Buffer.load_eq (by omega),
        Buffer.load_eq (by omega), Buffer.load_eq (by omega)]
      simp only [Except.ok_bind, hv.magic, hv.size, hv.count, not_lt.mpr hv.le]
      rfl
    rwa [Except.ok.inj (hvalid.symm.trans ht)] at h
  refine ⟨hmagic, hheader, fun hv => ?_, fun hv h0 hp => sound_of_loadImage hz (himage hv) h0 hp⟩
  obtain ⟨size, hsize, -⟩ := Except.of_bind (himage hv)
  exact readable_of_eq hsize

-- The loader has the file.
structure Fetched (env : Environment) (filename : Option CString) : Prop where
  named   : filename.isSome
  nonzero : env.fileSize ≠ 0
  le      : env.fileSize.toNat ≤ maxMachoFileSize
  memory  : env.fileMemory = true
  read    : env.bytesRead = env.fileSize.toNat

lemma createProcessFromMacho_cases (env : Environment) (filename : Option CString)
    (options : Option MachoLoadOptions) :
    (¬Fetched env filename ∧ createProcessFromMacho env filename options = .ok (.failure [])) ∨
      Fetched env filename ∧ createProcessFromMacho env filename options =
        do if ← validateMachoHeader env.file then loadImage env [.file] env.file else return .failure [] := by
  unfold createProcessFromMacho
  by_cases hf : Fetched env filename
  case pos =>
    have hread : ¬(env.bytesRead ≤ 0 ∨ env.bytesRead ≠ env.fileSize.toNat) := by
      have hpos : env.fileSize.toNat ≠ 0 := fun h => hf.nonzero (UInt64.toNat_inj.mp h)
      have := hf.read
      omega
    refine .inr ⟨hf, ?_⟩
    rw [if_neg (by simpa [Option.isSome_iff_ne_none] using hf.named),
      if_neg (not_or.mpr ⟨hf.nonzero, not_lt.mpr hf.le⟩), if_neg (by simp [hf.memory]), if_neg hread]
    rfl
  case neg =>
    refine .inl ⟨hf, ?_⟩
    dsimp only
    split_ifs with h1 h2 h3 h4
    · rfl
    · rfl
    · rfl
    · rfl
    · obtain ⟨hne, hle⟩ := not_or.mp h2
      exact absurd ⟨by simpa [Option.isSome_iff_ne_none] using h1, hne, not_lt.mp hle, by simpa using h3,
        not_not.mp (not_or.mp h4).right⟩ hf

-- The loader reads only in the file and writes only in the image, if and only if a file that it has is in order.
theorem createProcessFromMacho_safe (env : Environment) (filename : Option CString)
    (options : Option MachoLoadOptions) :
    (∃ o, createProcessFromMacho env filename options = .ok o) ↔
      (Fetched env filename → Safe env.file env.processMemory) := by
  rcases createProcessFromMacho_cases env filename options with ⟨hn, he⟩ | ⟨hf, he⟩
  · rw [he]
    exact ⟨fun _ h => absurd h hn, fun _ => ⟨_, rfl⟩⟩
  rw [he]
  refine ⟨fun ⟨o, h⟩ _ => safe_of_eq env.fileSize.toNat_lt h, fun h => ?_⟩
  have hs := h hf
  refine Except.Yields.exists_eq (P := fun _ => True) (.bind hs.validateMachoHeader_yields fun _ hv => ?_)
  exact .ite (fun h => hs.loadImage_ok env.fileSize.toNat_lt (hv h)) fun _ => .ok trivial

-- A file with a segment and the command for the entry point.
def sample (ncmds vmaddr vmsize filesize : UInt8) : List UInt8 :=
  [0xCF, 0xFA, 0xED, 0xFE] ++ List.replicate 12 0 ++ [ncmds, 0, 0, 0, 96, 0, 0, 0] ++ List.replicate 8 0 ++
    [0x19, 0, 0, 0, 72, 0, 0, 0] ++ List.replicate 16 0 ++ [vmaddr, 0, 0, 0, 0, 0, 0, 0] ++
    [vmsize, 0, 0, 0, 0, 0, 0, 0] ++ List.replicate 8 0 ++ [filesize, 0, 0, 0, 0, 0, 0, 0] ++ List.replicate 16 0 ++
    [0x28, 0, 0, 0x80, 24, 0, 0, 0] ++ [64, 0, 0, 0, 0, 0, 0, 0] ++ List.replicate 8 0

-- The file is too small for a header; there are more commands than the file has; or a segment has more bytes in
-- the file than in memory.
theorem createProcessFromMacho_unsafe :
    createProcessFromMacho (sampleEnvironment 1 [0xCF]) (some []) none = .error .file ∧
      createProcessFromMacho (sampleEnvironment 128 (sample 3 0 200 128)) (some []) none = .error .file ∧
      createProcessFromMacho (sampleEnvironment 128 (sample 2 0 1 128)) (some []) none = .error .image :=
  ⟨rfl, rfl, rfl⟩

end Macho
