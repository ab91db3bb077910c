import VoidFrame.Fs.Ext2.Volume

-- What the numbers in the superblock have to meet so that inodes and bitmaps are accessed within their
-- buffers, and blocks by their own sectors.

namespace Ext2

-- What mounting makes sure of.
structure Mounted (v : Volume) : Prop where
  blockSize : ∃ k ≤ 10, v.blockSize.toNat = 2 ^ (10 + k)
  groups : v.numGroups.toNat ≠ 0
  oneBlock : v.blockSize.toNat ≤ v.groupDescs.size
  table : v.groupDescs.size % 32 = 0
  readable : (v.ext2ReadBlock v.bgdtBlock).isSome

section

lemma blockSize_toNat {k : UInt32} (h : k ≤ 10) : (1024 <<< k : UInt32).toNat = 2 ^ (10 + k.toNat) := by
  have hk : k.toNat ≤ 10 := UInt32.le_iff_toNat_le.mp h
  rw [UInt32.toNat_shiftLeft, Nat.mod_eq_of_lt (show k.toNat < 32 by omega), Nat.shiftLeft_eq,
    show (1024 : UInt32).toNat = 2 ^ 10 from rfl, ← pow_add]
  exact Nat.mod_eq_of_lt (Nat.pow_lt_pow_right (by decide) (by omega))

variable {v v' : Volume} {disk : Disk} {device : Nat → Bool}

lemma Volume.descsSize_toNat (hb : 0 < v.blockSize.toNat) :
    (v.bgdtBlocks * v.blockSize).toNat
      = (32 * v.numGroups.toNat + v.blockSize.toNat - 1) % 2 ^ 32 / v.blockSize.toNat * v.blockSize.toNat := by
  have hx : (v.numGroups * groupDescSize + v.blockSize - 1).toNat
      = (32 * v.numGroups.toNat + v.blockSize.toNat - 1) % 2 ^ 32 := by
    rw [UInt32.toNat_sub, UInt32.toNat_add, UInt32.toNat_mul, show groupDescSize.toNat = 32 from rfl,
      show (1 : UInt32).toNat = 1 from rfl]
    omega
  rw [UInt32.toNat_mul, bgdtBlocks, UInt32.toNat_div, hx, Nat.mod_eq_of_lt]
  exact (Nat.div_mul_le_self _ _).trans_lt (Nat.mod_lt _ (by decide))

lemma mounted_of_readDescs (hb : ∃ k ≤ 10, v.blockSize.toNat = 2 ^ (10 + k)) (h : v.readDescs = some v') :
    Mounted v' := by
  obtain ⟨k, hk, hsize⟩ := hb
  have hp : 1024 ≤ v.blockSize.toNat ∧ v.blockSize.toNat % 32 = 0 := by
    rw [hsize, pow_add]
    have := Nat.one_le_two_pow (n := k)
    omega
  unfold Volume.readDescs at h
  split_ifs at h with h0 hr
  obtain rfl := Option.some.inj h
  have hs := v.descsSize_toNat (by omega)
  have hne : (v.bgdtBlocks * v.blockSize).toNat ≠ 0 := fun he => h0 (UInt32.toNat_inj.mp he)
  -- The buffer has a block at least, so the size in bytes was rounded up without a carry.
  have hle : v.blockSize.toNat ≤ (32 * v.numGroups.toNat + v.blockSize.toNat - 1) % 2 ^ 32 := by
    by_contra hlt
    exact hne (by rw [hs, Nat.div_eq_of_lt (not_le.mp hlt), Nat.zero_mul])
  refine ⟨⟨k, hk, hsize⟩, fun hz => ?_, ?_, ?_, ?_⟩
  · replace hz : v.numGroups.toNat = 0 := hz
    rw [hz] at hle
    omega
  · show v.blockSize.toNat ≤ (v.bgdtBlocks * v.blockSize).toNat
    rw [hs]
    exact Nat.le_mul_of_pos_left _ (Nat.div_pos hle (by omega))
  · show (v.bgdtBlocks * v.blockSize).toNat % 32 = 0
    rw [hs]
    exact Nat.mod_eq_zero_of_dvd (Dvd.dvd.mul_left (Nat.dvd_of_mod_eq_zero hp.2) _)
  · have hpos : 0 < v.bgdtBlocks.toNat := Nat.pos_of_ne_zero fun hz => hne (by
      rw [UInt32.toNat_mul, hz, Nat.zero_mul, Nat.zero_mod])
    have hfirst : (v.ext2ReadBlock v.bgdtBlock).isSome := by
      simpa using List.all_eq_true.mp hr 0 (List.mem_range.mpr hpos)
    unfold Volume.ext2ReadBlock at hfirst ⊢
    split_ifs at hfirst with h1 h2
    · cases hfirst
    · cases hfirst
    · exact congrArg Option.isSome ((if_neg h1).trans (if_neg h2))

lemma mounted_of_ext2Mount (h : ext2Mount disk device = some v) : Mounted v := by
  unfold ext2Mount at h
  dsimp only at h
  split_ifs at h with h1 h2 h3 h4
  exact mounted_of_readDescs ⟨_, UInt32.le_iff_toNat_le.mp (UInt32.not_lt.mp h3), blockSize_toNat (UInt32.not_lt.mp h3)⟩
    h

end

namespace Volume

section

variable (v : Volume)

-- An inode with this number has a descriptor in the table, and does not reach over the end of its block.
def InodeFits (n : UInt32) : Prop :=
  n = 0 ∨ v.inodesPerGroup ≠ 0 ∧ ((n - 1) / v.inodesPerGroup < v.numGroups →
    32 * ((n - 1) / v.inodesPerGroup).toNat + 32 ≤ v.groupDescs.size ∧
    ((n - 1) % v.inodesPerGroup * v.inodeSize % v.blockSize).toNat + Inode.sizeOf ≤ v.blockSize.toNat)

-- There is a bit for something that is counted from the first one of the volume.
def BitFits (k : Kind) (index : UInt32) : Prop :=
  k.bits ≠ 0 ∧ index / k.bits < v.numGroups ∧ 32 * (index / k.bits).toNat + 32 ≤ v.groupDescs.size ∧
    (index % k.bits).toNat < 8 * v.blockSize.toNat

-- The table has the descriptors of all groups, and a block is enough for a bitmap.
def BitmapFits (k : Kind) : Prop :=
  32 * v.numGroups.toNat ≤ v.groupDescs.size ∧ k.bits.toNat ≤ 8 * v.blockSize.toNat

instance {n : UInt32} : Decidable (v.InodeFits n) :=
  inferInstanceAs (Decidable (_ ∨ _))

instance {k : Kind} {index : UInt32} : Decidable (v.BitFits k index) :=
  inferInstanceAs (Decidable (_ ∧ _))

def sectors (block : UInt32) : Set Nat :=
  Set.Ico (block.toNat * (v.blockSize.toNat / 512)) ((block.toNat + 1) * (v.blockSize.toNat / 512))

end

variable {v v' : Volume} {n : UInt32} {k : Kind} {group : Nat}

section

variable {block : UInt32} {b : Buffer} {data : Nat → UInt8}

lemma ext2ReadBlock_eq_some (h : v.ext2ReadBlock block = some b) :
    b = ⟨v.blockSize.toNat, v.disk.read (v.firstSector block).toNat⟩ := by
  unfold ext2ReadBlock at h
  split_ifs at h
  exact (Option.some.inj h).symm

lemma ext2WriteBlock_eq_some (h : v.ext2WriteBlock block data = some v') :
    v' = { v with disk := v.disk.write (v.firstSector block).toNat v.numSectors.toNat data } := by
  unfold ext2WriteBlock at h
  split_ifs at h
  exact (Option.some.inj h).symm

lemma numSectors_toNat : v.numSectors.toNat = v.blockSize.toNat / 512 := by
  rw [numSectors, UInt32.toNat_div]
  rfl

lemma firstSector_toNat (h : block.toNat * (v.blockSize.toNat / 512) < 2 ^ 32) :
    (v.firstSector block).toNat = block.toNat * (v.blockSize.toNat / 512) := by
  rw [firstSector, UInt32.toNat_mul, numSectors_toNat, Nat.mod_eq_of_lt h]

lemma mem_sectors_iff (h : block.toNat * (v.blockSize.toNat / 512) < 2 ^ 32) :
    s ∈ v.sectors block ↔
      (v.firstSector block).toNat ≤ s ∧ s < (v.firstSector block).toNat + v.numSectors.toNat := by
  rw [firstSector_toNat h, numSectors_toNat, sectors, Set.mem_Ico, Nat.add_mul, Nat.one_mul]

end

lemma desc_yields {α : Type} {width field : Nat} {f : (Nat → UInt8) → Nat → α}
    (hs : 32 * group + 32 ≤ v.groupDescs.size) (hg : group < v.numGroups.toNat) (hf : field + width ≤ 32) :
    (v.desc width f group field).Yields (· = f v.groupDescs.data (32 * group + field)) := by
  unfold desc
  rw [if_pos hg]
  exact Buffer.load_yields (by omega)

lemma locateInode_yields (hn : v.InodeFits n) :
    (v.locateInode n).Yields fun r => ∀ p, r = some p → p.2.toNat + Inode.sizeOf ≤ v.blockSize.toNat := by
  unfold locateInode
  refine .ite (fun _ => .ok (by simp)) fun h0 => ?_
  obtain ⟨hi, hf⟩ := hn.resolve_left h0
  rw [if_neg hi]
  refine .ite (fun _ => .ok (by simp)) fun hg => ?_
  have hg : (n - 1) / v.inodesPerGroup < v.numGroups := UInt32.not_le.mp hg
  refine .bind (desc_yields (hf hg).1 (UInt32.lt_iff_toNat_lt.mp hg) (by decide)) fun table _ => .ok ?_
  rintro p ⟨⟩
  exact (hf hg).2

lemma ext2ReadInode_yields (hn : v.InodeFits n) :
    (v.ext2ReadInode n).Yields fun _ => True := by
  unfold ext2ReadInode
  refine .bind (locateInode_yields hn) fun r hr => ?_
  rcases r with _ | ⟨block, offset⟩
  case none => exact .ok trivial
  case some =>
    dsimp only
    split
    case h_1 => exact .ok trivial
    case h_2 b hb =>
      rw [if_pos (.inr (by rw [ext2ReadBlock_eq_some hb]; exact hr _ rfl))]
      exact .ok trivial

lemma ext2WriteInode_yields (hn : v.InodeFits n) : (v.ext2WriteInode n inode).Yields fun _ => True := by
  unfold ext2WriteInode
  refine .bind (locateInode_yields hn) fun r hr => ?_
  rcases r with _ | ⟨block, offset⟩
  case none => exact .ok trivial
  case some =>
    dsimp only
    split
    case h_1 => exact .ok trivial
    case h_2 b hb =>
      rw [if_pos (.inr (by rw [ext2ReadBlock_eq_some hb]; exact hr _ rfl))]
      exact .ok trivial

section

variable {b : Buffer} {bit : Nat}

lemma ext2FindFreeBit_yields {count i : Nat} (h : i + count ≤ 8 * b.size) :
    (ext2FindFreeBit b count i).Yields fun r => ∀ bit, r = some bit → bit < 8 * b.size := by
  induction count generalizing i
  case zero => exact .ok (by simp)
  case succ count ih =>
    refine .bind (Buffer.load_yields (by omega)) fun byte _ => ?_
    refine .ite (fun _ => ih (by omega)) fun _ => .ok ?_
    rintro bit ⟨⟩
    omega

lemma ext2SetBit_yields (h : bit < 8 * b.size) : (ext2SetBit b bit).Yields fun b' => b'.size = b.size :=
  .bind (Buffer.load_yields (by omega)) fun _ _ => Buffer.store8_yields (by omega)

lemma ext2ClearBit_yields (h : bit < 8 * b.size) : (ext2ClearBit b bit).Yields fun b' => b'.size = b.size :=
  .bind (Buffer.load_yields (by omega)) fun _ _ => Buffer.store8_yields (by omega)

-- The fields of the descriptor that belong to bitmaps of this kind are in it.
structure Kind.InDesc (k : Kind) : Prop where
  bitmap : k.bitmap + 4 ≤ 32
  count : k.count + 2 ≤ 32

lemma inDesc_blocks : v.blocks.InDesc :=
  ⟨by simp [blocks], by simp [blocks]⟩

lemma inDesc_inodes : v.inodes.InDesc :=
  ⟨by simp [inodes], by simp [inodes]⟩

lemma addFree_yields {change : UInt16} (hs : 32 * group + 32 ≤ v.groupDescs.size)
    (hg : group < v.numGroups.toNat) (hk : k.InDesc) :
    (v.addFree k group change).Yields fun v' =>
      v'.groupDescs.size = v.groupDescs.size ∧ v'.blockSize = v.blockSize :=
  .bind (desc_yields hs hg hk.count) fun _ _ => .ok ⟨rfl, rfl⟩

lemma writeDescs_yields (h : v.blockSize.toNat ≤ v.groupDescs.size) : v.writeDescs.Yields fun _ => True := by
  unfold writeDescs
  rw [if_neg (not_lt.mpr h)]
  exact .ok trivial

lemma allocate_yields {l : List Nat} (hs : 32 * v.numGroups.toNat ≤ v.groupDescs.size)
    (hb : v.blockSize.toNat ≤ v.groupDescs.size) (hk : k.InDesc) (hn : k.bits.toNat ≤ 8 * v.blockSize.toNat)
    (hl : ∀ group ∈ l, group < v.numGroups.toNat) : (v.allocate k l).Yields fun _ => True := by
  induction l
  case nil => exact .ok trivial
  case cons group l ih =>
    have ih := ih fun g h => hl g (List.mem_cons_of_mem _ h)
    have hg := hl group List.mem_cons_self
    unfold allocate
    have hs' : 32 * group + 32 ≤ v.groupDescs.size := by omega
    refine .bind (desc_yields hs' hg hk.bitmap) fun bitmapBlock _ => ?_
    split
    case h_1 => exact ih
    case h_2 b hr =>
      have hz : b.size = v.blockSize.toNat := by rw [ext2ReadBlock_eq_some hr]
      refine .bind (ext2FindFreeBit_yields (by omega)) fun r hr => ?_
      rcases r with _ | bit
      · exact ih
      refine .bind (ext2SetBit_yields (hr bit rfl)) fun b' _ => ?_
      split
      case h_1 => exact ih
      case h_2 v' hw =>
        obtain rfl := ext2WriteBlock_eq_some hw
        refine .bind (addFree_yields hs' hg hk) fun v' hv => ?_
        exact .bind (writeDescs_yields (by rw [hv.1, hv.2]; exact hb)) fun _ _ => .ok trivial

lemma release_yields (hs : 32 * group + 32 ≤ v.groupDescs.size) (hk : k.InDesc)
    (hg : group < v.numGroups.toNat) (hb : bit < 8 * v.blockSize.toNat) :
    (v.release k group bit).Yields fun _ => True := by
  unfold release
  refine .bind (desc_yields hs hg hk.bitmap) fun bitmapBlock _ => ?_
  split
  case h_1 => exact .ok trivial
  case h_2 b hr =>
    have hz : b.size = v.blockSize.toNat := by rw [ext2ReadBlock_eq_some hr]
    refine .bind (ext2ClearBit_yields (by omega)) fun b' _ => ?_
    split
    case h_1 => exact .ok trivial
    case h_2 v' hw =>
      obtain rfl := ext2WriteBlock_eq_some hw
      exact .bind (addFree_yields hs hg hk) fun _ _ => .ok trivial

lemma ext2AllocateInode_yields (hb : v.blockSize.toNat ≤ v.groupDescs.size) (h : v.BitmapFits v.inodes) :
    v.ext2AllocateInode.Yields fun _ => True := by
  unfold ext2AllocateInode
  refine .bind (allocate_yields h.1 hb inDesc_inodes h.2 fun _ => List.mem_range.mp) fun r _ => ?_
  rcases r with ⟨_ | ⟨group, bit⟩, v'⟩ <;> exact .ok trivial

lemma ext2AllocateBlock_yields (hb : v.blockSize.toNat ≤ v.groupDescs.size) (h : v.BitmapFits v.blocks) :
    v.ext2AllocateBlock.Yields fun _ => True := by
  unfold ext2AllocateBlock
  refine .bind (allocate_yields h.1 hb inDesc_blocks h.2 fun _ => List.mem_range.mp) fun r _ => ?_
  rcases r with ⟨_ | ⟨group, bit⟩, v'⟩ <;> exact .ok trivial

lemma ext2FreeBlock_yields (h : n = 0 ∨ v.BitFits v.blocks (n - v.firstDataBlock)) :
    (v.ext2FreeBlock n).Yields fun _ => True := by
  unfold ext2FreeBlock
  refine .ite (fun _ => .ok trivial) fun h0 => ?_
  obtain ⟨hk, hg, hs, hb⟩ := h.resolve_left h0
  rw [if_neg (show ¬v.blocksPerGroup = 0 from hk)]
  exact .bind (release_yields hs inDesc_blocks (UInt32.lt_iff_toNat_lt.mp hg) hb) fun _ _ => .ok trivial

lemma ext2FreeInode_yields (h : n < 2 ∨ v.BitFits v.inodes (n - 1)) :
    (v.ext2FreeInode n).Yields fun _ => True := by
  unfold ext2FreeInode
  refine .ite (fun _ => .ok trivial) fun h0 => ?_
  obtain ⟨hk, hg, hs, hb⟩ := h.resolve_left h0
  rw [if_neg (show ¬v.inodesPerGroup = 0 from hk)]
  exact .bind (release_yields hs inDesc_inodes (UInt32.lt_iff_toNat_lt.mp hg) hb) fun _ _ => .ok trivial

end

-- The volume with other bytes on the disk and in its descriptors.
def later (v : Volume) (disk : Disk) (descs : Nat → UInt8) : Volume :=
  { v with disk, groupDescs := { v.groupDescs with data := descs } }

-- All bits are taken, and the descriptors name one block only.
def full (v : Volume) (block : UInt32) : Volume :=
  v.later (fun _ _ => 255) (Bytes.repeat32 block)

section

variable {block : UInt32} {field : Nat}

lemma desc32_full (ht : v.groupDescs.size % 32 = 0) (hf : field % 4 = 0) (hf' : field < 32)
    (h : (v.full block).desc32 group field = .ok w) :
    w = block ∧ group < v.numGroups.toNat ∧ 32 * group + 32 ≤ v.groupDescs.size := by
  unfold desc32 desc at h
  split_ifs at h with hg
  have hle : 32 * group + field + 4 ≤ (v.full block).groupDescs.size := Buffer.le_of_load_eq h
  have hsize : (v.full block).groupDescs.size = v.groupDescs.size := rfl
  refine ⟨?_, hg, by omega⟩
  exact (Except.ok.inj ((Buffer.load_eq hle).symm.trans h)).symm.trans (Bytes.u32_repeat32 block (by omega))

lemma ext2ReadBlock_full (h : (v.ext2ReadBlock v.bgdtBlock).isSome) :
    (v.full block).ext2ReadBlock v.bgdtBlock = some ⟨v.blockSize.toNat, fun _ => 255⟩ := by
  unfold ext2ReadBlock at h
  split_ifs at h with h1 h2
  · cases h
  · cases h
  · exact (if_neg h1).trans (if_neg h2)

lemma locateInode_full (hv : Mounted v) (h0 : n ≠ 0) (hi : v.inodesPerGroup ≠ 0)
    (hg : (n - 1) / v.inodesPerGroup < v.numGroups)
    (h : (v.full (v.bgdtBlock - (n - 1) % v.inodesPerGroup * v.inodeSize / v.blockSize)).locateInode n = .ok r) :
    32 * ((n - 1) / v.inodesPerGroup).toNat + 32 ≤ v.groupDescs.size ∧
      r = some (v.bgdtBlock, (n - 1) % v.inodesPerGroup * v.inodeSize % v.blockSize) := by
  unfold locateInode at h
  rw [if_neg h0] at h
  change (if v.inodesPerGroup = 0 then _ else if v.numGroups ≤ (n - 1) / v.inodesPerGroup then _ else _) = _ at h
  rw [if_neg hi, if_neg (UInt32.not_le.mpr hg)] at h
  obtain ⟨table, ht, h⟩ := Except.of_bind h
  obtain ⟨rfl, -, hs⟩ := desc32_full hv.table (by decide) (by decide) ht
  exact ⟨hs, (Except.ok.inj h).symm.trans (congrArg (fun block => some (block, _)) (UInt32.sub_add_cancel ..))⟩

lemma inodesPerGroup_of_ok (h0 : n ≠ 0) (h : v.locateInode n = .ok r) : v.inodesPerGroup ≠ 0 := by
  intro hi
  unfold locateInode at h
  rw [if_neg h0, if_pos hi] at h
  cases h

-- What both routines for inodes do.
lemma inodeFits_of_ok (hv : Mounted v) (h : ∀ block, ∃ r, (v.full block).locateInode n = .ok r ∧
      ∀ offset, r = some (v.bgdtBlock, offset) → offset.toNat + Inode.sizeOf ≤ v.blockSize.toNat) :
    v.InodeFits n := by
  by_cases h0 : n = 0
  case pos => exact .inl h0
  obtain ⟨_, hr, -⟩ := h 0
  have hi : (v.full 0).inodesPerGroup ≠ 0 := inodesPerGroup_of_ok h0 hr
  refine .inr ⟨hi, fun hg => ?_⟩
  obtain ⟨r, hr, hoff⟩ := h (v.bgdtBlock - (n - 1) % v.inodesPerGroup * v.inodeSize / v.blockSize)
  obtain ⟨hs, he⟩ := locateInode_full hv h0 hi hg hr
  exact ⟨hs, hoff _ he⟩

lemma inodeFits_of_ext2ReadInode (hv : Mounted v) (h : ∀ d c, ∃ r, (v.later d c).ext2ReadInode n = .ok r) :
    v.InodeFits n := by
  refine inodeFits_of_ok hv fun block => ?_
  obtain ⟨_, h⟩ : ∃ r, (v.full block).ext2ReadInode n = .ok r := h (fun _ _ => 255) (Bytes.repeat32 block)
  obtain ⟨r, hr, h⟩ := Except.of_bind h
  refine ⟨r, hr, fun offset he => ?_⟩
  subst he
  dsimp only at h
  rw [ext2ReadBlock_full hv.readable] at h
  dsimp only at h
  split_ifs at h with hw
  exact hw.resolve_left (by decide)

lemma inodeFits_of_ext2WriteInode {inode : Inode} (hv : Mounted v)
    (h : ∀ d c, ∃ r, (v.later d c).ext2WriteInode n inode = .ok r) : v.InodeFits n := by
  refine inodeFits_of_ok hv fun block => ?_
  obtain ⟨_, h⟩ : ∃ r, (v.full block).ext2WriteInode n inode = .ok r := h (fun _ _ => 255) (Bytes.repeat32 block)
  obtain ⟨r, hr, h⟩ := Except.of_bind h
  refine ⟨r, hr, fun offset he => ?_⟩
  subst he
  dsimp only at h
  rw [ext2ReadBlock_full hv.readable] at h
  dsimp only at h
  split_ifs at h with hw
  exact hw.resolve_left (by decide)

lemma ext2FindFreeBit_full {count i : Nat} (h : ext2FindFreeBit ⟨size, fun _ => 255⟩ count i = .ok r) :
    r = none ∧ (count ≠ 0 → i + count ≤ 8 * size) := by
  induction count generalizing i
  case zero => exact ⟨(Except.ok.inj h).symm, fun h => absurd rfl h⟩
  case succ count ih =>
    obtain ⟨byte, hb, h⟩ := Except.of_bind h
    have hle : i / 8 + 1 ≤ size := Buffer.le_of_load_eq hb
    obtain rfl : 255 = byte := Except.ok.inj ((Buffer.load_eq hle).symm.trans hb)
    have hbit : (255 : UInt8).toNat.testBit (i % 8) = true := by
      rw [show (255 : UInt8).toNat = 2 ^ 8 - 1 from rfl, Nat.testBit_two_pow_sub_one]
      exact decide_eq_true (Nat.mod_lt _ (by decide))
    rw [if_pos hbit] at h
    obtain ⟨hr, hc⟩ := ih h
    refine ⟨hr, fun _ => ?_⟩
    by_cases h0 : count = 0
    · omega
    · have := hc h0
      omega

lemma bitmapFits_of_allocate {l : List Nat} (hv : Mounted v) (hk : k.bitmap % 4 = 0) (hk' : k.bitmap < 32)
    (h : (v.full v.bgdtBlock).allocate k l = .ok r) :
    ∀ group ∈ l, 32 * group + 32 ≤ v.groupDescs.size ∧ k.bits.toNat ≤ 8 * v.blockSize.toNat := by
  induction l
  case nil => exact fun _ h => nomatch h
  case cons group l ih =>
    unfold allocate at h
    obtain ⟨_, hd, h⟩ := Except.of_bind h
    obtain ⟨rfl, -, hs⟩ := desc32_full hv.table hk hk' hd
    rw [ext2ReadBlock_full hv.readable] at h
    obtain ⟨_, hf, h⟩ := Except.of_bind h
    obtain ⟨rfl, hbits⟩ := ext2FindFreeBit_full hf
    intro g hg
    obtain rfl | hg := List.mem_cons.mp hg
    · exact ⟨hs, by omega⟩
    · exact ih h g hg

lemma bitmapFits_of_ok (hv : Mounted v) (hk : k.bitmap % 4 = 0) (hk' : k.bitmap < 32)
    (h : (v.full v.bgdtBlock).allocate k (List.range v.numGroups.toNat) = .ok r) : v.BitmapFits k := by
  have hpos := hv.groups
  obtain ⟨hs, hb⟩ := bitmapFits_of_allocate hv hk hk' h (v.numGroups.toNat - 1) (List.mem_range.mpr (by omega))
  exact ⟨by omega, hb⟩

lemma bitFits_of_release (hv : Mounted v) (hk : k.bitmap % 4 = 0) (hk' : k.bitmap < 32)
    (h : (v.full v.bgdtBlock).release k group bit = .ok r) :
    group < v.numGroups.toNat ∧ 32 * group + 32 ≤ v.groupDescs.size ∧ bit < 8 * v.blockSize.toNat := by
  obtain ⟨_, hd, h⟩ := Except.of_bind h
  obtain ⟨rfl, hg, hs⟩ := desc32_full hv.table hk hk' hd
  rw [ext2ReadBlock_full hv.readable] at h
  obtain ⟨_, hc, -⟩ := Except.of_bind h
  obtain ⟨_, hl, -⟩ := Except.of_bind hc
  have hle : bit / 8 + 1 ≤ v.blockSize.toNat := Buffer.le_of_load_eq hl
  exact ⟨hg, hs, by omega⟩

lemma bitFits_of_ext2FreeBlock (hv : Mounted v) (h : (v.full v.bgdtBlock).ext2FreeBlock n = .ok r) :
    n = 0 ∨ v.BitFits v.blocks (n - v.firstDataBlock) := by
  unfold ext2FreeBlock at h
  split_ifs at h with h0 hk
  · exact .inl h0
  obtain ⟨_, h, -⟩ := Except.of_bind h
  obtain ⟨hg, hs, hb⟩ := bitFits_of_release hv (k := v.blocks) (by simp [blocks]) (by simp [blocks]) h
  exact .inr ⟨hk, UInt32.lt_iff_toNat_lt.mpr hg, hs, hb⟩

lemma bitFits_of_ext2FreeInode (hv : Mounted v) (h : (v.full v.bgdtBlock).ext2FreeInode n = .ok r) :
    n < 2 ∨ v.BitFits v.inodes (n - 1) := by
  unfold ext2FreeInode at h
  split_ifs at h with h0 hk
  · exact .inl h0
  obtain ⟨_, h, -⟩ := Except.of_bind h
  obtain ⟨hg, hs, hb⟩ := bitFits_of_release hv (k := v.inodes) (by simp [inodes]) (by simp [inodes]) h
  exact .inr ⟨hk, UInt32.lt_iff_toNat_lt.mpr hg, hs, hb⟩

end

-- A block is read from its own sectors, and written to them and no others.
def Exact (v : Volume) (b : UInt32) : Prop :=
  (∀ buffer, v.ext2ReadBlock b = some buffer → ∀ i < v.blockSize.toNat,
    buffer.data i = v.disk (b.toNat * (v.blockSize.toNat / 512) + i / 512) (i % 512)) ∧
  ∀ data v', v.ext2WriteBlock b data = some v' →
    (∀ s ∉ v.sectors b, v'.disk s = v.disk s) ∧ ∀ i < v.blockSize.toNat,
      v'.disk (b.toNat * (v.blockSize.toNat / 512) + i / 512) (i % 512) = data i

-- The block cannot be read, or the number of its first sector does not wrap.
def SectorsFit (v : Volume) (b : UInt32) : Prop :=
  v.blocksCount ≤ b ∨ v.device (v.firstSector b).toNat = false ∨ b.toNat * (v.blockSize.toNat / 512) < 2 ^ 32

lemma SectorsFit.exact {b : UInt32} (hv : ∃ k ≤ 10, v.blockSize.toNat = 2 ^ (10 + k)) (h : v.SectorsFit b) :
    v.Exact b := by
  obtain h | h | hb := h
  · refine ⟨fun _ hr => ?_, fun _ _ hw => ?_⟩
    · exact nomatch (if_pos h).symm.trans hr
    · exact nomatch (if_pos h).symm.trans hw
  · refine ⟨fun _ hr => ?_, fun _ _ hw => ?_⟩
    · unfold ext2ReadBlock at hr
      simp [h] at hr
    · unfold ext2WriteBlock at hw
      simp [h] at hw
  refine ⟨fun buffer hr i hi => ?_, fun data v' hw => ?_⟩
  · rw [ext2ReadBlock_eq_some hr, firstSector_toNat hb]
    rfl
  · obtain rfl := ext2WriteBlock_eq_some hw
    refine ⟨fun s hs => ?_, fun i hi => ?_⟩
    · funext j
      exact if_neg fun h => hs ((mem_sectors_iff hb).mpr h)
    · have hi' : i / 512 < v.blockSize.toNat / 512 := by
        obtain ⟨k, -, hk⟩ := hv
        have : 512 ∣ v.blockSize.toNat := hk ▸ Dvd.intro (2 ^ (k + 1)) (by ring)
        omega
      show Disk.write _ _ _ _ _ _ = _
      rw [firstSector_toNat hb, numSectors_toNat, Disk.write, if_pos (by omega), Disk.sectorSize]
      congr 1
      omega

lemma sectorsFit_of_exact {b : UInt32} (hb : v.blockSize.toNat ≠ 0)
    (h : ∀ d c, (v.later d c).Exact b) : v.SectorsFit b := by
  by_contra hn
  obtain ⟨hc, hn⟩ := not_or.mp hn
  obtain ⟨hd, hs⟩ := not_or.mp hn
  -- the sector that is read tells itself from the one that is meant
  have hread : (v.later (fun s _ => if s = (v.firstSector b).toNat then 1 else 0) v.groupDescs.data).ext2ReadBlock b
      = some _ := (if_neg hc).trans (if_neg (show ¬(!v.device (v.firstSector b).toNat) = true by simpa using hd))
  have h0 := (h _ _).1 _ hread 0 (Nat.pos_of_ne_zero hb)
  have hlt := (v.firstSector b).toNat_lt
  have hone : (if (v.firstSector b).toNat = (v.firstSector b).toNat then (1 : UInt8) else 0) =
      if b.toNat * (v.blockSize.toNat / 512) = (v.firstSector b).toNat then 1 else 0 := h0
  rw [if_pos rfl, if_neg (by omega)] at hone
  exact absurd hone (by decide)

end Volume

-- A volume with one group of 64 blocks and `inodes` inodes.
def sampleSectors (inodes : UInt8) : Disk := fun s j =>
  if s = 2 then
    ([(4, 64), (20, 1), (32, 64), (40, inodes), (56, 0x53), (57, 0xEF), (88, 128)].lookup j).getD 0
  else if s = 4 then ([(0, 3), (4, 4), (8, 5)].lookup j).getD 0
  else 0

end Ext2
