import VoidFrame.Library.Buffer

-- The blocks, inodes and bitmaps of an Ext2 volume.

namespace Ext2

inductive Fault
  -- An access outside of a buffer for a block, or of the buffer for the group descriptors.
  | buffer
  | descriptors
  | divide
  -- A loop does not end.
  | loop
deriving DecidableEq

def ext2Magic : UInt16 := 0xEF53

-- The fields of the superblock that are used.
structure Superblock where
  blocksCount : UInt32
  freeBlocksCount : UInt32
  freeInodesCount : UInt32
  firstDataBlock : UInt32
  logBlockSize : UInt32
  blocksPerGroup : UInt32
  inodesPerGroup : UInt32
  magic : UInt16
  inodeSize : UInt16

def Superblock.ofBytes (b : Nat → UInt8) : Superblock where
  blocksCount := Bytes.u32 b 4
  freeBlocksCount := Bytes.u32 b 12
  freeInodesCount := Bytes.u32 b 16
  firstDataBlock := Bytes.u32 b 20
  logBlockSize := Bytes.u32 b 24
  blocksPerGroup := Bytes.u32 b 32
  inodesPerGroup := Bytes.u32 b 40
  magic := Bytes.u16 b 56
  inodeSize := Bytes.u16 b 88

-- The bytes of the sectors of a disk.
abbrev Disk := Nat → Nat → UInt8

namespace Disk

def sectorSize : Nat := 512

def read (disk : Disk) (start : Nat) : Nat → UInt8 := fun i =>
  disk (start + i / sectorSize) (i % sectorSize)

def write (disk : Disk) (start count : Nat) (data : Nat → UInt8) : Disk := fun s j =>
  if start ≤ s ∧ s < start + count then data (sectorSize * (s - start) + j) else disk s j

end Disk

-- A mounted volume. `device` tells for a sector whether the transfers that start there work.
structure Volume where
  blockSize : UInt32
  inodeSize : UInt32
  blocksPerGroup : UInt32
  inodesPerGroup : UInt32
  numGroups : UInt32
  blocksCount : UInt32
  firstDataBlock : UInt32
  freeBlocksCount : UInt32
  freeInodesCount : UInt32
  groupDescs : Buffer
  disk : Disk
  device : Nat → Bool

namespace Volume

variable (v : Volume)

def numSectors : UInt32 :=
  v.blockSize / 512

def firstSector (block : UInt32) : UInt32 :=
  block * v.numSectors

def ext2ReadBlock (block : UInt32) : Option Buffer :=
  if v.blocksCount ≤ block then none
  else if !v.device (v.firstSector block).toNat then none
  else some { size := v.blockSize.toNat, data := v.disk.read (v.firstSector block).toNat }

def ext2WriteBlock (block : UInt32) (data : Nat → UInt8) : Option Volume :=
  if v.blocksCount ≤ block then none
  else if !v.device (v.firstSector block).toNat then none
  else some { v with disk := v.disk.write (v.firstSector block).toNat v.numSectors.toNat data }

def bgdtBlock : UInt32 :=
  if v.blockSize = 1024 then 2 else 1

def groupDescSize : UInt32 := 32

def bgdtBlocks : UInt32 :=
  (v.numGroups * groupDescSize + v.blockSize - 1) / v.blockSize

def bgdtData : Nat → UInt8 := fun i =>
  v.disk.read (v.firstSector (v.bgdtBlock + UInt32.ofNat (i / v.blockSize.toNat))).toNat (i % v.blockSize.toNat)

end Volume

-- The volume before its group descriptors are read.
def Volume.ofSuperblock (sb : Superblock) (disk : Disk) (device : Nat → Bool) : Volume where
  blockSize := 1024 <<< sb.logBlockSize
  inodeSize := sb.inodeSize.toUInt32
  blocksPerGroup := sb.blocksPerGroup
  inodesPerGroup := sb.inodesPerGroup
  numGroups := (sb.blocksCount + sb.blocksPerGroup - 1) / sb.blocksPerGroup
  blocksCount := sb.blocksCount
  firstDataBlock := sb.firstDataBlock
  freeBlocksCount := sb.freeBlocksCount
  freeInodesCount := sb.freeInodesCount
  groupDescs := .zero 0
  disk
  device

-- There is no buffer of size 0 for the group descriptors.
def Volume.readDescs (v : Volume) : Option Volume :=
  if v.bgdtBlocks * v.blockSize = 0 then none
  else if (List.range v.bgdtBlocks.toNat).all fun i => (v.ext2ReadBlock (v.bgdtBlock + UInt32.ofNat i)).isSome then
    some { v with groupDescs := { size := (v.bgdtBlocks * v.blockSize).toNat, data := v.bgdtData } }
  else none

def ext2Mount (disk : Disk) (device : Nat → Bool) : Option Volume :=
  let sb := Superblock.ofBytes (disk.read 2)
  if !device 2 then none
  else if sb.magic ≠ ext2Magic then none
  else if 10 < sb.logBlockSize then none
  else if sb.blocksPerGroup = 0 then none
  else (Volume.ofSuperblock sb disk device).readDescs

-- The bytes of an inode.
abbrev Inode := Nat → UInt8

namespace Inode

def sizeOf : Nat := 128

def ofBytes (data : Nat → UInt8) (offset : Nat) : Inode := fun i =>
  if i < sizeOf then data (offset + i) else 0

end Inode

namespace Volume

variable (v : Volume)

section

variable {α : Type}

def desc (width : Nat) (f : (Nat → UInt8) → Nat → α) (group field : Nat) : Except Fault α :=
  if group < v.numGroups.toNat then v.groupDescs.load .descriptors width f (32 * group + field)
  else throw .descriptors

def desc16 : Nat → Nat → Except Fault UInt16 :=
  v.desc 2 Bytes.u16

def desc32 : Nat → Nat → Except Fault UInt32 :=
  v.desc 4 Bytes.u32

end

-- The block of an inode and the offset in it, or an error for a number without a group.
def locateInode (n : UInt32) : Except Fault (Option (UInt32 × UInt32)) := do
  if n = 0 then return none
  else if v.inodesPerGroup = 0 then throw .divide
  else
    let group := (n - 1) / v.inodesPerGroup
    if v.numGroups ≤ group then return none
    else
      let index := (n - 1) % v.inodesPerGroup
      let table ← v.desc32 group.toNat 8
      let offset := index * v.inodeSize
      return some (table + offset / v.blockSize, offset % v.blockSize)

def ext2ReadInode (n : UInt32) : Except Fault (Option Inode) := do
  match ← v.locateInode n with
  | none => return none
  | some (block, offset) =>
    match v.ext2ReadBlock block with
    | none => return none
    | some b =>
      if b.Within offset.toNat Inode.sizeOf then return some (.ofBytes b.data offset.toNat)
      else throw .buffer

def patch (data : Nat → UInt8) (offset : Nat) (inode : Inode) : Nat → UInt8 := fun i =>
  if offset ≤ i ∧ i < offset + Inode.sizeOf then inode (i - offset) else data i

def ext2WriteInode (n : UInt32) (inode : Inode) : Except Fault (Option Volume) := do
  match ← v.locateInode n with
  | none => return none
  | some (block, offset) =>
    match v.ext2ReadBlock block with
    | none => return none
    | some b =>
      if b.Within offset.toNat Inode.sizeOf then
        return v.ext2WriteBlock block (patch b.data offset.toNat inode)
      else throw .buffer

def ext2FindFreeBit (b : Buffer) : Nat → Nat → Except Fault (Option Nat)
  | 0,     _ => return none
  | k + 1, i => do
    if (← b.load8 .buffer (i / 8)).toNat.testBit (i % 8) then ext2FindFreeBit b k (i + 1)
    else return some i

def mask (bit : Nat) : UInt8 :=
  1 <<< UInt8.ofNat (bit % 8)

def ext2SetBit (b : Buffer) (bit : Nat) : Except Fault Buffer := do
  b.store8 .buffer (bit / 8) ((← b.load8 .buffer (bit / 8)) ||| mask bit)

def ext2ClearBit (b : Buffer) (bit : Nat) : Except Fault Buffer := do
  b.store8 .buffer (bit / 8) ((← b.load8 .buffer (bit / 8)) &&& ~~~mask bit)

-- What the bitmaps of a kind are for: where the descriptor of a group has the block of its bitmap and the
-- number of the bits that are free, and how many bits there are for a group.
structure Kind where
  bitmap : Nat
  count : Nat
  bits : UInt32

def blocks : Kind where
  bitmap := 0
  count := 12
  bits := v.blocksPerGroup

def inodes : Kind where
  bitmap := 4
  count := 14
  bits := v.inodesPerGroup

-- The number of free bits of a group changes in memory.
def addFree (k : Kind) (group : Nat) (change : UInt16) : Except Fault Volume := do
  let count ← v.desc16 group k.count
  return { v with groupDescs :=
    { v.groupDescs with data := Bytes.put16 v.groupDescs.data (32 * group + k.count) (count + change) } }

-- The first block of descriptors is written. It does not matter whether this fails.
def writeDescs : Except Fault Volume :=
  if v.groupDescs.size < v.blockSize.toNat then throw .descriptors
  else return (v.ext2WriteBlock v.bgdtBlock v.groupDescs.data).getD v

-- A bit of the first group that has one is taken.
def allocate (k : Kind) : List Nat → Except Fault (Option (Nat × Nat) × Volume)
  | [] => return (none, v)
  | group :: l => do
    let bitmapBlock ← v.desc32 group k.bitmap
    match v.ext2ReadBlock bitmapBlock with
    | none => allocate k l
    | some b =>
      match ← ext2FindFreeBit b k.bits.toNat 0 with
      | none => allocate k l
      | some bit =>
        let b ← ext2SetBit b bit
        match v.ext2WriteBlock bitmapBlock b.data with
        | none => allocate k l
        | some v =>
          let v ← v.addFree k group (-1)
          let v ← v.writeDescs
          return (some (group, bit), v)

-- `0` stands for a volume without a free inode.
def ext2AllocateInode : Except Fault (UInt32 × Volume) := do
  match ← v.allocate v.inodes (List.range v.numGroups.toNat) with
  | (none, v) => return (0, v)
  | (some (group, bit), v) =>
    let v := { v with freeInodesCount := v.freeInodesCount - 1 }
    return (UInt32.ofNat group * v.inodesPerGroup + UInt32.ofNat bit + 1, v)

def ext2AllocateBlock : Except Fault (UInt32 × Volume) := do
  match ← v.allocate v.blocks (List.range v.numGroups.toNat) with
  | (none, v) => return (0, v)
  | (some (group, bit), v) =>
    let v := { v with freeBlocksCount := v.freeBlocksCount - 1 }
    return (UInt32.ofNat group * v.blocksPerGroup + UInt32.ofNat bit + v.firstDataBlock, v)

-- A bit is given back. The result tells whether this was done.
def release (k : Kind) (group bit : Nat) : Except Fault (Bool × Volume) := do
  let bitmapBlock ← v.desc32 group k.bitmap
  match v.ext2ReadBlock bitmapBlock with
  | none => return (false, v)
  | some b =>
    let b ← ext2ClearBit b bit
    match v.ext2WriteBlock bitmapBlock b.data with
    | none => return (false, v)
    | some v => return (true, ← v.addFree k group 1)

def ext2FreeBlock (n : UInt32) : Except Fault Volume := do
  if n = 0 then return v
  else if v.blocksPerGroup = 0 then throw .divide
  else
    let (done, v) ← v.release v.blocks ((n - v.firstDataBlock) / v.blocksPerGroup).toNat
      ((n - v.firstDataBlock) % v.blocksPerGroup).toNat
    return if done then { v with freeBlocksCount := v.freeBlocksCount + 1 } else v

def ext2FreeInode (n : UInt32) : Except Fault Volume := do
  if n < 2 then return v
  else if v.inodesPerGroup = 0 then throw .divide
  else
    let (done, v) ← v.release v.inodes ((n - 1) / v.inodesPerGroup).toNat ((n - 1) % v.inodesPerGroup).toNat
    return if done then { v with freeInodesCount := v.freeInodesCount + 1 } else v

end Volume

end Ext2
