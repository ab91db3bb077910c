import VoidFrame.Fs.NTFS.Path
import VoidFrame.Library.Bytes

-- The records of an NTFS volume as bytes, and the sectors that they are read from and written to.

namespace NTFS

open Bytes (u16 u32 u64)

inductive Fault
  -- A transfer goes beyond the end of its buffer.
  | overflow
deriving DecidableEq

abbrev Memory := Nat → UInt8

structure NtfsBootSector where
  bytesPerSector : UInt16
  sectorsPerCluster : UInt8
  totalSectors : UInt64
  mftCluster : UInt64
  clustersPerFileRecord : Int8

-- A volume, and the size of the blocks of its device.
structure Volume where
  blockSize : Nat
  totalBlocks : Nat
  bytesPerSector : Nat
  sectorsPerCluster : Nat
  mftCluster : Nat
  clustersPerFileRecord : Int
deriving DecidableEq

def Volume.bytesPerCluster (v : Volume) : Nat :=
  v.bytesPerSector * v.sectorsPerCluster

def ntfsMount (boot : NtfsBootSector) (blockSize totalBlocks : Nat) : Option Volume :=
  let v : Volume := {
    blockSize, totalBlocks
    bytesPerSector := boot.bytesPerSector.toNat
    sectorsPerCluster := boot.sectorsPerCluster.toNat
    mftCluster := boot.mftCluster.toNat
    clustersPerFileRecord := boot.clustersPerFileRecord.toInt
  }
  if v.bytesPerSector = 0 ∨ 4096 < v.bytesPerSector then none
  else if v.sectorsPerCluster = 0 then none
  else if v.bytesPerCluster = 0 ∨ 1048576 < v.bytesPerCluster then none
  else if v.mftCluster = 0 then none
  else if boot.totalSectors.toNat / v.sectorsPerCluster ≤ v.mftCluster then none
  else some v

structure Extent where
  lba : Nat
  count : Nat
deriving DecidableEq

namespace Volume

variable (v : Volume)

def inRange (e : Extent) : Bool :=
  e.lba + e.count ≤ v.totalBlocks

-- The blocks are placed at the start of a buffer of the given capacity.
def readBlocks (disk : Memory) (e : Extent) (capacity : Nat) (buffer : Memory) : Except Fault (Option Memory) :=
  if !v.inRange e then return none
  else if capacity < e.count * v.blockSize then throw .overflow
  else return some fun i => if i < e.count * v.blockSize then disk (e.lba * v.blockSize + i) else buffer i

def writeBlocks (disk : Memory) (e : Extent) (capacity : Nat) (buffer : Memory) : Except Fault (Option Memory) :=
  if !v.inRange e then return none
  else if capacity < e.count * v.blockSize then throw .overflow
  else return some fun a =>
    if e.lba * v.blockSize ≤ a ∧ a < (e.lba + e.count) * v.blockSize then buffer (a - e.lba * v.blockSize)
    else disk a

-- The shift is one of a 32-bit number.
def mftRecordSize : Nat :=
  if 0 < v.clustersPerFileRecord then v.clustersPerFileRecord.toNat * v.bytesPerCluster
  else 2 ^ ((-v.clustersPerFileRecord).toNat % 32)

-- The sectors that `NtfsReadMftRecord` reads.
def recordExtent (n : Nat) : Extent where
  lba := v.mftCluster * v.sectorsPerCluster + n * v.mftRecordSize / v.bytesPerSector
  count := (v.mftRecordSize + v.bytesPerSector - 1) / v.bytesPerSector

-- The sectors that `NtfsWriteFile` and `NtfsDelete` write a record to.
def writeBackExtent (n : Nat) : Extent where
  lba := v.mftCluster * v.sectorsPerCluster + n * 1024 / v.bytesPerSector
  count := 2

def ntfsReadMftRecord (disk : Memory) (n capacity : Nat) (buffer : Memory) : Except Fault (Option Memory) :=
  v.readBlocks disk (v.recordExtent n) capacity buffer

end Volume

def attrHeaderSize : Nat := 64

def attrsOffset (rec : Memory) : Nat := (u16 rec 20).toNat
def flags       (rec : Memory) : Nat := (u16 rec 22).toNat
def bytesInUse  (rec : Memory) : Nat := (u32 rec 24).toNat

def attrType    (rec : Memory) (a : Nat) : Nat := (u32 rec a).toNat
def attrLength  (rec : Memory) (a : Nat) : Nat := (u32 rec (a + 4)).toNat
def nonResident (rec : Memory) (a : Nat) : Bool := rec (a + 8) ≠ 0
def valueLength (rec : Memory) (a : Nat) : Nat := (u32 rec (a + 16)).toNat
def valueOffset (rec : Memory) (a : Nat) : Nat := (u16 rec (a + 20)).toNat

-- The first resident attribute of a type. An attribute has at least 64 bytes, so `fuel` is enough if it is
-- the end of the record.
def findAttr (rec : Memory) (recordEnd type : Nat) : Nat → Nat → Option Nat
  | 0,        _ => none
  | fuel + 1, a =>
    if a + attrHeaderSize ≤ recordEnd ∧ a < bytesInUse rec then
      if attrLength rec a < attrHeaderSize then none
      else if recordEnd < a + attrLength rec a then none
      else if attrType rec a = type ∧ !nonResident rec a then some a
      else findAttr rec recordEnd type fuel (a + attrLength rec a)
    else none

def attrFilename : Nat := 0x30
def attrData : Nat := 0x80

def resident (rec : Memory) (recordEnd type : Nat) : Option Nat :=
  findAttr rec recordEnd type recordEnd (attrsOffset rec)

def fileNameAt (rec : Memory) (a : Nat) : FileName :=
  let fn := a + valueOffset rec a
  { parent := (u64 rec fn).toNat
    name := (List.range (rec (fn + 64)).toNat).map fun k => u16 rec (fn + 66 + 2 * k) }

def fileName (rec : Memory) (recordEnd : Nat) : Option FileName :=
  if flags rec = 0 then none
  else (resident rec recordEnd attrFilename).map (fileNameAt rec)

namespace Volume

-- `heap` is what a buffer contains before something is read into it, and what stands behind it.
variable (v : Volume) (heap disk : Memory)

def names : Names := fun i =>
  match v.ntfsReadMftRecord disk i v.mftRecordSize heap with
  | .ok (some rec) => fileName rec v.mftRecordSize
  | _ => none

-- A scan starts with the first record, whose sectors overflow the buffer if those of any record do.
def pathToMftRecord (path : CString) : Except Fault Nat := do
  if scans path then
    let _ ← v.ntfsReadMftRecord disk 0 v.mftRecordSize heap
  return ntfsPathToMftRecord (v.names heap disk) path

def ntfsReadFile (path : CString) (maxSize : Nat) : Except Fault (Option (List UInt8)) := do
  let n ← v.pathToMftRecord heap disk path
  if n = 0 then return none
  match ← v.ntfsReadMftRecord disk n v.mftRecordSize heap with
  | none => return none
  | some rec =>
    if v.mftRecordSize < bytesInUse rec then return none
    match resident rec v.mftRecordSize attrData with
    | none => return none
    | some a =>
      let dataSize := min (valueLength rec a) maxSize
      let dataPtr := a + valueOffset rec a
      if v.mftRecordSize < dataPtr + dataSize then return none
      return some ((List.range dataSize).map fun i => rec (dataPtr + i))

-- What a call that has written a record back did.
structure WriteBack where
  read : Extent
  written : Extent
  disk : Memory

-- The buffer of a record that is written back.
def bufferSize : Nat := 1024

def writeBack (n : Nat) (rec : Memory) : Except Fault (Option WriteBack) := do
  match ← v.writeBlocks disk (v.writeBackExtent n) bufferSize rec with
  | none => return none
  | some disk' => return some { read := v.recordExtent n, written := v.writeBackExtent n, disk := disk' }

def patch (rec : Memory) (start : Nat) (data : List UInt8) : Memory :=
  fun i => if start ≤ i then data.getD (i - start) (rec i) else rec i

def ntfsWriteFile (path : CString) (data : List UInt8) : Except Fault (Option WriteBack) := do
  let n ← v.pathToMftRecord heap disk path
  if n = 0 then return none
  match ← v.ntfsReadMftRecord disk n bufferSize heap with
  | none => return none
  | some rec =>
    if bufferSize < bytesInUse rec then return none
    match resident rec bufferSize attrData with
    | none => return none
    | some a =>
      let dataPtr := a + valueOffset rec a
      if valueLength rec a < data.length then return none
      if bufferSize < dataPtr + data.length then return none
      v.writeBack disk n (patch rec dataPtr data)

-- What `NtfsDelete` does with the record, before it clears the bit of it.
def ntfsDeleteRecord (path : CString) : Except Fault (Option WriteBack) := do
  let n ← v.pathToMftRecord heap disk path
  if n = 0 then return none
  match ← v.ntfsReadMftRecord disk n bufferSize heap with
  | none => return none
  | some rec => v.writeBack disk n (patch rec 22 [0, 0])

end Volume

end NTFS
