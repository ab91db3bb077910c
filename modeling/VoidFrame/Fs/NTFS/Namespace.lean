import VoidFrame.Fs.NTFS.Path
import VoidFrame.Library.Bitmap
import VoidFrame.Library.Machine

-- Creation and deletion on a volume whose records all functions find in the same sectors. A record is what
-- the attributes in it say.

namespace NTFS

open Function (update)

structure Record where
  flags : UInt16
  fileName : Option FileName
deriving DecidableEq

-- The MFT, and the part of its bitmap that is looked at: the value of a resident attribute, or the first
-- run of one that is not resident.
structure Mft where
  records : Nat → Record
  count : Nat
  bitmap : Bitmap 8
  bitmapSize : Nat

namespace Mft

variable (s : Mft)

def inUse (i : Nat) : Bool :=
  (s.records i).flags ≠ 0

def names : Names := fun i =>
  if s.inUse i then (s.records i).fileName else none

-- `0` stands for a bitmap without a free bit.
def ntfsAllocateMftRecord : Nat × Mft :=
  match s.bitmap.findZero s.bitmapSize with
  | some i => (i, { s with bitmap := s.bitmap.set i })
  | none => (0, s)

-- `1` is the flag of a file, `2` that of a directory. The result is the record of the new name.
def create (flags : UInt16) (path : CString) : Option Nat × Mft :=
  match ntfsResolveParentAndName s.names path with
  | none => (none, s)
  | some (parentMft, name) =>
    let (n, s) := s.ntfsAllocateMftRecord
    if n = 0 then (none, s)
    else (some n, { s with
      records := update s.records n
        { flags, fileName := some { parent := parentMft, name := name.map fun c => c.val.toUInt16 } } })

def ntfsCreateFile (path : CString) : Option Nat × Mft := s.create 1 path
def ntfsCreateDir  (path : CString) : Option Nat × Mft := s.create 2 path

-- The result is the record that was deleted.
def ntfsDelete (path : CString) : Option Nat × Mft :=
  let n := ntfsPathToMftRecord s.names path
  if n = 0 then (none, s)
  else (some n, { s with
    records := update s.records n { s.records n with flags := 0 }
    bitmap := if n < s.bitmapSize * 8 then s.bitmap.clear n else s.bitmap })

end Mft

inductive Action
  | createFile (path : CString)
  | createDir (path : CString)
  | delete (path : CString)

def step (s : Mft) : Action → Except Empty Mft
  | .createFile path => .ok (s.ntfsCreateFile path).2
  | .createDir path => .ok (s.ntfsCreateDir path).2
  | .delete path => .ok (s.ntfsDelete path).2

-- A volume on which the records in use form a tree, and are marked in the bitmap. The record `0` is that of
-- the MFT itself.
structure Consistent (s : Mft) : Prop where
  bitmap : ∀ i < s.bitmapSize * 8, s.inUse i → s.bitmap.get i
  size : s.bitmapSize * 8 ≤ s.count
  count : ∀ i, s.inUse i → i < s.count
  mft : s.inUse 0
  root : s.inUse rootRecord
  unique : ∀ i j fn, s.names i = some fn → s.names j = some fn → i = j
  parents : ∀ i fn, s.names i = some fn → s.inUse fn.parent

abbrev Run (ok : Mft → Action → Prop) := Machine.Run Consistent step ok

end NTFS
