import VoidFrame.Mem.PMem

-- `MemoryInit`: the pages that are reserved when the kernel starts.

namespace PMem

def memoryAvailable : UInt32 := 1

structure MmapEntry where
  addr : UInt64
  len : UInt64
  type : UInt32
  deriving DecidableEq, Repr

-- The tags in front of the end tag.
inductive MultibootTag
  | mmap (entries : List MmapEntry)
  | other
  deriving DecidableEq, Repr

-- `torn` is what the second pass finds of tags that begin in front of the bitmap and reach into its memory.
structure MultibootInfo where
  addr : UInt32
  totalSize : UInt32
  tags : List MultibootTag
  torn : List MultibootTag := []
  deriving DecidableEq, Repr

-- `_kernel_phys_start` and `_kernel_phys_end`
structure Kernel where
  startAddr : UInt64
  endAddr : UInt64
  deriving DecidableEq, Repr

-- The entries in the order in which a pass visits them.
def mmapEntries (tags : List MultibootTag) : List MmapEntry :=
  tags.flatMap fun
    | .mmap entries => entries
    | .other => []

def MultibootInfo.entries (info : MultibootInfo) : List MmapEntry :=
  mmapEntries info.tags

def maxPhysicalAddress (entries : List MmapEntry) : UInt64 :=
  entries.foldl (fun highest e =>
    if e.type = memoryAvailable ∧ highest < e.addr + e.len then e.addr + e.len else highest) 0

def detectedPages (info : MultibootInfo) : Nat :=
  let total := ((maxPhysicalAddress info.entries).toNat + (pageSize - 1)) % 2 ^ 64 / pageSize
  if maxPages < total then maxPages else total

lemma detectedPages_le (info : MultibootInfo) : detectedPages info ≤ maxPages := by
  unfold detectedPages
  dsimp only
  split
  case isTrue => exact le_rfl
  case isFalse h => exact Nat.le_of_not_lt h

def bitmapStart : Nat := 0x1000000

def bitmapSize (totalPages : Nat) : Nat :=
  (totalPages + 63) / 64 * 8

-- The loop over an entry that is not available. It ends unless its address wraps.
def reserveLoop (endAddr : UInt64) : Nat → State → UInt64 → Except Fault State
  | 0,        _, _ => throw .stuck
  | fuel + 1, s, current =>
    if current < endAddr then
      reserveLoop endAddr fuel (markPageUsed s (current.toNat / pageSize)) (current + .ofNat pageSize)
    else return s

def reserveEntry (s : State) (e : MmapEntry) : Except Fault State :=
  if e.type = memoryAvailable then return s
  else reserveLoop (e.addr + e.len) (e.len.toNat / pageSize + 2) s e.addr

def markPages (s : State) (first last : Nat) : State :=
  (List.range' first (last - first)).foldl markPageUsed s

-- The second pass reads the tags after the bitmap has been cleared. A tag of zeros is an end tag.
def MultibootInfo.reread (info : MultibootInfo) (size : Nat) : List MultibootTag :=
  let first := info.addr.toNat + 8
  if bitmapStart ≤ first ∧ first < bitmapStart + size then []
  else if first < bitmapStart ∧ bitmapStart < info.addr.toNat + info.totalSize.toNat then info.torn
  else info.tags

def memoryInit (info : MultibootInfo) (kernel : Kernel) : Except Fault State := do
  let size := bitmapSize (detectedPages info)
  if detectedPages info * pageSize < bitmapStart + size then throw .noRoom
  else
    let s ← (mmapEntries (info.reread size)).foldlM reserveEntry
      { pageBitmap := fun _ => 0, totalPages := detectedPages info, bound := detectedPages_le info }
    let s := markPages s 0 lowmemPages
    let s := markPages s (bitmapStart / pageSize) ((bitmapStart + size + (pageSize - 1)) / pageSize)
    let s := markPages s (kernel.startAddr.toNat / pageSize)
      ((kernel.endAddr.toNat + (pageSize - 1)) % 2 ^ 64 / pageSize)
    return markPages s (info.addr.toNat / pageSize)
      ((info.addr.toNat + info.totalSize.toNat + (pageSize - 1)) % 2 ^ 32 / pageSize)

end PMem
