import Mathlib

-- The physical memory that the drivers of block devices hand over for a transfer.

namespace Dma

def pageSize : Nat := 4096
def sectorSize : Nat := 512

-- The frame that a virtual page is mapped to.
abbrev PageTable := Nat → Option Nat

def translate (pt : PageTable) (vaddr : Nat) : Option Nat :=
  (pt (vaddr / pageSize)).map (· * pageSize + vaddr % pageSize)

-- An address that is not mapped yields `0`.
def vmemGetPhysAddr (pt : PageTable) (vaddr : Nat) : Nat :=
  (translate pt vaddr).getD 0

def bufferBytes (pt : PageTable) (buffer size : Nat) : List Nat :=
  (List.range size).map fun i => vmemGetPhysAddr pt (buffer + i)

def prpListEntries : Nat := 512

-- The address of the PRP list, and the 64-bit words in physical memory.
structure Controller where
  prpListPhys : Nat
  memory : Nat → Nat

structure Command where
  prp1 : Nat
  prp2 : Nat
  cdw12 : UInt32

def bytesInFirstPage (bufferPhys : Nat) : Nat :=
  pageSize - bufferPhys % pageSize

def numPrpEntries (bufferPhys totalBytes : Nat) : Nat :=
  if totalBytes ≤ bytesInFirstPage bufferPhys then 0
  else (totalBytes - bytesInFirstPage bufferPhys + pageSize - 1) / pageSize

-- The loop of `NVMe_SetupPrpList` writes the entries one after another.
def Controller.writeList (c : Controller) (current : Nat) (n : Nat) : Controller :=
  { c with memory := fun addr =>
      if c.prpListPhys ≤ addr ∧ addr < c.prpListPhys + 8 * n ∧ (addr - c.prpListPhys) % 8 = 0 then
        current + (addr - c.prpListPhys) / 8 * pageSize
      else c.memory addr }

def nvmeSetupPrpList (c : Controller) (bufferPhys totalBytes : Nat) : Option (Nat × Controller) :=
  let n := numPrpEntries bufferPhys totalBytes
  if n = 0 then some (0, c)
  else if prpListEntries < n then none
  else some (n, c.writeList (bufferPhys + bytesInFirstPage bufferPhys) n)

-- The command that both `NVMe_ReadSectors` and `NVMe_WriteSectors` submit.
def nvmeCommand (c : Controller) (pt : PageTable) (count : UInt16) (buffer : Nat) :
    Option (Command × Controller) := do
  let bufferPhys := vmemGetPhysAddr pt buffer
  let (n, c) ← nvmeSetupPrpList c bufferPhys (count.toNat * sectorSize)
  return ({
    prp1 := bufferPhys
    prp2 := if 0 < n then c.prpListPhys else 0
    cdw12 := count.toUInt32 - 1
  }, c)

def nvmeReadSectors (c : Controller) (pt : PageTable) (count : UInt16) (buffer : Nat) :
    Option (Command × Controller) :=
  nvmeCommand c pt count buffer

def nvmeWriteSectors (c : Controller) (pt : PageTable) (count : UInt16) (buffer : Nat) :
    Option (Command × Controller) :=
  nvmeCommand c pt count buffer

-- What the device makes of a command: the number of blocks is one less than the transfer has, and the
-- second pointer is that of a page if the transfer has two, and that of a list if it has more.
def Command.size (cmd : Command) : Nat :=
  (cmd.cdw12.toNat % 2 ^ 16 + 1) * sectorSize

def Command.address (cmd : Command) (memory : Nat → Nat) (i : Nat) : Nat :=
  let first := bytesInFirstPage cmd.prp1
  if i < first then cmd.prp1 + i
  else if cmd.size ≤ first + pageSize then cmd.prp2 + (i - first)
  else memory (cmd.prp2 + 8 * ((i - first) / pageSize)) + (i - first) % pageSize

def Command.bytes (cmd : Command) (memory : Nat → Nat) : List Nat :=
  (List.range cmd.size).map (cmd.address memory)

-- `dbc` has 22 bits, and is one less than the number of bytes.
structure Prd where
  dba : Nat
  dbc : BitVec 22

def ahciSendCommand (pt : PageTable) (count : UInt16) (buffer : Nat) : Option Prd :=
  let physAddr := vmemGetPhysAddr pt buffer
  if physAddr = 0 then none
  else some { dba := physAddr, dbc := BitVec.ofInt 22 (count.toNat * sectorSize - 1) }

def Prd.bytes (prd : Prd) : List Nat :=
  (List.range (prd.dbc.toNat + 1)).map (prd.dba + ·)

structure VirtqDesc where
  addr : Nat
  len : UInt32

-- The descriptor of the data buffer, between those of the request header and the status.
def virtioBlkData (pt : PageTable) (count : UInt32) (buffer : Nat) : VirtqDesc where
  addr := vmemGetPhysAddr pt buffer
  len := count * 512

def VirtqDesc.bytes (desc : VirtqDesc) : List Nat :=
  (List.range desc.len.toNat).map (desc.addr + ·)

end Dma
