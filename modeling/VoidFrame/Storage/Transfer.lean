import VoidFrame.Storage.Dma

-- The requests of block devices on their way to the registers and commands of the drivers.

namespace Storage

-- A sector, and the addresses of its bytes in memory.
abbrev Transfer := Nat × List Nat

-- What a device does for a command: `n` sectors from `first` on, with the bytes one after another.
def transfers (first n : Nat) (bytes : List Nat) : List Transfer :=
  (List.range n).map fun i => (first + i, (bytes.drop (i * Dma.sectorSize)).take Dma.sectorSize)

namespace Ide

def cmdReadSectors : UInt8 := 0x20
def cmdWriteSectors : UInt8 := 0x30

def errorNoDrive : Int := -3

-- The registers that a command is made of.
structure Registers where
  driveHead : UInt8
  sectorCount : UInt8
  lbaLow : UInt8
  lbaMid : UInt8
  lbaHigh : UInt8
  command : UInt8

-- The sector that a drive takes from the registers has 28 bits.
def Registers.sector (r : Registers) : Nat :=
  r.lbaLow.toNat + r.lbaMid.toNat * 2 ^ 8 + r.lbaHigh.toNat * 2 ^ 16 + r.driveHead.toNat % 2 ^ 4 * 2 ^ 24

def Registers.count (r : Registers) : Nat :=
  if r.sectorCount = 0 then 256 else r.sectorCount.toNat

-- The device of the caller, the drives that exist, and what the waits in each round return.
structure Environment where
  driverData : Option UInt64
  driveExists : UInt8 → UInt8 → Bool
  select : Nat → Int
  waitData : Nat → Int
  waitReady : Nat → Int

def driveHead (drive : UInt8) (lba : UInt32) : UInt8 :=
  (0xE0 : UInt8) ||| drive <<< 4 ||| (lba >>> 24 &&& 0x0F).toUInt8

def registers (command drive : UInt8) (lba : UInt64) : Registers where
  driveHead := driveHead drive lba.toUInt32
  sectorCount := 1
  lbaLow := (lba &&& 0xFF).toUInt8
  lbaMid := (lba >>> 8 &&& 0xFF).toUInt8
  lbaHigh := (lba >>> 16 &&& 0xFF).toUInt8
  command := command

-- The bytes of a sector are read from, or written to the data register.
def transfer (r : Registers) (buf : Nat) : List Transfer :=
  transfers r.sector r.count ((List.range (r.count * Dma.sectorSize)).map (buf + ·))

-- The loop over the sectors. `ready` tells whether a round ends with a wait for the drive.
def loop (env : Environment) (ready : Bool) (command drive : UInt8) (startLba : UInt64) (buffer : Nat) :
    List Nat → Int × List Transfer
  | [] => (0, [])
  | i :: l =>
    let lba := startLba + (UInt32.ofNat i).toUInt64
    let buf := buffer + (UInt32.ofNat i * 512).toNat
    let t := transfer (registers command drive lba) buf
    if env.select i ≠ 0 then (env.select i, [])
    else if env.waitData i ≠ 0 then (env.waitData i, t)
    else if ready ∧ env.waitReady i ≠ 0 then (env.waitReady i, t)
    else
      let r := loop env ready command drive startLba buffer l
      (r.1, t ++ r.2)

def blocks (env : Environment) (ready : Bool) (command : UInt8) (startLba : UInt64) (count : UInt32) (buffer : Nat) :
    Int × List Transfer :=
  match env.driverData with
  | none => (-1, [])
  | some data =>
    if data = 0 then (-1, [])
    else
      let drive := (data - 1).toUInt8
      if !env.driveExists (drive / 2) (drive % 2) then (errorNoDrive, [])
      else loop env ready command (drive % 2) startLba buffer (List.range count.toNat)

def ideReadBlocks (env : Environment) : UInt64 → UInt32 → Nat → Int × List Transfer :=
  blocks env false cmdReadSectors

def ideWriteBlocks (env : Environment) : UInt64 → UInt32 → Nat → Int × List Transfer :=
  blocks env true cmdWriteSectors

end Ide

namespace Ahci

-- The address and the count in the register FIS.
structure Fis where
  lba0 : UInt8
  lba1 : UInt8
  lba2 : UInt8
  lba3 : UInt8
  lba4 : UInt8
  lba5 : UInt8
  countl : UInt8
  counth : UInt8

def Fis.sector (f : Fis) : Nat :=
  f.lba0.toNat + f.lba1.toNat * 2 ^ 8 + f.lba2.toNat * 2 ^ 16 + f.lba3.toNat * 2 ^ 24 + f.lba4.toNat * 2 ^ 32 +
    f.lba5.toNat * 2 ^ 40

-- A count of zero stands for 65536 sectors.
def Fis.count (f : Fis) : Nat :=
  let n := f.countl.toNat + f.counth.toNat * 2 ^ 8
  if n = 0 then 2 ^ 16 else n

structure Environment where
  driverData : Option UInt64
  initialized : Bool
  active : Int → Bool
  portReady : Bool
  completes : Bool
  taskFileError : Bool
  pt : Dma.PageTable

def fis (lba : UInt64) (count : UInt16) : Fis where
  lba0 := (lba &&& 0xFF).toUInt8
  lba1 := (lba >>> 8 &&& 0xFF).toUInt8
  lba2 := (lba >>> 16 &&& 0xFF).toUInt8
  lba3 := (lba >>> 24 &&& 0xFF).toUInt8
  lba4 := (lba >>> 32 &&& 0xFF).toUInt8
  lba5 := (lba >>> 40 &&& 0xFF).toUInt8
  countl := (count &&& 0xFF).toUInt8
  counth := (count >>> 8 &&& 0xFF).toUInt8

def ahciSendCommand (env : Environment) (port : Int) (lba : UInt64) (count : UInt16) (buffer : Nat) :
    Int × List Transfer :=
  if !env.active port then (-1, [])
  else if !env.portReady then (-1, [])
  else match Dma.ahciSendCommand env.pt count buffer with
    | none => (-1, [])
    | some prd =>
      let f := fis lba count
      let t := transfers f.sector f.count prd.bytes
      if !env.completes then (-1, t)
      else if env.taskFileError then (-1, t)
      else (0, t)

def sectors (env : Environment) (port : Int) (lba : UInt64) (count : UInt16) (buffer : Nat) : Int × List Transfer :=
  if !env.initialized ∨ !env.active port then (-1, []) else ahciSendCommand env port lba count buffer

-- The count of the request is cut to 16 bits.
def blocks (env : Environment) (startLba : UInt64) (count : UInt32) (buffer : Nat) : Int × List Transfer :=
  match env.driverData with
  | none => (-1, [])
  | some data => if data = 0 then (-1, []) else sectors env (data - 1).toUInt32.toInt32.toInt startLba count.toUInt16 buffer

def ahciReadBlocksWrapper (env : Environment) : UInt64 → UInt32 → Nat → Int × List Transfer :=
  blocks env

def ahciWriteBlocksWrapper (env : Environment) : UInt64 → UInt32 → Nat → Int × List Transfer :=
  blocks env

end Ahci

namespace Nvme

-- The results of the commands for the transfer and for the flush.
structure Environment where
  initialized : Bool
  controller : Dma.Controller
  pt : Dma.PageTable
  status : Int
  flush : Int

def sector (cdw10 cdw11 : UInt32) : Nat :=
  cdw10.toNat + cdw11.toNat * 2 ^ 32

-- The number of blocks is one less than the transfer has.
def numBlocks (cmd : Dma.Command) : Nat :=
  cmd.cdw12.toNat % 2 ^ 16 + 1

-- The command is made and submitted, and its result is that of the call if the call does not go on.
def submit (env : Environment) (next : Int) (lba : UInt64) (count : UInt16) (buffer : Nat) : Int × List Transfer :=
  if !env.initialized then (-1, [])
  else
    let cdw10 := (lba &&& 0xFFFFFFFF).toUInt32
    let cdw11 := (lba >>> 32 &&& 0xFFFFFFFF).toUInt32
    match Dma.nvmeCommand env.controller env.pt count buffer with
    | none => (-1, [])
    | some (cmd, c) =>
      (if env.status ≠ 0 then env.status else next,
        transfers (sector cdw10 cdw11) (numBlocks cmd) (cmd.bytes c.memory))

def nvmeReadSectors (env : Environment) : UInt64 → UInt16 → Nat → Int × List Transfer :=
  submit env 0

def nvmeWriteSectors (env : Environment) : UInt64 → UInt16 → Nat → Int × List Transfer :=
  submit env env.flush

def nvmeReadBlocksWrapper (env : Environment) (startLba : UInt64) (count : UInt32) : Nat → Int × List Transfer :=
  nvmeReadSectors env startLba count.toUInt16

def nvmeWriteBlocksWrapper (env : Environment) (startLba : UInt64) (count : UInt32) : Nat → Int × List Transfer :=
  nvmeWriteSectors env startLba count.toUInt16

end Nvme

end Storage
