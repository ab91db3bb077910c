import VoidFrame.Library.Bytes
import VoidFrame.Library.CString
import VoidFrame.Library.Machine
import VoidFrame.Library.Returns

namespace BlockIo

open Function (update)

abbrev maxBlockDevices : Nat := 16

abbrev DeviceId := Fin maxBlockDevices

abbrev mbrPartitionCount : Nat := 4

abbrev Block := Nat → UInt8

inductive DeviceType
  | unknown
  | ide
  | ahci
  | nvme
  | usb
  | virtio
  | partition
  deriving DecidableEq, Repr

-- The functions that `read_blocks` and `write_blocks` point to.
inductive Func
  | driver
  | partition
  deriving DecidableEq, Repr

structure BlockDevice where
  id : Nat := 0
  active : Bool := false
  type : DeviceType := .unknown
  blockSize : UInt32 := 0
  totalBlocks : UInt64 := 0
  name : CString := []
  parent : Option DeviceId := none
  lbaOffset : UInt64 := 0
  readBlocks : Option Func := none
  writeBlocks : Option Func := none

-- The device table, and what is on the drives.
structure State where
  devices : DeviceId → BlockDevice := fun _ => {}
  nextDeviceId : Nat := 0
  disks : DeviceId → UInt64 → Block

-- What keeps a call from returning.
inductive Fault
  | nullCall
  | loop
  deriving DecidableEq, Repr

-- The blocks of a drive that a call accesses.
structure Access where
  drive : DeviceId
  lba : UInt64
  count : UInt32

def Access.Covers (a : Access) (b : UInt64) : Prop :=
  (b - a.lba).toNat < a.count.toNat

instance (a : Access) (b : UInt64) : Decidable (a.Covers b) :=
  inferInstanceAs (Decidable (_ < _))

def blockDeviceInit (s : State) : State :=
  { s with devices := fun d => { s.devices d with active := false }, nextDeviceId := 0 }

def blockDeviceRegister (s : State) (type : DeviceType) (blockSize : UInt32) (totalBlocks : UInt64)
    (name : CString) (read write : Func) : Option (DeviceId × State) :=
  if h : s.nextDeviceId < maxBlockDevices then
    let dev : BlockDevice := {
      id := s.nextDeviceId
      active := true
      type, blockSize, totalBlocks
      name := name.strncpy 31
      parent := none
      lbaOffset := 0
      readBlocks := some read
      writeBlocks := some write }
    some (⟨s.nextDeviceId, h⟩, { s with
      devices := update s.devices ⟨s.nextDeviceId, h⟩ dev
      nextDeviceId := s.nextDeviceId + 1 })
  else none

def blockDeviceGet (s : State) (id : Int) : Option DeviceId :=
  if h : id < 0 ∨ s.nextDeviceId ≤ id.toNat ∨ maxBlockDevices ≤ id.toNat then none
  else
    let d : DeviceId := ⟨id.toNat, by omega⟩
    if (s.devices d).active then some d else none

-- The drive and the block that a call comes to. `PartitionReadBlocks` and `PartitionWriteBlocks` pass it on
-- to the parent.
def target (s : State) (func : BlockDevice → Option Func) :
    Nat → DeviceId → UInt64 → Except Fault (Option (DeviceId × UInt64))
  | 0,        _,      _ => throw .loop
  | fuel + 1, device, startLba =>
    match func (s.devices device) with
    | none => throw .nullCall
    | some .driver => return some (device, startLba)
    | some .partition =>
      match (s.devices device).parent with
      | none => return none
      | some parent => target s func fuel parent ((s.devices device).lbaOffset + startLba)

-- The access of `BlockDeviceRead` or `BlockDeviceWrite`, if the driver succeeds.
def transfer (s : State) (func : BlockDevice → Option Func) (deviceId : Int) (startLba : UInt64)
    (count : UInt32) (success : Bool) : Except Fault (Option Access) :=
  match blockDeviceGet s deviceId with
  | none => return none
  | some dev =>
    if (func (s.devices dev)).isNone then return none
    else do
      match ← target s func maxBlockDevices dev startLba with
      | none => return none
      | some (drive, lba) => return if success then some { drive, lba, count } else none

def blockDeviceRead (s : State) (deviceId : Int) (startLba : UInt64) (count : UInt32) (success : Bool) :
    Except Fault (Option (Access × (Nat → Block))) := do
  let access ← transfer s BlockDevice.readBlocks deviceId startLba count success
  return access.map fun a => (a, fun i => s.disks a.drive (a.lba + UInt64.ofNat i))

def State.store (s : State) (a : Access) (data : Nat → Block) : State :=
  { s with disks := update s.disks a.drive fun b =>
      if a.Covers b then data (b - a.lba).toNat else s.disks a.drive b }

def blockDeviceWrite (s : State) (deviceId : Int) (startLba : UInt64) (count : UInt32) (data : Nat → Block)
    (success : Bool) : Except Fault (Option Access × State) := do
  match ← transfer s BlockDevice.writeBlocks deviceId startLba count success with
  | none => return (none, s)
  | some a => return (some a, s.store a data)

structure PartitionEntry where
  type : UInt8
  lbaStart : UInt32
  numSectors : UInt32

def partitionEntry (mbr : Block) (i : Nat) : PartitionEntry where
  type := mbr (446 + 16 * i + 4)
  lbaStart := Bytes.u32 mbr (446 + 16 * i + 8)
  numSectors := Bytes.u32 mbr (446 + 16 * i + 12)

def bootSignature (mbr : Block) : UInt16 :=
  Bytes.u16 mbr 510

-- `snprintf(part_name, sizeof(part_name), "%s-p%d", device->name, i + 1)`
def partName (name : CString) (i : Nat) : CString :=
  (name ++ .ofChars ['-', 'p'] ++ .ofChars (Nat.toDigits 10 (i + 1))).take 31

-- The body of the loop in `ParseMBR`.
def registerPartition (device : DeviceId) (mbr : Block) (s : State) (i : Nat) : State :=
  let p := partitionEntry mbr i
  if p.type ≠ 0 ∧ 0 < p.numSectors then
    let dev := s.devices device
    match blockDeviceRegister s .partition dev.blockSize p.numSectors.toUInt64 (partName dev.name i)
      .partition .partition with
    | none => s
    | some (partDev, s) =>
      { s with devices := update s.devices partDev { s.devices partDev with
          parent := some device
          lbaOffset := p.lbaStart.toUInt64 } }
  else s

-- `alloc` and `success` tell whether the memory is allocated, and whether the driver succeeds.
def parseMBR (s : State) (device : DeviceId) (alloc success : Bool) : Except Fault State :=
  if alloc then do
    match ← blockDeviceRead s (s.devices device).id 0 1 success with
    | none => return s
    | some (_, data) =>
      let mbr := data 0
      if bootSignature mbr ≠ 0xAA55 then return s
      else return (List.range mbrPartitionCount).foldl (registerPartition device mbr) s
  else return s

def blockDeviceDetectAndRegisterPartitions (s : State) (drive : DeviceId) (alloc success : Bool) :
    Except Fault State :=
  if (s.devices drive).type = .partition then return s
  else parseMBR s drive alloc success

inductive Action
  | init
  | register (type : DeviceType) (blockSize : UInt32) (totalBlocks : UInt64) (name : CString)
  | detect (drive : DeviceId) (alloc success : Bool)
  | read (deviceId : Int) (startLba : UInt64) (count : UInt32) (success : Bool)
  | write (deviceId : Int) (startLba : UInt64) (count : UInt32) (data : Nat → Block) (success : Bool)

def step (s : State) : Action → Except Fault State
  | .init => return blockDeviceInit s
  | .register type blockSize totalBlocks name =>
    return ((blockDeviceRegister s type blockSize totalBlocks name .driver .driver).map Prod.snd).getD s
  | .detect drive alloc success => blockDeviceDetectAndRegisterPartitions s drive alloc success
  | .read deviceId startLba count success => do
    let _ ← blockDeviceRead s deviceId startLba count success
    return s
  | .write deviceId startLba count data success =>
    Prod.snd <$> blockDeviceWrite s deviceId startLba count data success

-- Drivers register drives, and look for partitions on those that they have registered.
def Legal (s : State) : Action → Prop
  | .register type _ _ _ => type ≠ .partition
  | .detect drive _ _ => drive < s.nextDeviceId
  | _ => True

abbrev Run (ok : State → Action → Prop) : State → Prop :=
  Machine.Run (fun s => ∃ disks, s = { disks }) step ok

end BlockIo
