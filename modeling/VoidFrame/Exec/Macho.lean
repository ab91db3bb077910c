import VoidFrame.Exec.Loader

namespace Macho

open Exec

def maxMachoFileSize : Nat := 16 * 1024 * 1024

structure MachoLoadOptions where
  privilegeLevel : UInt8
  maxMemory : UInt64

def machHeaderSize : Nat := 32

def mhMagic64 : UInt32 := 0xfeedfacf
def lcSegment64 : UInt32 := 0x19
def lcMain : UInt32 := 0x80000028

section

variable (file : Buffer)

def magic : Except Fault UInt32 :=
  file.load32 .file 0

def ncmds : Except Fault UInt32 :=
  file.load32 .file 16

def sizeofcmds : Except Fault UInt32 :=
  file.load32 .file 20

-- The fields that are read of the load command at an offset.
variable (offset : Nat)

def cmd : Except Fault UInt32 :=
  file.load32 .file offset

def cmdsize : Except Fault UInt32 :=
  file.load32 .file (offset + 4)

def vmaddr : Except Fault UInt64 :=
  file.load64 .file (offset + 24)

def vmsize : Except Fault UInt64 :=
  file.load64 .file (offset + 32)

def fileoff : Except Fault UInt64 :=
  file.load64 .file (offset + 40)

def filesize : Except Fault UInt64 :=
  file.load64 .file (offset + 48)

def entryoff : Except Fault UInt64 :=
  file.load64 .file (offset + 8)

def stacksize : Except Fault UInt64 :=
  file.load64 .file (offset + 16)

-- The name of a segment is printed, up to a zero byte. It does not need to end in the 16 bytes of the field.
def printSegname : Except Fault Unit :=
  if (List.range (file.size - (offset + 8))).any fun k => file.data (offset + 8 + k) = 0 then return
  else throw .file

end

def validateMachoHeader (file : Buffer) : Except Fault Bool := do
  if (← magic file) ≠ mhMagic64 then return false
  else if (← sizeofcmds file) = 0 then return false
  else if (← ncmds file) = 0 then return false
  else return ¬file.size < (← sizeofcmds file).toNat

-- The walk over `n` load commands, the first of which is at an offset. A round goes on, or it ends the walk.
-- The offset is less than 2 ^ 64.
def walk {σ ρ : Type} (file : Buffer) (round : σ → Nat → UInt32 → Except Fault (σ ⊕ ρ)) :
    Nat → Nat → σ → Except Fault (σ ⊕ ρ)
  | 0,     _,      s => return .inl s
  | n + 1, offset, s => do
    match ← round s offset (← cmd file offset) with
    | .inr r => return .inr r
    | .inl s => walk file round n (offset + (← cmdsize file offset).toNat) s

def addVmsize (file : Buffer) (total : UInt64) (offset : Nat) (cmd : UInt32) : Except Fault (UInt64 ⊕ Empty) := do
  if cmd = lcSegment64 then return .inl (total + (← vmsize file offset)) else return .inl total

def calculateProcessMemorySize (file : Buffer) : Except Fault UInt64 := do
  match ← walk file (addVmsize file) (← ncmds file).toNat machHeaderSize 0 with
  | .inl total => return total

def loadSegment (file image : Buffer) (offset : Nat) (cmd : UInt32) : Except Fault (Buffer ⊕ Unit) := do
  if cmd ≠ lcSegment64 then return .inl image
  else
    let source ← fileoff file offset
    let count ← filesize file offset
    if UInt64.ofNat file.size < source + count then return .inr ()
    else
      let target ← vmaddr file offset
      let size ← vmsize file offset
      if UInt64.ofNat image.size < target + size then return .inr ()
      else
        let image ← loadBytes image file target source count size
        printSegname file offset
        return .inl image

def findMain (file : Buffer) (_ : Unit) (offset : Nat) (cmd : UInt32) : Except Fault (Unit ⊕ UInt64) := do
  if cmd = lcMain then
    let entry ← entryoff file offset
    let _ ← stacksize file offset
    return .inr entry
  else return .inl ()

-- The address of the entry point in a segment that has it.
def findEntry (file : Buffer) (entry : UInt64) (_ : Unit) (offset : Nat) (cmd : UInt32) :
    Except Fault (Unit ⊕ UInt64) := do
  if cmd ≠ lcSegment64 then return .inl ()
  else
    let source ← fileoff file offset
    if entry < source then return .inl ()
    else if source + (← filesize file offset) ≤ entry then return .inl ()
    else
      let va := (← vmaddr file offset) + (entry - source)
      printSegname file offset
      return .inr va

def found : Unit ⊕ UInt64 → UInt64
  | .inl _ => 0
  | .inr a => a

-- The part of `CreateProcessFromMacho` for a file that has been validated.
def loadImage (env : Environment) (blocks : List Block) (file : Buffer) : Except Fault Outcome := do
  let size ← calculateProcessMemorySize file
  if size = 0 then return .failure (blocks.erase .file)
  else
    match ← allocateImage env size with
    | none => return .failure (blocks.erase .file)
    | some image =>
      let blocks := .image :: blocks
      let n := (← ncmds file).toNat
      match ← walk file (loadSegment file) n machHeaderSize image with
      | .inr _ => return .failure ((blocks.erase .image).erase .file)
      | .inl image =>
        let entry := found (← walk file (findMain file) n machHeaderSize ())
        if entry = 0 then return .failure ((blocks.erase .image).erase .file)
        else
          let va := found (← walk file (findEntry file entry) n machHeaderSize ())
          if va = 0 then return .failure ((blocks.erase .image).erase .file)
          else return launch env blocks image va

-- The options are not looked at.
def createProcessFromMacho (env : Environment) (filename : Option CString) (_ : Option MachoLoadOptions) :
    Except Fault Outcome :=
  if filename.isNone then return .failure []
  else if env.fileSize = 0 ∨ maxMachoFileSize < env.fileSize.toNat then return .failure []
  else if !env.fileMemory then return .failure []
  else
    let blocks := [.file]
    if env.bytesRead ≤ 0 ∨ env.bytesRead ≠ env.fileSize.toNat then return .failure (blocks.erase .file)
    else do
      if ← validateMachoHeader env.file then loadImage env blocks env.file
      else return .failure (blocks.erase .file)

end Macho
