import VoidFrame.Exec.Loader

namespace PE

open Exec

def maxPEFileSize : Nat := 4 * 1024 * 1024

def defaultProcessMemoryLimit : UInt64 := 16 * 1024 * 1024

structure PELoadOptions where
  privilegeLevel : UInt8 := procPrivNorm
  maxMemory : UInt64 := defaultProcessMemoryLimit

def dosHeaderSize : Nat := 64
def peHeaderSize : Nat := 24
def optionalHeaderSize : Nat := 112
def sectionHeaderSize : Nat := 40

def dosMagic : UInt16 := 0x5A4D
def peMagic : UInt32 := 0x00004550
def pe32PlusMagic : UInt16 := 0x20b
def imageFileMachineAmd64 : UInt16 := 0x8664
def imageFileExecutableImage : UInt16 := 0x0002

section

variable (file : Buffer)

def eLfanew : Except Fault UInt32 :=
  file.load32 .file 60

-- The fields that are read of the header at `pe`, and of the optional header behind it.
variable (pe : Nat)

def sections : Except Fault UInt16 :=
  file.load16 .file (pe + 6)

def optHdrSize : Except Fault UInt16 :=
  file.load16 .file (pe + 20)

def characteristics : Except Fault UInt16 :=
  file.load16 .file (pe + 22)

def entryPoint : Except Fault UInt32 :=
  file.load32 .file (pe + peHeaderSize + 16)

def imageSize : Except Fault UInt32 :=
  file.load32 .file (pe + peHeaderSize + 56)

-- The fields that are read of the section at an offset.
variable (offset : Nat)

def virtualSize : Except Fault UInt32 :=
  file.load32 .file (offset + 8)

def virtualAddr : Except Fault UInt32 :=
  file.load32 .file (offset + 12)

def rawDataSize : Except Fault UInt32 :=
  file.load32 .file (offset + 16)

def rawDataPtr : Except Fault UInt32 :=
  file.load32 .file (offset + 20)

end

-- The sums are of 64 bits and too small to wrap.
def validatePEHeader (file : Buffer) : Except Fault Bool := do
  if file.size < dosHeaderSize then return false
  else if (← file.load16 .file 0) ≠ dosMagic then return false
  else
    let pe := (← eLfanew file).toNat
    if file.size < pe ∨ file.size < pe + (peHeaderSize + optionalHeaderSize) then return false
    else if (← file.load32 .file pe) ≠ peMagic then return false
    else if (← file.load16 .file (pe + 4)) ≠ imageFileMachineAmd64 then return false
    else if (← characteristics file pe) &&& imageFileExecutableImage = 0 then return false
    else if (← optHdrSize file pe).toNat < optionalHeaderSize then return false
    else if (← file.load16 .file (pe + peHeaderSize)) ≠ pe32PlusMagic then return false
    else
      let sectionsOffset := pe + peHeaderSize + (← optHdrSize file pe).toNat
      return ¬file.size < sectionsOffset + (← sections file pe).toNat * sectionHeaderSize

def validatePEFile (file : Buffer) : Except Fault Bool :=
  if file.size < dosHeaderSize then return false else validatePEHeader file

def calculatePEMemorySize (file : Buffer) : Except Fault UInt64 := do
  let pe := (← eLfanew file).toNat
  return (← imageSize file pe).toUInt64

-- A section is loaded, or it is rejected. The sums of its fields are of 32 bits.
def loadSection (file : Buffer) (table : Nat) (image : Buffer) (i : Nat) : Except Fault (Option Buffer) := do
  let offset := table + i * sectionHeaderSize
  let size ← rawDataSize file offset
  if size = 0 then return some image
  else
    let ptr ← rawDataPtr file offset
    if file.size < (ptr + size).toNat then return none
    else
      let addr ← virtualAddr file offset
      if image.size < (addr + (← virtualSize file offset)).toNat then return none
      else some <$> image.copy file .file .image addr.toNat ptr.toNat size.toNat

def loadSections (file : Buffer) (table : Nat) : List Nat → Buffer → Except Fault (Option Buffer)
  | [],     image => return some image
  | i :: l, image => do
    match ← loadSection file table image i with
    | none => return none
    | some image => loadSections file table l image

-- The part of `CreateProcessFromPE` for a file that has been validated.
def loadImage (env : Environment) (options : PELoadOptions) (blocks : List Block) (file : Buffer) :
    Except Fault Outcome := do
  let pe := (← eLfanew file).toNat
  let size ← calculatePEMemorySize file
  if options.maxMemory < size then return .failure (blocks.erase .file)
  else
    match ← allocateImage env size with
    | none => return .failure (blocks.erase .file)
    | some image =>
      let blocks := .image :: blocks
      let table := pe + peHeaderSize + (← optHdrSize file pe).toNat
      match ← loadSections file table (List.range (← sections file pe).toNat) image with
      | none => return .failure ((blocks.erase .image).erase .file)
      | some image =>
        let entry := (← entryPoint file pe).toUInt64
        if size ≤ entry then return .failure ((blocks.erase .image).erase .file)
        else return launch env blocks image entry

def createProcessFromPE (env : Environment) (filename : Option CString) (options : Option PELoadOptions) :
    Except Fault Outcome :=
  let options := options.getD {}
  if filename.isNone then return .failure []
  else match env.creator with
    | none => return .failure []
    | some creator =>
      if options.privilegeLevel = procPrivSystem ∧ creator ≠ procPrivSystem then return .failure []
      else if env.fileSize = 0 ∨ maxPEFileSize < env.fileSize.toNat then return .failure []
      else if !env.fileMemory then return .failure []
      else
        let blocks := [.file]
        if env.bytesRead ≠ env.fileSize.toNat then return .failure (blocks.erase .file)
        else do
          if ← validatePEFile env.file then loadImage env options blocks env.file
          else return .failure (blocks.erase .file)

end PE
