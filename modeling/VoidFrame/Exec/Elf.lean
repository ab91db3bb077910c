import VoidFrame.Exec.Loader

namespace Elf

open Exec

def maxElfFileSize : Nat := 4 * 1024 * 1024

def defaultProcessMemoryLimit : UInt64 := 16 * 1024 * 1024

structure ElfLoadOptions where
  privilegeLevel : UInt8 := procPrivNorm
  maxMemory : UInt64 := defaultProcessMemoryLimit

-- The fields that are read.
structure ElfHeader where
  ident : List UInt8
  type : UInt16
  machine : UInt16
  entry : UInt64
  phoff : UInt64
  phentsize : UInt16
  phnum : UInt16

def elfHeaderSize : Nat := 64

def elfHeader (data : Nat → UInt8) : ElfHeader where
  ident := (List.range 6).map data
  type := Bytes.u16 data 16
  machine := Bytes.u16 data 18
  entry := Bytes.u64 data 24
  phoff := Bytes.u64 data 32
  phentsize := Bytes.u16 data 54
  phnum := Bytes.u16 data 56

-- The product of two 16-bit numbers is an `int`.
def tableSize (h : ElfHeader) : UInt64 :=
  (h.phnum.toUInt32.toInt32 * h.phentsize.toUInt32.toInt32).toInt64.toUInt64

-- The magic number, the class for 64 bits, and the little-endian encoding.
def elfIdent : List UInt8 :=
  [0x7F, 0x45, 0x4C, 0x46, 2, 1]

def validateElfHeader (h : ElfHeader) (fileSize : UInt64) : Bool :=
  h.ident = elfIdent ∧ (h.type = 2 ∨ h.type = 3) ∧ h.machine = 62 ∧
    ¬fileSize < h.phoff + tableSize h ∧ ¬64 < h.phnum ∧ h.entry ≠ 0

def validateElfFile (file : Buffer) : Bool :=
  ¬file.size < elfHeaderSize ∧ validateElfHeader (elfHeader file.data) (UInt64.ofNat file.size)

section

def programHeaderSize : Nat := 56

def ptLoad : UInt32 := 1

-- Where a program header is in the file, whatever the size of an entry is said to be.
def entryAt (h : ElfHeader) (i : Nat) : UInt64 :=
  h.phoff + UInt64.ofNat (programHeaderSize * i)

variable (file : Buffer) (h : ElfHeader) (i : Nat)

def pType : Except Fault UInt32 :=
  file.load32 .file (entryAt h i).toNat

def pOffset : Except Fault UInt64 :=
  file.load64 .file (entryAt h i + 8).toNat

def pVaddr : Except Fault UInt64 :=
  file.load64 .file (entryAt h i + 16).toNat

def pFilesz : Except Fault UInt64 :=
  file.load64 .file (entryAt h i + 32).toNat

def pMemsz : Except Fault UInt64 :=
  file.load64 .file (entryAt h i + 40).toNat

end

def extent (file : Buffer) (h : ElfHeader) (r : UInt64 × UInt64) (i : Nat) : Except Fault (UInt64 × UInt64) := do
  if (← pType file h i) = ptLoad then
    let vaddr ← pVaddr file h i
    let segmentEnd := vaddr + (← pMemsz file h i)
    return (if vaddr < r.1 then vaddr else r.1, if r.2 < segmentEnd then segmentEnd else r.2)
  else return r

def calculateProcessMemorySize (file : Buffer) (h : ElfHeader) : Except Fault UInt64 := do
  let (lowest, highest) ← (List.range h.phnum.toNat).foldlM (extent file h) (UInt64.ofNat (2 ^ 64 - 1), 0)
  return if lowest = UInt64.ofNat (2 ^ 64 - 1) then 0 else highest - lowest

def lowestVaddr (file : Buffer) (h : ElfHeader) (base : UInt64) (i : Nat) : Except Fault UInt64 := do
  if (← pType file h i) = ptLoad then
    let vaddr ← pVaddr file h i
    return if vaddr < base then vaddr else base
  else return base

def baseVaddr (file : Buffer) (h : ElfHeader) : Except Fault UInt64 :=
  (List.range h.phnum.toNat).foldlM (lowestVaddr file h) (UInt64.ofNat (2 ^ 64 - 1))

def loadSegment (file : Buffer) (h : ElfHeader) (base : UInt64) (image : Buffer) (i : Nat) :
    Except Fault (Option Buffer) := do
  if (← pType file h i) ≠ ptLoad then return some image
  else
    let offset ← pOffset file h i
    let filesz ← pFilesz file h i
    if UInt64.ofNat file.size < offset + filesz then return none
    else
      let memOffset := (← pVaddr file h i) - base
      let memsz ← pMemsz file h i
      if UInt64.ofNat image.size < memOffset + memsz then return none
      else some <$> loadBytes image file memOffset offset filesz memsz

def loadSegments (file : Buffer) (h : ElfHeader) (base : UInt64) : List Nat → Buffer → Except Fault (Option Buffer)
  | [],     image => return some image
  | i :: l, image => do
    match ← loadSegment file h base image i with
    | none => return none
    | some image => loadSegments file h base l image

-- The part of `CreateProcessFromElf` for a file that has been validated.
def loadImage (env : Environment) (options : ElfLoadOptions) (blocks : List Block) (file : Buffer) :
    Except Fault Outcome := do
  let h := elfHeader file.data
  let size ← calculateProcessMemorySize file h
  if size = 0 then return .failure (blocks.erase .file)
  else if options.maxMemory < size then return .failure (blocks.erase .file)
  else
    match ← allocateImage env size with
    | none => return .failure (blocks.erase .file)
    | some image =>
      let blocks := .image :: blocks
      let base ← baseVaddr file h
      match ← loadSegments file h base (List.range h.phnum.toNat) image with
      | none => return .failure ((blocks.erase .image).erase .file)
      | some image =>
        if h.entry < base ∨ base + size ≤ h.entry then return .failure ((blocks.erase .image).erase .file)
        else return launch env blocks image (h.entry - base)

def createProcessFromElf (env : Environment) (filename : Option CString) (options : Option ElfLoadOptions) :
    Except Fault Outcome :=
  let options := options.getD {}
  if filename.isNone then return .failure []
  else match env.creator with
    | none => return .failure []
    | some creator =>
      if options.privilegeLevel = procPrivSystem ∧ creator ≠ procPrivSystem then return .failure []
      else if env.fileSize = 0 ∨ maxElfFileSize < env.fileSize.toNat then return .failure []
      else if !env.fileMemory then return .failure []
      else
        let blocks := [.file]
        if env.bytesRead ≤ 0 ∨ env.bytesRead ≠ env.fileSize.toNat then return .failure (blocks.erase .file)
        else if validateElfFile env.file then loadImage env options blocks env.file
        else return .failure (blocks.erase .file)

end Elf
