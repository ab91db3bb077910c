import VoidFrame.Library.Buffer
import VoidFrame.Library.CString

-- What the loaders of the executable formats share.

namespace Exec

-- An access outside of the file or of the process image.
inductive Fault
  | file
  | image
  deriving DecidableEq, Repr

def procPrivSystem : UInt8 := 0
def procPrivNorm : UInt8 := 1

-- The memory that a loader allocates.
inductive Block
  | file
  | image
  deriving DecidableEq, Repr

-- What a loader meets: the privilege of the current process, the file and what is read of it, the answers of
-- `VMemAllocWithGuards` and what is in the memory it gives, and the answer of `CreateProcess`.
structure Environment where
  creator : Option UInt8
  fileSize : UInt64
  bytesRead : Int
  contents : Nat → UInt8
  fileMemory : Bool
  processMemory : Bool
  memory : Nat → UInt8
  createProcess : UInt32

def Environment.file (env : Environment) : Buffer where
  size := env.fileSize.toNat
  data := env.contents

-- A process has its entry point relative to the start of the image.
structure Process where
  image : Buffer
  entry : UInt64
  privilege : UInt8

-- The PID or 0, the process that was created, and the memory that was not freed.
structure Outcome where
  pid : UInt32
  process : Option Process
  blocks : List Block

def Outcome.failure (blocks : List Block) : Outcome where
  pid := 0
  process := none
  blocks := blocks

def pageSize : UInt64 := 4096
def pageMask : UInt64 := pageSize - 1

def pageAlignUp (size : UInt64) : UInt64 :=
  (size + pageMask) &&& ~~~pageMask

-- The bytes between the two guard pages of a block. Both sums can wrap.
def usable (size : UInt64) : Nat :=
  (pageAlignUp size + 2 * pageSize).toNat - (2 * pageSize).toNat

def allocateImage (env : Environment) (size : UInt64) : Except Fault (Option Buffer) :=
  if size = 0 ∨ !env.processMemory then return none
  else some <$> Buffer.fill { size := min size.toNat (usable size), data := env.memory } .image 0 size.toNat 0

-- The bytes of a segment are copied from the file, and the rest of it is cleared.
def loadBytes (image file : Buffer) (memOffset offset filesz memsz : UInt64) : Except Fault Buffer := do
  let image ← image.copy file .file .image memOffset.toNat offset.toNat filesz.toNat
  if filesz < memsz then image.fill .image (memOffset + filesz).toNat (memsz - filesz).toNat 0
  else return image

def launch (env : Environment) (blocks : List Block) (image : Buffer) (entry : UInt64) : Outcome :=
  let blocks := blocks.erase .file
  if env.createProcess = 0 then .failure (blocks.erase .image)
  else { pid := env.createProcess, process := some ⟨image, entry, procPrivNorm⟩, blocks := blocks }

end Exec
