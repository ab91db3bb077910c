import VoidFrame.Library.Buffer
import VoidFrame.Library.CBuffer
import VoidFrame.Library.Machine

-- The system calls that write to the console, and those that open, read and close files.

namespace Syscall

def maxFileDescriptors : Nat := 256
def maxSyscallBufferSize : Nat := 4096
def maxSyscallStrLen : Nat := 256

-- The count of a call has 32 bits, and it is cut to the size of the buffer on the stack.
def clamp (count : UInt64) : Nat :=
  min count.toUInt32.toNat maxSyscallBufferSize

-- An access behind the buffer on the stack.
inductive Fault
  | buffer
deriving DecidableEq

-- `CopyFromUser` fails for a null pointer only.
def copyFromUser (buffer : Buffer) (user : Option (Nat → UInt8)) (count : Nat) : Option Buffer :=
  user.map fun bytes => { buffer with data := fun i => if i < count then bytes i else buffer.data i }

-- The characters up to the null character.
def printKernel (b : Buffer) : Nat → Nat → Except Fault (List UInt8)
  | 0,        _ => throw .buffer
  | fuel + 1, i => do
    let c ← b.load8 .buffer i
    if c = 0 then return [] else return c :: (← printKernel b fuel (i + 1))

inductive Stream
  | stdout
  | stderr

-- `[ ERROR ] `
def errorBadge : List UInt8 :=
  [0x5B, 0x20, 0x45, 0x52, 0x52, 0x4F, 0x52, 0x20, 0x5D, 0x20]

def Stream.badge : Stream → List UInt8
  | stdout => []
  | stderr => errorBadge

-- The result and what is printed. The buffer has the bytes that the stack had before.
def sysWrite (stack : Nat → UInt8) (stream : Stream) (user : Option (Nat → UInt8)) (count : UInt64) :
    Except Fault (Option Nat × List UInt8) := do
  match copyFromUser ⟨maxSyscallBufferSize, stack⟩ user (clamp count) with
  | none => return (none, [])
  | some buffer => return (some (clamp count), stream.badge ++ (← printKernel buffer (buffer.size + 1) 0))

structure FileHandle where
  inUse : Bool
  path : CString
  position : UInt64

abbrev Table := Nat → FileHandle

-- The files, none of which has 2 GiB.
structure Files where
  contents : CString → List UInt8
  small : ∀ path, (contents path).length < 2 ^ 31

-- The bytes that are copied to the buffer. The lengths of a file fit into 32 bits.
def vfsReadAt (contents : List UInt8) (offset count : UInt32) : List UInt8 :=
  if contents.length ≤ offset.toNat then []
  else
    let toRead := if contents.length < (offset + count).toNat then UInt32.ofNat contents.length - offset else count
    let copySize := if contents.length < (offset + toRead).toNat then UInt32.ofNat contents.length - offset else toRead
    (contents.drop offset.toNat).take copySize.toNat

-- `none` stands for -1.
def sysOpen (t : Table) (path : CString) : Option Nat × Table :=
  match (List.range' 3 (maxFileDescriptors - 3)).find? fun i => !(t i).inUse with
  | none => (none, t)
  | some i =>
    let handle : FileHandle := {
      inUse := true
      path := (path.strncpy maxSyscallStrLen).strncpy (maxSyscallStrLen - 1)
      position := 0
    }
    (some i, Function.update t i handle)

def Open (t : Table) (fd : Int) : Prop :=
  3 ≤ fd ∧ fd < maxFileDescriptors ∧ (t fd.toNat).inUse

instance {t : Table} {fd : Int} : Decidable (Open t fd) :=
  inferInstanceAs (Decidable (_ ∧ _ ∧ _))

def sysRead (files : Files) (t : Table) (fd : Int) (count : UInt64) : Option (List UInt8) × Table :=
  if Open t fd then
    let handle := t fd.toNat
    let data := vfsReadAt (files.contents handle.path) handle.position.toUInt32 (UInt32.ofNat (clamp count))
    let position := handle.position + UInt64.ofNat data.length
    (some data, Function.update t fd.toNat { handle with position })
  else (none, t)

def sysClose (t : Table) (fd : Int) : Bool × Table :=
  if Open t fd then (true, Function.update t fd.toNat { t fd.toNat with inUse := false }) else (false, t)

end Syscall
