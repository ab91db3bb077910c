import VoidFrame.Library.CString

-- The names of an NTFS volume. There is no index: a name is that which a record gives itself.

namespace NTFS

-- What the `FILE_NAME` attribute of a record says.
structure FileName where
  parent : Nat
  name : List UInt16
deriving DecidableEq

-- The name of each record that is in use.
abbrev Names := Nat → Option FileName

def rootRecord : Nat := 5

def maxScan : Nat := 4096

def ntfsUtf16EqualsAscii (u16 : List UInt16) (ascii : CString) : Bool :=
  u16 = ascii.map fun c => c.val.toUInt16

def FileName.isChild (fn : FileName) (parentMft : Nat) (name : CString) : Bool :=
  fn.parent = parentMft && !fn.name.isEmpty && ntfsUtf16EqualsAscii fn.name name

-- `0` stands for a child that is not found.
def ntfsFindChild (names : Names) (parentMft : Nat) (name : CString) : Nat :=
  ((List.range maxScan).find? fun i => (names i).any (·.isChild parentMft name)).getD 0

-- Slashes that follow each other count as one.
def components (path : CString) : List CString :=
  (path.splitOn CString.slash).filter (· ≠ [])

def walk (names : Names) : Nat → List CString → Nat
  | current, [] => current
  | current, name :: l =>
    if 256 ≤ name.length then 0
    else
      let child := ntfsFindChild names current name
      if child = 0 then 0 else walk names child l

def ntfsPathToMftRecord (names : Names) : CString → Nat
  | [] => 0
  | [c] => if c = CString.slash then rootRecord else 0
  | c :: p => if c = CString.slash then walk names rootRecord (components p) else 0

-- Whether a component of the path is looked up at all.
def scans : CString → Bool
  | [] => false
  | c :: p => c = CString.slash && (components p).head?.any (·.length < 256)

-- All components but the last one are looked up.
def walkParent (names : Names) : Nat → List CString → Option (Nat × CString)
  | _,       [] => none
  | current, [name] => if 256 ≤ name.length then none else some (current, name)
  | current, name :: l =>
    if 256 ≤ name.length then none
    else
      let child := ntfsFindChild names current name
      if child = 0 then none else walkParent names child l

def ntfsResolveParentAndName (names : Names) : CString → Option (Nat × CString)
  | [] => none
  | c :: p => if c = CString.slash then walkParent names rootRecord (components p) else none

end NTFS
