import VoidFrame.Library.Buffer
import VoidFrame.Library.CBuffer

namespace Iso9660

open CString (space)

inductive Fault
  -- An access outside of a sector, of the copy of an entry, or of the array of entries.
  | sector
  | entry
  | entries
  -- A loop does not end.
  | loop
deriving DecidableEq

def sectorSize : Nat := 2048

-- The sectors of the disc that can be read.
abbrev Disc := UInt32 → Option (Nat → UInt8)

def readSector (disc : Disc) (lba : UInt32) : Option Buffer :=
  (disc lba).map fun data => { size := sectorSize, data }

def semicolon : CChar := ⟨0x3B, by decide⟩

def toupperIso (c : UInt8) : UInt8 :=
  if 0x61 ≤ c ∧ c ≤ 0x7A then c - 0x20 else c

def nextChar : CString → UInt8
  | [] => 0
  | c :: _ => toupperIso (if c = semicolon then 0 else c.val)

def equalsFrom : CString → CString → Bool
  | [],     b => nextChar b = 0
  | c :: a, b =>
    if nextChar (c :: a) ≠ nextChar b then false
    else if nextChar (c :: a) = 0 then true
    else equalsFrom a b.tail

def isoNameEquals (a b : CString) : Bool :=
  equalsFrom (a.dropWhile (· = space)) (b.dropWhile (· = space))

-- The name that is in an entry, without the version.
def nameOf (fileId : List UInt8) : CString :=
  (CString.ofBytes fileId).takeWhile (· ≠ semicolon)

section

variable (e : Buffer)

def extentLoc : Except Fault UInt32 := e.load32 .entry 2

def dataLength : Except Fault UInt32 := e.load32 .entry 10

def fileFlags : Except Fault UInt8 := e.load8 .entry 25

def fileIdLength : Except Fault UInt8 := e.load8 .entry 32

def copyEntry (s : Buffer) (offset : Nat) : Except Fault Buffer := do
  let length ← s.load8 .sector offset
  if s.Within offset length.toNat then return { size := length.toNat, data := fun i => s.data (offset + i) }
  else throw .sector

end

section

variable (disc : Disc)

def findInSector (s : Buffer) (filename : CString) : Nat → Nat → Except Fault (Option Buffer)
  | 0,        _ => throw .loop
  | fuel + 1, o => do
    if o < sectorSize then
      let length ← s.load8 .sector o
      if length = 0 then return none
      else
        let nameLen ← s.load8 .sector (o + 32)
        let fileId ← s.slice .sector (o + 33) nameLen.toNat
        if isoNameEquals (nameOf fileId) filename then return some (← copyEntry s o)
        else findInSector s filename fuel (o + length.toNat)
    else return none

def findFrom (dirLba dirSize : UInt32) (filename : CString) : Nat → UInt32 → Except Fault (Option Buffer)
  | 0,        _ => throw .loop
  | fuel + 1, bytesRead => do
    if bytesRead < dirSize then
      match readSector disc (dirLba + bytesRead / 2048) with
      | none => return none
      | some s =>
        match ← findInSector s filename (sectorSize + 1) 0 with
        | some e => return some e
        | none => findFrom dirLba dirSize filename fuel (bytesRead + 2048)
    else return none

-- The number of bytes has one of `2 ^ 21` values before each round.
def findFileInDir (dirLba dirSize : UInt32) (filename : CString) : Except Fault (Option Buffer) :=
  findFrom disc dirLba dirSize filename (2 ^ 21 + 1) 0

-- Slashes that follow each other count as one.
def components (path : CString) : List CString :=
  (path.splitOn CString.slash).filter (· ≠ [])

def descend : Buffer → UInt32 → UInt32 → List CString → Except Fault (Option Buffer)
  | e, _,   _,    [] => return some e
  | _, lba, size, c :: l => do
    match ← findFileInDir disc lba size c with
    | none => return none
    | some e =>
      let lba ← extentLoc e
      let size ← dataLength e
      descend e lba size l

def rootEntry (s : Buffer) : Buffer where
  size := sectorSize - 156
  data := fun i => s.data (156 + i)

def isPvd (s : Buffer) : Bool :=
  s.data 0 = 1 ∧ (List.range 5).map (fun i => s.data (1 + i)) = [0x43, 0x44, 0x30, 0x30, 0x31]

-- The path is copied to a buffer of 256 characters. The entry of the root is not looked for.
def lookup (root : Buffer) (path : CString) : Except Fault (Option Buffer) := do
  let lba ← extentLoc root
  let size ← dataLength root
  if path = [CString.slash] then return some root
  else descend disc root lba size (components (path.strncpy 256))

end

section

variable (disc : Disc)

def readData (lba : UInt32) (toRead : Nat) : Nat → List UInt8 → Except Fault (Option (List UInt8))
  | 0,        _ => throw .loop
  | fuel + 1, out => do
    if out.length < toRead then
      match readSector disc (lba + UInt32.ofNat (out.length / sectorSize)) with
      | none => return none
      | some s =>
        let offsetInSector := out.length % sectorSize
        let chunkSize := min (sectorSize - offsetInSector) (toRead - out.length)
        let bytes ← s.slice .sector offsetInSector chunkSize
        readData lba toRead fuel (out ++ bytes)
    else return some out

-- The result for an entry, and the bytes that are in the buffer then. Without a buffer the result is the size.
def readEntry (e : Buffer) (buffer : Bool) (maxSize : UInt32) : Except Fault (Int × List UInt8) := do
  if (← fileFlags e) &&& 2 ≠ 0 then return (-1, [])
  else
    let fileSize ← dataLength e
    let fileLba ← extentLoc e
    if !buffer ∨ maxSize = 0 then return (fileSize.toInt32.toInt, [])
    else
      let toRead := if fileSize < maxSize then fileSize else maxSize
      match ← readData disc fileLba toRead.toNat (toRead.toNat + 1) [] with
      | none => return (-1, [])
      | some out => return ((UInt32.ofNat out.length).toInt32.toInt, out)

def readFound (found : Option Buffer) (buffer : Bool) (maxSize : UInt32) : Except Fault (Int × List UInt8) :=
  match found with
  | none => return (-1, [])
  | some e => readEntry disc e buffer maxSize

def iso9660Read (path : CString) (buffer : Bool) (maxSize : UInt32) : Except Fault (Int × List UInt8) := do
  match readSector disc 16 with
  | none => return (-1, [])
  | some s =>
    if !isPvd s then return (-1, [])
    else if path = [CString.slash] then return (0, [])
    else readFound disc (← lookup disc (rootEntry s) path) buffer maxSize

end

section

variable (disc : Disc)

-- The first of the sectors 16 to 31 that is a primary volume descriptor.
def findPvd : List Nat → Option Buffer
  | [] => none
  | lba :: l =>
    match readSector disc (UInt32.ofNat lba) with
    | none => none
    | some s => if isPvd s then some s else findPvd l

-- The array has room for 65 pointers.
def maxEntries : Nat := 65

def isSpecial (s : Buffer) (o : Nat) : Except Fault Bool := do
  if (← s.load8 .sector (o + 32)) = 1 then return (← s.load8 .sector (o + 33)) ≤ 1 else return false

def listSector (s : Buffer) : Nat → Nat → List Buffer → Except Fault (List Buffer)
  | 0,        _, _ => throw .loop
  | fuel + 1, o, entries => do
    if o < sectorSize then
      let length ← s.load8 .sector o
      if length = 0 then return entries
      else if ← isSpecial s o then listSector s fuel (o + length.toNat) entries
      else
        let e ← copyEntry s o
        if entries.length < maxEntries then listSector s fuel (o + length.toNat) (entries ++ [e])
        else throw .entries
    else return entries

def listFrom (dirLba dirSize : UInt32) : Nat → UInt32 → List Buffer → Except Fault (List Buffer)
  | 0,        _,         _ => throw .loop
  | fuel + 1, bytesRead, entries => do
    if bytesRead < dirSize ∧ entries.length < 64 then
      match readSector disc (dirLba + bytesRead / 2048) with
      | none => return entries
      | some s =>
        let entries ← listSector s (sectorSize + 1) 0 entries
        listFrom dirLba dirSize fuel (bytesRead + 2048) entries
    else return entries

def iso9660ListDir (path : CString) : Except Fault (Option (List Buffer)) := do
  match findPvd disc ((List.range 16).map (16 + ·)) with
  | none => return none
  | some s =>
    match ← lookup disc (rootEntry s) path with
    | none => return none
    | some e =>
      let lba ← extentLoc e
      let size ← dataLength e
      return some (← listFrom disc lba size (2 ^ 21 + 1) 0 [])

-- The files of the destination, where files and directories can be created and written.
abbrev Files := CString → Option (List UInt8)

def iso9660CopyFile (isoPath vfsPath : CString) (files : Files) : Except Fault (Int × Files) := do
  let (fileSize, _) ← iso9660Read disc isoPath false 0
  if fileSize < 0 then return (-1, files)
  else if fileSize = 0 then return (0, Function.update files vfsPath (some []))
  else
    let (bytesRead, data) ← iso9660Read disc isoPath true (UInt32.ofNat fileSize.toNat)
    if bytesRead ≤ 0 then return (-1, files)
    else return (0, Function.update files vfsPath (some data))

-- `snprintf` with the format `%s/%s` and a buffer of 256 characters.
def join (path filename : CString) : CString :=
  (path ++ CString.slash :: filename).take 255

section

variable (copy : CString → CString → Files → Except Fault (Int × Files)) (isoPath vfsPath : CString)

-- Files are copied, and `copy` is for directories.
def copyOne (e : Buffer) (files : Files) : Except Fault (Int × Files) := do
  let filename := nameOf (← e.slice .entry 33 (← fileIdLength e).toNat)
  if (← fileFlags e) &&& 2 ≠ 0 then copy (join isoPath filename) (join vfsPath filename) files
  else iso9660CopyFile disc (join isoPath filename) (join vfsPath filename) files

-- The entries are read up to the first null pointer of the array.
def copyEntries : List Buffer → Nat → Files → Except Fault Files
  | [],     i, files => if i < maxEntries then return files else throw .entries
  | e :: l, i, files => do
    let (_, files) ← copyOne disc copy isoPath vfsPath e files
    copyEntries l (i + 1) files

end

def iso9660Copy : Nat → CString → CString → Files → Except Fault (Int × Files)
  | 0,        _,       _,       _ => throw .loop
  | fuel + 1, isoPath, vfsPath, files => do
    match ← iso9660ListDir disc isoPath with
    | none => iso9660CopyFile disc isoPath vfsPath files
    | some entries => return (0, ← copyEntries disc (iso9660Copy fuel) isoPath vfsPath entries 0 files)

end

end Iso9660
