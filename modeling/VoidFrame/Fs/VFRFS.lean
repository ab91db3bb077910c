import VoidFrame.Library.CString
import VoidFrame.Library.Machine
import VoidFrame.Library.Returns

namespace VFRFS

open CString (slash dot)

abbrev maxFilename : Nat := 64

abbrev maxPath : Nat := 256

abbrev maxOpenFiles : Nat := 32

abbrev maxFsNodes : Nat := 128

inductive NodeType
  | file
  | directory
  deriving DecidableEq, Repr

def fsRead : UInt32 := 1

def fsWrite : UInt32 := 2

def fsAppend : UInt32 := 4

abbrev NodeId := Fin maxFsNodes

abbrev HandleId := Fin maxOpenFiles

instance : NeZero maxFsNodes := ⟨by decide⟩

local instance : NeZero maxOpenFiles := ⟨by decide⟩

-- The times of a node are left out, as the clock always shows 0.
structure FsNode where
  name : CString := []
  type : NodeType := .file
  size : UInt64 := 0
  data : Option (List UInt8) := none
  parent : Option NodeId := none
  children : Option NodeId := none
  lastChild : Option NodeId := none
  nextSibling : Option NodeId := none
  prevSibling : Option NodeId := none
  nodeId : UInt32 := 0

structure FileHandle where
  node : Option NodeId := none
  position : UInt64 := 0
  flags : UInt32 := 0
  fd : UInt32 := 0
  ownerPid : UInt32 := 0

structure State where
  rootNode : Option NodeId := none
  handles : HandleId → FileHandle := fun _ => {}
  nodes : NodeId → FsNode := fun _ => {}
  nextNodeIdxHint : Nat := 0
  nextHandleIdxHint : Nat := 0
  nextNodeId : UInt32 := 1
  nextFd : UInt32 := 1

-- What keeps a call from returning.
inductive Fault
  | stuck
  | outOfBounds
  | panic
  deriving DecidableEq, Repr

-- The value of an `int`.
def toInt (n : Nat) : Int :=
  (BitVec.ofNat 32 n).toInt

namespace State

def setNode (s : State) (n : NodeId) (node : FsNode) : State :=
  { s with nodes := Function.update s.nodes n node }

def modifyNode (s : State) (n : NodeId) (f : FsNode → FsNode) : State :=
  s.setNode n (f (s.nodes n))

def setChildren (s : State) (n : NodeId) (children : Option NodeId) : State :=
  s.modifyNode n fun node => { node with children }

def setLastChild (s : State) (n : NodeId) (lastChild : Option NodeId) : State :=
  s.modifyNode n fun node => { node with lastChild }

def setNextSibling (s : State) (n : NodeId) (nextSibling : Option NodeId) : State :=
  s.modifyNode n fun node => { node with nextSibling }

def setPrevSibling (s : State) (n : NodeId) (prevSibling : Option NodeId) : State :=
  s.modifyNode n fun node => { node with prevSibling }

def setHandle (s : State) (i : HandleId) (handle : FileHandle) : State :=
  { s with handles := Function.update s.handles i handle }

end State

def allocNode (s : State) : Option (NodeId × State) :=
  let order := (List.range maxFsNodes).map fun i => Fin.ofNat maxFsNodes (s.nextNodeIdxHint + i)
  (order.find? fun idx => (s.nodes idx).nodeId = 0).map fun idx =>
    let s := s.modifyNode idx fun node => { node with nodeId := s.nextNodeId }
    (idx, { s with nextNodeId := s.nextNodeId + 1, nextNodeIdxHint := idx + 1 })

def freeNode (s : State) (n : NodeId) : State :=
  s.setNode n {}

def allocHandle (s : State) : Option (HandleId × State) :=
  let order := (List.range maxOpenFiles).map fun i => Fin.ofNat maxOpenFiles (s.nextHandleIdxHint + i)
  (order.find? fun idx => (s.handles idx).fd = 0).map fun idx =>
    let s := s.setHandle idx { s.handles idx with fd := s.nextFd }
    let nextFd := s.nextFd + 1
    (idx, { s with nextFd := if nextFd = 0 then 1 else nextFd, nextHandleIdxHint := idx + 1 })

def getHandle (s : State) (fd : Int) : Option HandleId :=
  if fd ≤ 0 then none
  else (List.finRange maxOpenFiles).find? fun i => ((s.handles i).fd.toNat : Int) = fd

-- Memory is zeroed, but the hints and the counters stay.
def init (s : State) : Int × State :=
  let s := { s with handles := fun _ => {}, nodes := fun _ => {} }
  match allocNode s with
  | none => (-1, { s with rootNode := none })
  | some (root, s) =>
    let s := s.modifyNode root fun node => { node with name := [slash], type := .directory }
    (0, { s with rootNode := some root })

def findChild (s : State) (name : CString) : Nat → Option NodeId → Except Fault (Option NodeId)
  | _,        none => return none
  | 0,        some _ => throw .stuck
  | fuel + 1, some child =>
    if (s.nodes child).name = name then return some child
    else findChild s name fuel (s.nodes child).nextSibling

def linkNode (s : State) (node parent : NodeId) : State :=
  match (s.nodes parent).lastChild with
  | none => (s.setChildren parent (some node)).setLastChild parent (some node)
  | some last =>
    let s := s.setPrevSibling node (some last)
    let s := s.setNextSibling last (some node)
    s.setLastChild parent (some node)

def addNode (s : State) (name : CString) (type : NodeType) (parent : NodeId) : Option NodeId × State :=
  match allocNode s with
  | none => (none, s)
  | some (node, s) =>
    let name := CString.strncpy name (maxFilename - 1)
    let s := s.modifyNode node fun n => { n with name, type, parent := some parent }
    (some node, linkNode s node parent)

def createNode (s : State) (name : Option CString) (type : NodeType) (parent : Option NodeId) :
    Except Fault (Option NodeId × State) :=
  match name, parent with
  | some name, some parent =>
    if (s.nodes parent).type ≠ .directory ∨ name = [] then return (none, s)
    else do
      match ← findChild s name maxFsNodes (s.nodes parent).children with
      | some _ => return (none, s)
      | none => return addNode s name type parent
  | _, _ => return (none, s)

-- The components of a path. A long one is cut into pieces.
def split : Nat → CString → List CString
  | 0,        _ => []
  | fuel + 1, path =>
    let path := path.dropWhile (· = slash)
    if path = [] then []
    else
      let name := (path.takeWhile (· ≠ slash)).take (maxFilename - 1)
      name :: split fuel (path.drop name.length)

def components (path : CString) : List CString :=
  split path.length path

def findFrom (s : State) (current : NodeId) : List CString → Except Fault (Option NodeId)
  | [] => return some current
  | name :: rest =>
    if name = [dot] then findFrom s current rest
    else if name = [dot, dot] then findFrom s ((s.nodes current).parent.getD current) rest
    else do
      match ← findChild s name maxFsNodes (s.nodes current).children with
      | none => return none
      | some child => findFrom s child rest

def find (s : State) (path : Option CString) : Except Fault (Option NodeId) :=
  match path, s.rootNode with
  | some path, some root =>
    if path = [slash] then return some root else findFrom s root (components path)
  | _, _ => return none

def lastSlash (path : CString) : Nat :=
  path.length - 1 - path.reverse.idxOf slash

-- The parent of a path, with the name of the child. The path of the parent is copied to a buffer.
def findParent (s : State) (path : Option CString) : Except Fault (Option (NodeId × CString)) :=
  match path with
  | none => return none
  | some path =>
    if path.head? ≠ some slash then return none
    else
      let last := lastSlash path
      let name := path.drop (last + 1)
      if name = [] then return none
      else if maxPath ≤ last then throw .outOfBounds
      else do
        let parentPath := if last = 0 then [slash] else path.take last
        let parent ← find s (some parentPath)
        return parent.map (·, CString.strncpy name (maxFilename - 1))

def mkdir (s : State) (path : Option CString) : Except Fault (Int × State) := do
  match ← findParent s path with
  | none => return (-1, s)
  | some (parent, name) =>
    let (node, s) ← createNode s (some name) .directory (some parent)
    return (if node.isSome then 0 else -1, s)

def unlinkNode (s : State) (n : NodeId) : State :=
  let node := s.nodes n
  match node.parent with
  | none => s
  | some parent =>
    let s := match node.prevSibling with
      | some prev => s.setNextSibling prev node.nextSibling
      | none => s.setChildren parent node.nextSibling
    match node.nextSibling with
    | some next => s.setPrevSibling next node.prevSibling
    | none => s.setLastChild parent node.prevSibling

def delete (s : State) (path : Option CString) : Except Fault (Int × State) := do
  match ← find s path with
  | none => return (-1, s)
  | some n =>
    let node := s.nodes n
    if node.parent.isNone ∨ node.type = .directory ∧ node.children.isSome then return (-1, s)
    else return (0, freeNode (unlinkNode s n) n)

def rmdir (s : State) (path : Option CString) : Except Fault (Int × State) := do
  match ← find s path with
  | none => return (-1, s)
  | some n => if (s.nodes n).type ≠ .directory then return (-1, s) else delete s path

def deleteLoop (delete : State → NodeId → Except Fault State) :
    Nat → State → Option NodeId → Except Fault State
  | _,        s, none => return s
  | 0,        _, some _ => throw .stuck
  | fuel + 1, s, some child => do
    let next := (s.nodes child).nextSibling
    let s ← delete s child
    deleteLoop delete fuel s next

def deleteRecursiveI : Nat → State → NodeId → Except Fault State
  | 0,        _, _ => throw .stuck
  | fuel + 1, s, n => do
    let s ← if (s.nodes n).type = .directory
      then deleteLoop (deleteRecursiveI fuel) maxFsNodes s (s.nodes n).children
      else pure s
    return freeNode s n

def deleteRecursive (s : State) (path : Option CString) : Except Fault (Int × State) := do
  match ← find s path with
  | none => return (-1, s)
  | some n =>
    if (s.nodes n).parent.isNone then return (-1, s)
    else return (0, ← deleteRecursiveI maxFsNodes (unlinkNode s n) n)

def openNode (s : State) (path : Option CString) (flags : UInt32) :
    Except Fault (Option NodeId × State) := do
  match ← find s path with
  | some node => return (some node, s)
  | none =>
    if flags &&& fsWrite = 0 then return (none, s)
    else match ← findParent s path with
      | none => return (none, s)
      | some (parent, name) => createNode s (some name) .file (some parent)

-- `pid` is the PID of the current process.
def «open» (s : State) (path : Option CString) (flags : UInt32) (pid : UInt32) :
    Except Fault (Int × State) := do
  match ← openNode s path flags with
  | (none, s) => return (-1, s)
  | (some node, s) =>
    if (s.nodes node).type ≠ .file then return (-1, s)
    else match allocHandle s with
      | none => return (-1, s)
      | some (i, s) =>
        let handle := { s.handles i with
          node := some node
          position := if flags &&& fsAppend ≠ 0 then (s.nodes node).size else 0
          flags
          ownerPid := pid }
        return (toInt handle.fd.toNat, s.setHandle i handle)

def close (s : State) (fd : Int) : Int × State :=
  match getHandle s fd with
  | none => (-1, s)
  | some i => (0, s.setHandle i {})

-- A null pointer to the buffer is `false`. The bytes that are read are returned.
def read (s : State) (fd : Int) (buffer : Bool) (size : UInt64) :
    Except Fault (Int × List UInt8 × State) :=
  match getHandle s fd with
  | none => return (-1, [], s)
  | some i =>
    let handle := s.handles i
    if handle.flags &&& fsRead = 0 ∨ !buffer then return (-1, [], s)
    else match handle.node.bind fun n => (s.nodes n).data.map (n, ·) with
      | none => return (0, [], s)
      | some (n, data) =>
        let readable := (s.nodes n).size - handle.position
        let count := if readable < size then readable else size
        if count = 0 then return (0, [], s)
        else if data.length < handle.position.toNat + count.toNat then throw .outOfBounds
        else
          let bytes := (data.drop handle.position.toNat).take count.toNat
          let s := s.setHandle i { handle with position := handle.position + count }
          return (toInt count.toNat, bytes, s)

def splice (data : List UInt8) (position : Nat) (bytes : List UInt8) : List UInt8 :=
  data.take position ++ bytes ++ data.drop (position + bytes.length)

-- `KernelReallocate`: the new bytes are what is found in the memory.
def reallocate (data : Option (List UInt8)) (size : Nat) (memory : Nat → UInt8) : List UInt8 :=
  let old := data.getD []
  old.take size ++ (List.range' old.length (size - old.length)).map memory

-- The largest size that `KernelReallocate` does not panic for.
def maxSmallAllocSize : Nat := 1024

-- The part of `FsWrite` that makes room. `memory` is what new memory holds, or `none` if there is none.
def grow (node : FsNode) (size : UInt64) (memory : Option (Nat → UInt8)) : Except Fault (Option FsNode) :=
  if node.size < size then
    if maxSmallAllocSize < size.toNat then throw .panic
    else return memory.map fun memory =>
      { node with data := some (reallocate node.data size.toNat memory), size }
  else return some node

def write (s : State) (fd : Int) (buffer : Option (List UInt8)) (memory : Option (Nat → UInt8)) :
    Except Fault (Int × State) :=
  match getHandle s fd, buffer with
  | some i, some bytes =>
    let handle := s.handles i
    let size := UInt64.ofNat bytes.length
    if handle.flags &&& fsWrite = 0 then return (-1, s)
    else if size = 0 then return (0, s)
    else match handle.node with
      | none => return (-1, s)
      | some n => do
        match ← grow (s.nodes n) (handle.position + size) memory with
        | none => return (-1, s)
        | some node =>
          match node.data with
          | none => throw .outOfBounds
          | some data =>
            if data.length < handle.position.toNat + bytes.length then throw .outOfBounds
            else
              let s := s.setNode n { node with data := some (splice data handle.position.toNat bytes) }
              let s := s.setHandle i { handle with position := handle.position + size }
              return (toInt bytes.length, s)
  | _, _ => return (-1, s)

inductive Whence
  | set
  | cur
  | end
  deriving DecidableEq, Repr

-- A value of `whence` that is none of the three is `none`.
def seek (s : State) (fd : Int) (offset : Int64) (whence : Option Whence) : Int64 × State :=
  match getHandle s fd with
  | none => (-1, s)
  | some i =>
    let handle := s.handles i
    match handle.node, whence with
    | some n, some whence =>
      let newPos := match whence with
        | .set => offset
        | .cur => handle.position.toInt64 + offset
        | .end => (s.nodes n).size.toInt64 + offset
      if newPos < 0 then (-1, s)
      else (newPos, s.setHandle i { handle with position := newPos.toUInt64 })
    | _, _ => (-1, s)

inductive Action
  | init
  | createNode (name : Option CString) (type : NodeType) (parent : Option NodeId)
  | mkdir (path : Option CString)
  | open (path : Option CString) (flags pid : UInt32)
  | close (fd : Int)
  | read (fd : Int) (buffer : Bool) (size : UInt64)
  | write (fd : Int) (buffer : Option (List UInt8)) (memory : Option (Nat → UInt8))
  | seek (fd : Int) (offset : Int64) (whence : Option Whence)
  | delete (path : Option CString)
  | rmdir (path : Option CString)
  | deleteRecursive (path : Option CString)

def exec (s : State) : Action → Except Fault State
  | .init => return (init s).2
  | .createNode name type parent => (·.2) <$> createNode s name type parent
  | .mkdir path => (·.2) <$> mkdir s path
  | .open path flags pid => (·.2) <$> «open» s path flags pid
  | .close fd => return (close s fd).2
  | .read fd buffer size => (·.2.2) <$> read s fd buffer size
  | .write fd buffer memory => (·.2) <$> write s fd buffer memory
  | .seek fd offset whence => return (seek s fd offset whence).2
  | .delete path => (·.2) <$> delete s path
  | .rmdir path => (·.2) <$> rmdir s path
  | .deleteRecursive path => (·.2) <$> deleteRecursive s path

end VFRFS
