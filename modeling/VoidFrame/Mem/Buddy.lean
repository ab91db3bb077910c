import VoidFrame.Library.BuddySystem
import VoidFrame.Library.Chain
import VoidFrame.Library.Machine

-- The buddy allocator of virtual addresses.

namespace Buddy

def pageSize : UInt64 := 4096

def minOrder : Nat := 12

def numOrders : Nat := 30 - minOrder + 1

def hashTableSize : Nat := 4096

def maxBuddyNodes : Nat := 2048

-- The region that `VMM::init` gives to the allocator.
def lowStart : UInt64 := 0x1000

def lowEnd : UInt64 := 0x7FFFFFFFFFFF

def lowSize : UInt64 := lowEnd - lowStart + 1

abbrev Node := Fin maxBuddyNodes

structure VMemFreeBlock extends Linked.Links Node where
  base : UInt64 := 0
  size : UInt64 := 0
  hnext : Option Node := none

structure Allocator where
  freeLists : Nat → Option Node := fun _ => none
  hashTable : Nat → Option Node := fun _ => none
  nodePool : Node → VMemFreeBlock
  nodeHead : Option Node

-- A loop over a list of nodes does not end.
inductive Fault
  | stuck
  deriving DecidableEq, Repr

def hashAddress (addr : UInt64) : Nat :=
  ((addr >>> 12) * 2654435761).toUInt32.toNat % hashTableSize

def getOrder (size : UInt64) : Nat :=
  if size ≤ pageSize then 0 else (size.toNat - 1).log2 + 1 - minOrder

def orderToSize (order : Nat) : UInt64 :=
  .ofNat (2 ^ (order + minOrder))

namespace Allocator

def modify (a : Allocator) (n : Node) (f : VMemFreeBlock → VMemFreeBlock) : Allocator :=
  { a with nodePool := Function.update a.nodePool n (f (a.nodePool n)) }

-- Through a pointer that can be null.
def modify? (a : Allocator) (n : Option Node) (f : VMemFreeBlock → VMemFreeBlock) : Allocator :=
  n.elim a (a.modify · f)

end Allocator

variable (a : Allocator)

def allocBuddyNode : Option (Node × Allocator) :=
  a.nodeHead.map fun node => (node, { a with nodeHead := (a.nodePool node).next })

def releaseBuddyNode (node : Node) : Allocator :=
  { a.modify node ({ · with next := a.nodeHead }) with nodeHead := some node }

def addFreeBlock (addr : UInt64) (order : Nat) : Allocator :=
  if numOrders ≤ order then a
  else
    match allocBuddyNode a with
    | none => a
    | some (node, a) =>
      let a := a.modify node fun b =>
        { b with base := addr, size := orderToSize order, prev := none, hnext := none, next := a.freeLists order }
      let a := a.modify? (a.freeLists order) ({ · with prev := some node })
      let a := { a with freeLists := Function.update a.freeLists order (some node) }
      let hash := hashAddress addr
      let a := a.modify node ({ · with hnext := a.hashTable hash })
      { a with hashTable := Function.update a.hashTable hash (some node) }

-- The loop of `FindFreeBlock`. A list without a cycle has no more nodes than the pool.
def findLoop (addr size : UInt64) : Nat → Option Node → Except Fault (Option Node)
  | _,        none => return none
  | 0,        some _ => throw .stuck
  | fuel + 1, some curr =>
    if (a.nodePool curr).base = addr ∧ (a.nodePool curr).size = size then return some curr
    else findLoop addr size fuel (a.nodePool curr).hnext

def findFreeBlock (addr : UInt64) (order : Nat) : Except Fault (Option Node) :=
  findLoop a addr (orderToSize order) maxBuddyNodes (a.hashTable (hashAddress addr))

def unlistBlock (node : Node) (order : Nat) : Allocator :=
  let block := a.nodePool node
  let a := a.modify? block.prev ({ · with next := block.next })
  let a := if block.prev.isNone then { a with freeLists := Function.update a.freeLists order block.next } else a
  a.modify? block.next ({ · with prev := block.prev })

def unhashLoop (node : Node) (hash : Nat) : Nat → Option Node → Option Node → Except Fault Allocator
  | _,        _,    none => return a
  | 0,        _,    some _ => throw .stuck
  | fuel + 1, prev, some curr =>
    if curr = node then
      match prev with
      | some prev => return a.modify prev ({ · with hnext := (a.nodePool curr).hnext })
      | none => return { a with hashTable := Function.update a.hashTable hash (a.nodePool curr).hnext }
    else unhashLoop node hash fuel (some curr) (a.nodePool curr).hnext

def removeFreeBlock (node : Node) (order : Nat) : Except Fault Allocator := do
  let a := unlistBlock a node order
  let hash := hashAddress (a.nodePool node).base
  let a ← unhashLoop a node hash maxBuddyNodes none (a.hashTable hash)
  return releaseBuddyNode a node

-- The order of the next block in `BuddyAllocator_Create`.
def fitOrder (remaining : UInt64) : Nat → Nat
  | 0 => 0
  | order + 1 => if remaining < orderToSize (order + 1) then fitOrder remaining order else order + 1

-- Every round takes a page at least.
def createLoop : Nat → Allocator → UInt64 → UInt64 → Allocator
  | 0,        a, _,    _ => a
  | fuel + 1, a, addr, remaining =>
    if pageSize ≤ remaining then
      let order := fitOrder remaining (numOrders - 1)
      createLoop fuel (addFreeBlock a addr order) (addr + orderToSize order) (remaining - orderToSize order)
    else a

-- The links of the pool after `InitBuddyNodePool`.
def initBuddyNodePool (pool : Node → VMemFreeBlock) : Allocator where
  nodePool n := { pool n with next := if h : n.val + 1 < maxBuddyNodes then some ⟨n + 1, h⟩ else none }
  nodeHead := some ⟨0, by decide⟩

-- Nodes keep what they held before.
def create (pool : Node → VMemFreeBlock) (start size : UInt64) : Allocator :=
  createLoop (size.toNat / pageSize.toNat) (initBuddyNodePool pool) start size

def firstBlock (order : Nat) : Option (Nat × Node) :=
  (List.range' order (numOrders - order)).findSome? fun curr => (a.freeLists curr).map (curr, ·)

def splitLoop (addr : UInt64) (order : Nat) : Nat → Allocator → Allocator
  | 0,     a => a
  | n + 1, a => splitLoop addr order n (addFreeBlock a (addr + orderToSize (order + n)) (order + n))

-- The base of the block is read after its node has been released.
def allocate (size : UInt64) : Except Fault (UInt64 × Allocator) := do
  let order := getOrder size
  if numOrders ≤ order then return (0, a)
  else
    match firstBlock a order with
    | none => return (0, a)
    | some (curr, block) =>
      let a ← removeFreeBlock a block curr
      let addr := (a.nodePool block).base
      return (addr, splitLoop addr order (curr - order) a)

-- The loop of `BuddyAllocator_Free` up to the largest order.
def mergeLoop : Nat → Allocator → UInt64 → Nat → Except Fault (Allocator × UInt64 × Nat)
  | 0,     a, address, order => return (a, address, order)
  | n + 1, a, address, order => do
    let buddyAddr := address ^^^ orderToSize order
    match ← findFreeBlock a buddyAddr order with
    | none => return (a, address, order)
    | some buddy =>
      let a ← removeFreeBlock a buddy order
      mergeLoop n a (if buddyAddr < address then buddyAddr else address) (order + 1)

def free (address size : UInt64) : Except Fault Allocator := do
  let order := getOrder size
  if numOrders ≤ order then return a
  else
    let (a, address, order) ← mergeLoop (numOrders - 1 - order) a address order
    return addFreeBlock a address order

def freeBlocks (order : Nat) : List UInt64 :=
  (Linked.walk (fun n => (a.nodePool n).toLinks) maxBuddyNodes (a.freeLists order)).map (a.nodePool · |>.base)

def spareNodes : Nat :=
  (Linked.walk (fun n => (a.nodePool n).toLinks) maxBuddyNodes a.nodeHead).length

-- The allocator with the addresses and sizes of the allocations that are live.
structure World where
  allocator : Allocator
  live : List (UInt64 × UInt64) := []

namespace World

-- The blocks on the free lists, and those of the allocations, rounded up to their order.
def free (w : World) : List BuddySystem.Block :=
  (List.range numOrders).flatMap fun o => (freeBlocks w.allocator o).map (⟨·, o⟩)

def allocated (w : World) : List BuddySystem.Block :=
  w.live.map fun p => ⟨p.1, getOrder p.2⟩

end World

inductive Action
  | allocate (size : UInt64)
  | free (address size : UInt64)
  deriving DecidableEq, Repr

def exec (w : World) : Action → Except Fault World
  | .allocate size => do
    let (addr, a) ← allocate w.allocator size
    return { allocator := a, live := if addr = 0 then w.live else (addr, size) :: w.live }
  | .free address size => do
    return { allocator := ← free w.allocator address size, live := w.live.erase (address, size) }

-- Callers free what is live.
def Admits (w : World) : Action → Prop
  | .allocate _ => True
  | .free address size => (address, size) ∈ w.live

instance decidableAdmits (w : World) (a : Action) : Decidable (Admits w a) := by
  cases a <;> unfold Admits <;> infer_instance

-- There are nodes for all blocks that the action records.
def Spares (w : World) : Action → Prop
  | .allocate size => ∀ p ∈ firstBlock w.allocator (getOrder size),
    p.1 - getOrder size ≤ spareNodes w.allocator + 1
  | .free address size => 0 < spareNodes w.allocator ∨ getOrder size + 1 < numOrders ∧
    address ^^^ orderToSize (getOrder size) ∈ freeBlocks w.allocator (getOrder size)

instance decidableSpares (w : World) (a : Action) : Decidable (Spares w a) := by
  cases a <;> unfold Spares <;> infer_instance

end Buddy
