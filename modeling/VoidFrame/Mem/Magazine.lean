import VoidFrame.Library.Machine
import VoidFrame.Library.Returns

namespace MagazineHeap

open Function (update)

abbrev maxCpuCores : Nat := 64

abbrev magazineCapacity : Nat := 32

abbrev numSizeClasses : Nat := 8

abbrev slabSize : Nat := 16384

abbrev magazinePoolSize : Nat := maxCpuCores * numSizeClasses * 2

-- The size of a `MagazineBlockHeader`: the magic number, and the size class behind it.
abbrev headerSize : Nat := 16

def magazineBlockMagic : Nat := 0x4D42484D41474E31

abbrev Cpu := Fin maxCpuCores

abbrev SizeClass := Fin numSizeClasses

abbrev MagazineId := Fin magazinePoolSize

def sizeClasses : SizeClass → Nat :=
  ![16, 32, 64, 128, 256, 512, 768, 1024]

def chunkSize (k : SizeClass) : Nat :=
  headerSize + sizeClasses k

structure Magazine where
  blocks : Nat → Nat := fun _ => 0
  count : Nat := 0
  next : Option MagazineId := none

-- The null pointer is 0.
structure Slab where
  basePtr : Nat
  blockSize : Nat
  totalBlocks : Nat
  freeBlocks : Nat
  freeListHead : Nat

-- The lists of magazines in the depot of a size class.
inductive Fill
  | full
  | partlyFull
  | empty
  deriving DecidableEq, Repr

instance : Fintype Fill :=
  ⟨{.full, .partlyFull, .empty}, fun f => by cases f <;> simp⟩

inductive Validation
  | none
  | basic
  | full
  deriving DecidableEq, Repr

-- `memory` holds the words that start at an address.
structure State where
  caches : Cpu → SizeClass → Option MagazineId := fun _ _ => none
  depots : SizeClass → Fill → Option MagazineId := fun _ _ => none
  slabs : SizeClass → List Slab := fun _ => []
  magazines : MagazineId → Magazine
  magazinePoolHead : Option MagazineId
  memory : Nat → Nat
  validation : Validation := .none

-- What keeps a call from returning, or leads out of this heap.
inductive Fault
  | panic
  | outOfBounds
  | foreign
  deriving DecidableEq, Repr

-- The answers of `VMemAlloc` for a `Slab` and for the memory of a slab.
structure VMem where
  slab : Bool
  memory : Option Nat

-- `MagazineInit` links the magazines to the pool.
def init (memory : Nat → Nat) : State where
  magazines := fun m => { next := if h : m + 1 < magazinePoolSize then some ⟨m + 1, h⟩ else none }
  magazinePoolHead := some 0
  memory

namespace State

def setMagazine (s : State) (m : MagazineId) (mag : Magazine) : State :=
  { s with magazines := update s.magazines m mag }

def setCache (s : State) (cpu : Cpu) (k : SizeClass) (m : Option MagazineId) : State :=
  { s with caches := update s.caches cpu (update (s.caches cpu) k m) }

def setDepot (s : State) (k : SizeClass) (f : Fill) (m : Option MagazineId) : State :=
  { s with depots := update s.depots k (update (s.depots k) f m) }

def setPool (s : State) (m : Option MagazineId) : State :=
  { s with magazinePoolHead := m }

def setSlabs (s : State) (k : SizeClass) (slabs : List Slab) : State :=
  { s with slabs := update s.slabs k slabs }

def setMemory (s : State) (memory : Nat → Nat) : State :=
  { s with memory }

end State

def getSizeClass (size : Nat) : Option SizeClass :=
  (List.finRange numSizeClasses).find? fun k => size ≤ sizeClasses k

def allocMagazine (s : State) : Option (MagazineId × State) :=
  s.magazinePoolHead.map fun m =>
    let mag := s.magazines m
    (m, (s.setPool mag.next).setMagazine m { mag with count := 0, next := none })

def freeMagazine (s : State) (m : MagazineId) : State :=
  (s.setMagazine m { s.magazines m with next := s.magazinePoolHead }).setPool (some m)

def popDepot (s : State) (k : SizeClass) (f : Fill) (m : MagazineId) : State :=
  let mag := s.magazines m
  (s.setDepot k f mag.next).setMagazine m { mag with next := none }

def pushDepot (s : State) (k : SizeClass) (f : Fill) (m : MagazineId) : State :=
  (s.setMagazine m { s.magazines m with next := s.depots k f }).setDepot k f (some m)

def depotReturn (s : State) (m : MagazineId) (k : SizeClass) : State :=
  let mag := s.magazines m
  if magazineCapacity ≤ mag.count then
    pushDepot (s.setMagazine m { mag with count := magazineCapacity }) k .full m
  else if 0 < mag.count then pushDepot s k .partlyFull m
  else pushDepot s k .empty m

-- `mag->blocks[mag->count++] = block`
def Magazine.push (mag : Magazine) (block : Nat) : Magazine :=
  { mag with blocks := update mag.blocks mag.count block, count := mag.count + 1 }

def fill (memory : Nat → Nat) : Nat → Slab → Magazine → Slab × Magazine
  | 0,     slab, mag => (slab, mag)
  | n + 1, slab, mag =>
    if slab.freeBlocks = 0 then (slab, mag)
    else
      let block := slab.freeListHead
      if block = 0 then fill memory n slab mag
      else
        let slab := { slab with freeListHead := memory block, freeBlocks := slab.freeBlocks - 1 }
        fill memory n slab (mag.push block)

def fillFrom (memory : Nat → Nat) (mag : Magazine) : List Slab → Option (List Slab × Magazine)
  | [] => none
  | slab :: slabs =>
    if 0 < slab.freeBlocks then
      let (slab, mag) := fill memory magazineCapacity slab mag
      some (slab :: slabs, mag)
    else (fillFrom memory mag slabs).map fun (slabs, mag) => (slab :: slabs, mag)

def buildFreeList (base size : Nat) : Nat → Nat × (Nat → Nat) → Nat × (Nat → Nat)
  | 0,     r => r
  | n + 1, r =>
    let (head, memory) := buildFreeList base size n r
    (base + n * size, update memory (base + n * size) head)

def newSlab (k : SizeClass) (base : Nat) (memory : Nat → Nat) : Slab × (Nat → Nat) :=
  let total := slabSize / chunkSize k
  let (head, memory) := buildFreeList base (chunkSize k) total (0, memory)
  ({ basePtr := base, blockSize := chunkSize k, totalBlocks := total, freeBlocks := total,
     freeListHead := head }, memory)

def refillMagazine (s : State) (k : SizeClass) (m : MagazineId) (vmem : VMem) : Option MagazineId × State :=
  match fillFrom s.memory (s.magazines m) (s.slabs k) with
  | some (slabs, mag) => (some m, (s.setSlabs k slabs).setMagazine m mag)
  | none =>
    match vmem.slab, vmem.memory with
    | true, some base =>
      let (slab, memory) := newSlab k base s.memory
      let (slab, mag) := fill memory magazineCapacity slab (s.magazines m)
      (some m, ((s.setMemory memory).setSlabs k (slab :: s.slabs k)).setMagazine m mag)
    | _, _ => (none, freeMagazine s m)

def takeEmpty (s : State) (k : SizeClass) : Option (MagazineId × State) :=
  match s.depots k .empty with
  | some m =>
    let s := popDepot s k .empty m
    some (m, s.setMagazine m { s.magazines m with count := 0 })
  | none => allocMagazine s

def depotRefill (s : State) (k : SizeClass) (vmem : VMem) : Option MagazineId × State :=
  match s.depots k .full with
  | some m => (some m, popDepot s k .full m)
  | none =>
    match s.depots k .partlyFull with
    | some m => (some m, popDepot s k .partlyFull m)
    | none =>
      match takeEmpty s k with
      | none => (none, s)
      | some (m, s) => refillMagazine s k m vmem

def memset (memory : Nat → Nat) (addr size value : Nat) : Nat → Nat :=
  fun a => if addr ≤ a ∧ a < addr + size then value else memory a

def setByte (word byte : Nat) : Nat :=
  word / 256 * 256 + byte

def writeHeader (s : State) (k : SizeClass) (block : Nat) : Nat → Nat :=
  let memory := update s.memory block magazineBlockMagic
  let memory := update memory (block + 8) (setByte (memory (block + 8)) k)
  if s.validation = .full then memset memory (block + headerSize) (sizeClasses k) 0xCDCDCDCDCDCDCDCD
  else memory

def popBlock (s : State) (k : SizeClass) (m : MagazineId) : Except Fault (Option Nat × State) :=
  let mag := s.magazines m
  if mag.count = 0 then throw .outOfBounds
  else
    let block := mag.blocks (mag.count - 1)
    let s := s.setMagazine m { mag with count := mag.count - 1 }
    return (some (block + headerSize), s.setMemory (writeHeader s k block))

def activeMagazine (s : State) (cpu : Cpu) (k : SizeClass) : Option MagazineId :=
  (s.caches cpu k).filter fun m => 0 < (s.magazines m).count

def magazineAlloc (s : State) (cpu : Cpu) (size : Nat) (vmem : VMem) : Except Fault (Option Nat × State) :=
  if size = 0 then return (none, s)
  else
    match getSizeClass size with
    | none => throw .panic
    | some k =>
      match activeMagazine s cpu k with
      | some m => popBlock s k m
      | none =>
        match depotRefill s k vmem with
        | (none, s) => return (none, s)
        | (some m, s) => popBlock (s.setCache cpu k (some m)) k m

def poisonOnFreeSmall (s : State) (ptr size : Nat) : State :=
  match s.validation with
  | .none => s
  | .basic => s.setMemory (memset s.memory ptr (if size < 32 then size else 32) 0xDDDDDDDDDDDDDDDD)
  | .full => s.setMemory (memset s.memory ptr size 0xDDDDDDDDDDDDDDDD)

def roomyMagazine (s : State) (cpu : Cpu) (k : SizeClass) : Option MagazineId :=
  (s.caches cpu k).filter fun m => (s.magazines m).count < magazineCapacity

def freeSmall (s : State) (cpu : Cpu) (k : SizeClass) (ptr : Nat) : Except Fault State :=
  let block := ptr - headerSize
  match roomyMagazine s cpu k with
  | some m =>
    let s := poisonOnFreeSmall s ptr (sizeClasses k)
    return s.setMagazine m ((s.magazines m).push block)
  | none =>
    let s := match s.caches cpu k with
      | some m => depotReturn s m k
      | none => s
    match allocMagazine s with
    | none => throw .panic
    | some (m, s) =>
      let s := poisonOnFreeSmall s ptr (sizeClasses k)
      let s := s.setMagazine m { s.magazines m with
        blocks := update (s.magazines m).blocks 0 block, count := 1, next := none }
      return s.setCache cpu k (some m)

-- A block without the header is freed by `VMemFree` or by `rust_kfree`.
def magazineFree (s : State) (cpu : Cpu) (ptr : Nat) : Except Fault State :=
  if ptr = 0 then return s
  else
    let block := ptr - headerSize
    if s.memory block ≠ magazineBlockMagic then throw .foreign
    else
      let scIdx := s.memory (block + 8) % 256
      if h : scIdx < numSizeClasses then freeSmall s cpu ⟨scIdx, h⟩ ptr else throw .outOfBounds

def flushCache (s : State) (cpu : Cpu) (k : SizeClass) : State :=
  match s.caches cpu k with
  | some m => (depotReturn s m k).setCache cpu k none
  | none => s

def magazineFlushCaches (s : State) : State :=
  (List.finRange maxCpuCores).foldl (fun s cpu =>
    (List.finRange numSizeClasses).foldl (fun s k => flushCache s cpu k) s) s

inductive Action
  | alloc (cpu : Cpu) (size : Nat) (vmem : VMem)
  | free (cpu : Cpu) (ptr : Nat)
  | flush
  | store (ptr index value : Nat)
  | setValidation (level : Validation)

-- The heap, with the allocations that are live, and the largest number of them so far. The owner of an
-- allocation can write to its words.
structure World where
  state : State
  live : List (Nat × Nat) := []
  peak : Nat := 0

namespace World

def step (w : World) : Action → Except Fault World
  | .alloc cpu size vmem => do
    let (ptr, s) ← magazineAlloc w.state cpu size vmem
    let live := (ptr.map (·, size)).toList ++ w.live
    return { state := s, live, peak := max w.peak live.length }
  | .free cpu ptr => do
    let s ← magazineFree w.state cpu ptr
    return { w with state := s, live := w.live.filter (·.1 ≠ ptr) }
  | .flush => return { w with state := magazineFlushCaches w.state }
  | .store ptr index value =>
    return { w with state := w.state.setMemory (update w.state.memory (ptr + 8 * index) value) }
  | .setValidation level => return { w with state := { w.state with validation := level } }

-- `VMemAlloc` returns memory that is not in use.
def Fresh (s : State) (vmem : VMem) : Prop :=
  ∀ base ∈ vmem.memory, base ≠ 0 ∧
    ∀ k, ∀ slab ∈ s.slabs k, base + slabSize ≤ slab.basePtr ∨ slab.basePtr + slabSize ≤ base

-- The callers free and write their allocations only.
def Legal (w : World) : Action → Prop
  | .alloc _ size vmem => size ≤ 1024 ∧ Fresh w.state vmem
  | .free _ ptr => ∃ size, (ptr, size) ∈ w.live
  | .store ptr index _ => ∃ size, (ptr, size) ∈ w.live ∧ 8 * index < size
  | _ => True

instance {s : State} {vmem : VMem} : Decidable (Fresh s vmem) :=
  inferInstanceAs (Decidable (∀ base ∈ vmem.memory, _))

lemma exists_live {w : World} {ptr : Nat} {P : Nat → Prop} :
    (∃ e ∈ w.live, e.1 = ptr ∧ P e.2) ↔ ∃ size, (ptr, size) ∈ w.live ∧ P size := by
  constructor
  · rintro ⟨⟨_, size⟩, he, rfl, hp⟩
    exact ⟨size, he, hp⟩
  · rintro ⟨size, he, hp⟩
    exact ⟨(ptr, size), he, rfl, hp⟩

instance (w : World) : (a : Action) → Decidable (w.Legal a)
  | .alloc _ size vmem => inferInstanceAs (Decidable (size ≤ 1024 ∧ Fresh w.state vmem))
  | .free _ ptr => decidable_of_iff (∃ e ∈ w.live, e.1 = ptr ∧ True) (by
    rw [exists_live (P := fun _ => True), Legal]
    simp)
  | .store ptr index _ => decidable_of_iff (∃ e ∈ w.live, e.1 = ptr ∧ 8 * index < e.2) exists_live
  | .flush | .setValidation _ => isTrue trivial

abbrev Run (ok : World → Action → Prop) : World → Prop :=
  Machine.Run (fun w => ∃ memory, w = { state := init memory }) step ok

end World

end MagazineHeap
