import VoidFrame.Library.BitRange
import VoidFrame.Library.Machine
import VoidFrame.Library.Returns

-- The allocator of physical pages.

namespace PMem

def pageSize : Nat := 4096

def hugePageSize : Nat := 2 * 1024 * 1024

def maxPages : Nat := 128 * 1024 * 1024 * 1024 / pageSize

def lowmemPages : Nat := 0x100000 / pageSize

def pagesPerHuge : Nat := hugePageSize / pageSize

-- The allocator leaves the bounds of the bitmap, a loop does not end, or `MemoryInit` returns `-1`.
inductive Fault
  | outOfBounds
  | stuck
  | noRoom
  deriving DecidableEq, Repr

-- The state after `MemoryInit`. Sums of 64 bits are taken modulo `2 ^ 64` wherever they can wrap.
structure State where
  pageBitmap : Bitmap 64
  totalPages : Nat
  usedPages : Nat := 0
  nextFreeHint : Nat := lowmemPages
  bound : totalPages ≤ maxPages

namespace State

def bitmapWords (s : State) : Nat :=
  (s.totalPages + 63) / 64

def word (s : State) (w : Nat) : Except Fault (BitVec 64) :=
  if w < s.bitmapWords then return s.pageBitmap w else throw .outOfBounds

end State

def markPageUsed (s : State) (page : Nat) : State :=
  if s.totalPages ≤ page ∨ s.bitmapWords ≤ page / 64 then s
  else if !s.pageBitmap.get page then
    { s with pageBitmap := s.pageBitmap.set page, usedPages := (s.usedPages + 1) % 2 ^ 64 }
  else s

def markPageFree (s : State) (page : Nat) : State :=
  if s.totalPages ≤ page ∨ s.bitmapWords ≤ page / 64 then s
  else if s.pageBitmap.get page then
    { s with pageBitmap := s.pageBitmap.clear page, usedPages := (s.usedPages + (2 ^ 64 - 1)) % 2 ^ 64 }
  else s

def isPageFree (s : State) (page : Nat) : Bool :=
  if s.totalPages ≤ page ∨ s.bitmapWords ≤ page / 64 then false else !s.pageBitmap.get page

-- `none` is `-1`.
def findFirstFreeBit (word : BitVec 64) : Option Nat :=
  if word = BitVec.allOnes 64 then none else some (~~~word).ctz.toNat

-- A pass of `AllocPage` over the words of the bitmap. Only the first of the two passes is stopped by the
-- end of the memory and moves the hint. The result is a page and the hint.
def searchWords (s : State) (first : Bool) : List Nat → Nat → Option Nat × Nat
  | [],      hint => (none, hint)
  | w :: ws, hint =>
    match findFirstFreeBit (s.pageBitmap w) with
    | none => searchWords s first ws hint
    | some bit =>
      let page := w * 64 + bit
      if first ∧ s.totalPages ≤ page then (none, hint)
      else if page < lowmemPages then searchWords s first ws (if first then (w + 1) * 64 else hint)
      else (some page, hint)

def wrapHint (s : State) (hint : Nat) : Nat :=
  if s.totalPages ≤ hint then lowmemPages else hint

def takePage (s : State) (page : Nat) : Option Nat × State :=
  (some (page * pageSize), { markPageUsed s page with nextFreeHint := wrapHint s (page + 1) })

-- `none` is `NULL`.
def allocPage (s : State) : Option Nat × State :=
  if (s.totalPages + (2 ^ 64 - 1)) % 2 ^ 64 ≤ s.usedPages then (none, s)
  else
    let hint := wrapHint s (if s.nextFreeHint < lowmemPages then lowmemPages else s.nextFreeHint)
    let startWord := hint / 64
    match searchWords s true (List.range' startWord (s.bitmapWords - startWord)) hint with
    | (some page, _) => takePage s page
    | (none, hint) =>
      let minWord := lowmemPages / 64
      match searchWords s false (List.range' minWord (startWord - minWord)) hint with
      | (some page, _) => takePage s page
      | (none, hint) => (none, { s with nextFreeHint := hint })

-- The last bit of a range, whose length can be `0`.
def endBit (start count : Nat) : Nat :=
  (start + count + (2 ^ 64 - 1)) % 2 ^ 64

-- The bits of a word from an offset on, and those up to an offset.
def lowMask (offset : Nat) : BitVec 64 :=
  BitVec.allOnes 64 <<< offset

def highMask (offset : Nat) : BitVec 64 :=
  BitVec.allOnes 64 >>> (63 - offset)

def wordsFree (s : State) : Nat → Nat → Except Fault Bool
  | 0,     _ => return true
  | n + 1, w => do if (← s.word w) ≠ 0 then return false else wordsFree s n (w + 1)

def rangeIsFree (s : State) (start count : Nat) : Except Fault Bool := do
  if s.totalPages < (start + count) % 2 ^ 64 then return false
  else
    let startWord := start / 64
    let endWord := endBit start count / 64
    let low := lowMask (start % 64)
    let high := highMask (endBit start count % 64)
    if startWord = endWord then return (← s.word startWord) &&& (high &&& low) = 0
    else if (← s.word startWord) &&& low ≠ 0 then return false
    else if !(← wordsFree s (endWord - (startWord + 1)) (startWord + 1)) then return false
    else return (← s.word endWord) &&& high = 0

-- The bits of a mask are changed in one word, and counted. Words in between have a mask of ones; those that
-- need no change are left alone by the code.
def maskWord (op : BitVec 64 → BitVec 64 → BitVec 64) (s : State) (w : Nat) (mask : BitVec 64) :
    Except Fault State := do
  let before ← s.word w
  let after := op before mask
  return { s with
    pageBitmap := Function.update s.pageBitmap w after
    usedPages := (s.usedPages + Bitmap.popcount after + (2 ^ 64 - Bitmap.popcount before)) % 2 ^ 64 }

def maskWords (op : BitVec 64 → BitVec 64 → BitVec 64) : Nat → State → Nat → Except Fault State
  | 0,     s, _ => return s
  | n + 1, s, w => do maskWords op n (← maskWord op s w (BitVec.allOnes 64)) (w + 1)

def rangeUpdate (op : BitVec 64 → BitVec 64 → BitVec 64) (s : State) (start count : Nat) :
    Except Fault State := do
  let startWord := start / 64
  let endWord := endBit start count / 64
  let low := lowMask (start % 64)
  let high := highMask (endBit start count % 64)
  if startWord = endWord then maskWord op s startWord (high &&& low)
  else
    let s ← maskWord op s startWord low
    let s ← maskWords op (endWord - (startWord + 1)) s (startWord + 1)
    maskWord op s endWord high

def rangeSetUsed (s : State) (start count : Nat) : Except Fault State :=
  rangeUpdate (fun before mask => before ||| mask) s start count

def rangeSetFree (s : State) (start count : Nat) : Except Fault State :=
  rangeUpdate (fun before mask => before &&& ~~~mask) s start count

-- The first start of the search, at a boundary of 2 MiB.
def hugeStart : Nat :=
  (0x100000 + (hugePageSize - 1)) / hugePageSize * hugePageSize / pageSize

-- The loop of `AllocHugePages`. It takes fewer rounds than there are pages.
def hugeLoop (s : State) (needed : Nat) : Nat → Nat → Except Fault (Option Nat × State)
  | 0,        _ => throw .stuck
  | fuel + 1, start => do
    if (start + needed) % 2 ^ 64 ≤ s.totalPages then
      if ← rangeIsFree s start needed then
        let s ← rangeSetUsed s start needed
        return (some (start * pageSize), { s with nextFreeHint := wrapHint s ((start + needed) % 2 ^ 64) })
      else hugeLoop s needed fuel (start + pagesPerHuge)
    else return (none, s)

def allocHugePages (s : State) (numPages : UInt64) : Except Fault (Option Nat × State) :=
  hugeLoop s (numPages.toNat * pagesPerHuge % 2 ^ 64) (s.totalPages + 1) hugeStart

def freeHugePages (s : State) (pages numPages : UInt64) : Except Fault State := do
  if pages = 0 ∨ numPages = 0 then return s
  else if pages.toNat % hugePageSize ≠ 0 then return s
  else
    let startPage := pages.toNat / pageSize
    let totalToFree := numPages.toNat * pagesPerHuge % 2 ^ 64
    if s.totalPages < (startPage + totalToFree) % 2 ^ 64 then return s
    else
      let s ← rangeSetFree s startPage totalToFree
      return if startPage < s.nextFreeHint then { s with nextFreeHint := startPage } else s

def freePage (s : State) (page : UInt64) : State :=
  if page = 0 then s
  else if page.toNat % pageSize ≠ 0 then s
  else
    let pageIdx := page.toNat / pageSize
    if s.totalPages ≤ pageIdx then s
    else if isPageFree s pageIdx then s
    else
      let s := markPageFree s pageIdx
      if pageIdx < s.nextFreeHint then { s with nextFreeHint := pageIdx } else s

-- What a caller holds: a page, or the pages of a call of `AllocHugePages`.
inductive Block
  | page (addr : UInt64)
  | huge (addr numPages : UInt64)
  deriving DecidableEq, Repr

namespace Block

def addr : Block → UInt64
  | page addr | huge addr _ => addr

def count : Block → Nat
  | page _ => 1
  | huge _ numPages => numPages.toNat * pagesPerHuge

def start (b : Block) : Nat :=
  b.addr.toNat / pageSize

def Contains (b : Block) (i : Nat) : Prop :=
  b.start ≤ i ∧ i < b.start + b.count

instance decidableContains (b : Block) : DecidablePred b.Contains :=
  fun i => inferInstanceAs (Decidable (b.start ≤ i ∧ i < b.start + b.count))

end Block

-- The allocator and the blocks that callers hold.
structure World where
  memory : State
  held : List Block := []

inductive Action
  | allocPage
  | freePage (page : UInt64)
  | allocHugePages (numPages : UInt64)
  | freeHugePages (pages numPages : UInt64)
  deriving DecidableEq, Repr

-- A block is held from the call that returns it.
def World.hold (w : World) (block : UInt64 → Block) : Option Nat × State → World
  | (none, s) => { w with memory := s }
  | (some addr, s) => { memory := s, held := block (.ofNat addr) :: w.held }

def exec (w : World) : Action → Except Fault World
  | .allocPage => return w.hold .page (allocPage w.memory)
  | .freePage page =>
    return { memory := freePage w.memory page, held := w.held.erase (.page page) }
  | .allocHugePages numPages => return w.hold (.huge · numPages) (← allocHugePages w.memory numPages)
  | .freeHugePages pages numPages =>
    return { memory := ← freeHugePages w.memory pages numPages, held := w.held.erase (.huge pages numPages) }

-- The size of a block is that of the memory at most, and callers free what they hold.
def Admits (w : World) : Action → Prop
  | .allocPage => True
  | .freePage page => .page page ∈ w.held
  | .allocHugePages numPages => 1 ≤ numPages ∧ numPages.toNat * pagesPerHuge ≤ w.memory.totalPages
  | .freeHugePages pages numPages => .huge pages numPages ∈ w.held

instance decidableAdmits (w : World) (a : Action) : Decidable (Admits w a) := by
  cases a <;> unfold Admits <;> infer_instance

end PMem
