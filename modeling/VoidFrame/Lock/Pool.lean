import VoidFrame.Library.Machine
import VoidFrame.Sched.EEVDF.Tree

-- The static pools that locks are handed out from, and the locks of the message queues, which are taken
-- from the pool of spinlocks.

namespace LockPool

open Function (update)

-- A pool of `size` locks, of which the loop that frees a lock looks at the first `scanned` ones.
structure Kind where
  size : Nat
  scanned : Nat

def spinlock : Kind := ⟨256, 64⟩
def mcsLock : Kind := ⟨128, 32⟩
def mcsNode : Kind := ⟨512, 128⟩

-- A pointer to a lock of a pool is its index, and `none` is a null pointer. An index that is not below
-- the size of the pool stands for a pointer to something else.
abbrev Pointer := Option Nat

abbrev Used := Nat → Bool

namespace Kind

variable (k : Kind)

def alloc (used : Used) : Pointer × Used :=
  match (List.range k.size).find? fun i => !used i with
  | some i => (some i, update used i true)
  | none => (none, used)

def free (used : Used) : Pointer → Used
  | none => used
  | some i => if i < k.scanned then update used i false else used

end Kind

def rustSpinlockNew (used : Used) : Pointer × Used := spinlock.alloc used
def rustMcsLockNew  (used : Used) : Pointer × Used := mcsLock.alloc used
def rustMcsNodeNew  (used : Used) : Pointer × Used := mcsNode.alloc used

def rustSpinlockFree (used : Used) (lock : Pointer) : Used := spinlock.free used lock
def rustMcsLockFree  (used : Used) (lock : Pointer) : Used := mcsLock.free used lock
def rustMcsNodeFree  (used : Used) (node : Pointer) : Used := mcsNode.free used node

-- A pool, and the locks that have been handed out and not freed since.
structure State where
  used : Used := fun _ => false
  live : Used := fun _ => false

inductive Call
  | new
  | free (lock : Pointer)

def State.new (k : Kind) (s : State) : Pointer × State :=
  match k.alloc s.used with
  | (some i, used) => (some i, ⟨used, update s.live i true⟩)
  | (none, used) => (none, ⟨used, s.live⟩)

def State.free (k : Kind) (s : State) (lock : Pointer) : State where
  used := k.free s.used lock
  live := match lock with
    | none => s.live
    | some i => update s.live i false

def call (k : Kind) (s : State) : Call → Except Empty State
  | .new => .ok (s.new k).2
  | .free lock => .ok (s.free k lock)

abbrev Run (k : Kind) (ok : State → Call → Prop) := Machine.Run (fun s => s = {}) (call k) ok

-- The result of the last of `n + 1` calls that ask for a lock.
def State.handsOut (k : Kind) : Nat → State → Pointer
  | 0,     s => (s.new k).1
  | n + 1, s => handsOut k n (s.new k).2

namespace Queue

open EEVDF (Slot maxProcesses)

inductive Fault
  | panic (message : String)

-- What the locks of the message queues depend on: the slots that are taken, the pointer to the lock in
-- the control block of each slot, and the pool.
structure World where
  active : Slot → Bool := (· = 0)
  queueLock : Slot → Pointer := fun _ => none
  used : Used

-- `if (!queue->lock) queue->lock = rust_spinlock_new();`
def World.ensureLock (w : World) (p : Slot) : World :=
  match w.queueLock p with
  | some _ => w
  | none =>
    let (lock, used) := rustSpinlockNew w.used
    { w with queueLock := update w.queueLock p lock, used }

-- The control block of a slot is cleared.
def World.clear (w : World) (p : Slot) : World :=
  { w with queueLock := update w.queueLock p none }

def World.findFreeSlot (w : World) : Option Slot :=
  (List.finRange maxProcesses).find? fun p => p ≠ 0 && !w.active p

-- Both `IpcSendMessage` and `IpcReceiveMessage` create the lock. `p` is the slot of the target of a
-- message, or of the process that receives one, or of the process that is cleaned up.
inductive Action
  | create
  | send (p : Slot)
  | receive (p : Slot)
  | cleanup (p : Slot)

def step (w : World) : Action → Except Fault World
  | .create =>
    match w.findFreeSlot with
    | none   => throw (.panic "EEVDFCreateProcess: No free process slots")
    | some p => return { w.clear p with active := update w.active p true }
  | .send p => return if w.active p then w.ensureLock p else w
  | .receive p => return if w.active p then w.ensureLock p else w
  | .cleanup p =>
    if w.active p then
      -- The slot of the idle process is not given back.
      return { w.clear p with active := if 0 < p then update w.active p false else w.active }
    else return w

-- `boot` tells which spinlocks the rest of the kernel has taken.
abbrev Run (boot : Used) (ok : World → Action → Prop) := Machine.Run (fun w => w = { used := boot }) step ok

end Queue

end LockPool
