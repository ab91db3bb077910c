import VoidFrame.Ipc.Queue
import VoidFrame.Library.Bitmap
import VoidFrame.Sched.EEVDF.Tree

namespace EEVDF

inductive ProcessState
  | terminated
  | ready
  | running
  | blocked
  | zombie
  | dying
  deriving DecidableEq, Repr

-- The value of the enumerator, which enters the seal of a process.
def ProcessState.toBitVec : ProcessState → BitVec 64
  | terminated => 0
  | ready => 1
  | running => 2
  | blocked => 3
  | zombie => 4
  | dying => 5

def ProcessState.Dead (st : ProcessState) : Prop :=
  st = .dying ∨ st = .zombie ∨ st = .terminated

instance {st : ProcessState} : Decidable st.Dead :=
  inferInstanceAs (Decidable (_ ∨ _))

def ProcessState.Alive (st : ProcessState) : Prop :=
  st = .ready ∨ st = .running ∨ st = .blocked

instance {st : ProcessState} : Decidable st.Alive :=
  inferInstanceAs (Decidable (_ ∨ _))

lemma ProcessState.alive_iff {st : ProcessState} : st.Alive ↔ ¬st.Dead := by
  cases st <;> decide

inductive TerminationReason
  | normal
  | killed
  | crashed
  | security
  | resource
  deriving DecidableEq, Repr

def privSystem : UInt8 := 0

def privNorm : UInt8 := 1

def capNone : BitVec 64 := 0

def capImmune : BitVec 64 := 1 <<< 12

def capCritical : BitVec 64 := 1 <<< 13

def capSupervisor : BitVec 64 := 1 <<< 14

def capCore : BitVec 64 := capImmune ||| capSupervisor ||| capCritical

structure SecurityToken where
  magic : BitVec 64 := 0
  creatorPid : UInt32 := 0
  privilege : UInt8 := 0
  capabilities : BitVec 64 := 0
  creationTick : UInt64 := 0
  checksum : BitVec 64 := 0
  pcbHash : BitVec 64 := 0

structure Registers where
  r15 : UInt64 := 0
  r14 : UInt64 := 0
  r13 : UInt64 := 0
  r12 : UInt64 := 0
  r11 : UInt64 := 0
  r10 : UInt64 := 0
  r9 : UInt64 := 0
  r8 : UInt64 := 0
  rbp : UInt64 := 0
  rsi : UInt64 := 0
  rdi : UInt64 := 0
  rdx : UInt64 := 0
  rcx : UInt64 := 0
  rbx : UInt64 := 0
  rax : UInt64 := 0
  ds : UInt64 := 0
  es : UInt64 := 0
  fs : UInt64 := 0
  gs : UInt64 := 0
  interruptNumber : UInt64 := 0
  errorCode : UInt64 := 0
  rip : UInt64 := 0
  cs : UInt64 := 0
  rflags : UInt64 := 0
  rsp : UInt64 := 0
  ss : UInt64 := 0

-- The defaults are those of a cleared block, whose state is therefore `terminated`. A null pointer
-- to a stack is `0`.
structure ProcessControlBlock where
  pid : UInt32 := 0
  state : ProcessState := .terminated
  stack : UInt64 := 0
  nice : Int := 0
  weight : UInt32 := 0
  invWeight : UInt32 := 0
  vruntime : UInt64 := 0
  deadline : UInt64 := 0
  sliceNs : UInt64 := 0
  execStart : UInt64 := 0
  sumExecRuntime : UInt64 := 0
  lastWakeup : UInt64 := 0
  rbNode : Option NodeId := none
  privilegeLevel : UInt8 := 0
  initialEntryPoint : UInt64 := 0
  cpuTimeAccumulated : UInt64 := 0
  creationTime : UInt64 := 0
  termReason : TerminationReason := .normal
  exitCode : UInt32 := 0
  terminationTime : UInt64 := 0
  token : SecurityToken := {}
  sisSeal : BitVec 64 := 0
  ipcQueue : Ipc.MessageQueue := {}
  context : Registers := {}

structure RunQueue where
  tree : RBTree
  leftmost : Option NodeId := none
  minVruntime : UInt64 := 0
  loadWeight : UInt32 := 0
  nrRunning : UInt32 := 0
  currentSlot : Slot := 0

-- The state of the scheduler. `runqueueLock` tells whether the lock is held. The remaining locks are
-- never taken while they are held, and so they are left out.
structure State where
  processes : Slot → ProcessControlBlock := fun _ => {}
  rq : RunQueue
  nodeBitmap : Bitmap 32 := fun _ => 0
  processKeys : Slot → BitVec 64 := fun _ => 0
  globalNonce : BitVec 64 := 0x1337C0DEDEADBEEF
  pidBitmap : Bitmap 64 := fun _ => 0
  currentProcess : Slot := 0
  processCount : UInt32 := 0
  needSchedule : Bool := false
  runqueueLock : Bool := false
  activeBitmap : BitVec 64 := 0
  readyBitmap : BitVec 64 := 0
  terminationQueue : Slot → Slot := fun _ => 0
  termQueueHead : Slot := 0
  termQueueTail : Slot := 0
  termQueueCount : Nat := 0
  totalProcesses : UInt32 := 0
  schedulerCalls : UInt64 := 0
  apicTicks : UInt32 := 0
  apicHz : UInt32 := 250
  nextSequenceId : UInt32 := 1

-- The ways in which the kernel stops: it panics, follows a null pointer or loops forever in the
-- run queue's tree, divides by zero, or waits for a lock that it holds itself.
inductive Fault
  | panic (message : String)
  | stuck
  | divideError
  | deadlock
  deriving DecidableEq, Repr

namespace State

def setProcess (s : State) (p : Slot) (pcb : ProcessControlBlock) : State :=
  { s with processes := Function.update s.processes p pcb }

def modifyProcess (s : State) (p : Slot) (f : ProcessControlBlock → ProcessControlBlock) : State :=
  s.setProcess p (f (s.processes p))

def setRbNode (s : State) (p : Slot) (n : Option NodeId) : State :=
  s.modifyProcess p fun pcb => { pcb with rbNode := n }

def setRq (s : State) (rq : RunQueue) : State :=
  { s with rq }

def setNodeBitmap (s : State) (m : Bitmap 32) : State :=
  { s with nodeBitmap := m }

variable {s : State} {p q : Slot} {pcb : ProcessControlBlock} {rq : RunQueue} {m : Bitmap 32}

@[simp]
lemma setRq_rq : (s.setRq rq).rq = rq := rfl

@[simp]
lemma setRq_processes : (s.setRq rq).processes = s.processes := rfl

@[simp]
lemma setRq_nodeBitmap : (s.setRq rq).nodeBitmap = s.nodeBitmap := rfl

@[simp]
lemma setNodeBitmap_rq : (s.setNodeBitmap m).rq = s.rq := rfl

@[simp]
lemma setNodeBitmap_processes : (s.setNodeBitmap m).processes = s.processes := rfl

@[simp]
lemma setNodeBitmap_nodeBitmap : (s.setNodeBitmap m).nodeBitmap = m := rfl

@[simp]
lemma setProcess_processes_self : (s.setProcess p pcb).processes p = pcb := by
  simp [setProcess]

@[simp]
lemma setProcess_processes_of_ne (h : q ≠ p) :
    (s.setProcess p pcb).processes q = s.processes q := by
  simp [setProcess, h]

@[simp]
lemma setProcess_rq : (s.setProcess p pcb).rq = s.rq := rfl

@[simp]
lemma setProcess_nodeBitmap : (s.setProcess p pcb).nodeBitmap = s.nodeBitmap := rfl

@[simp]
lemma modifyProcess_processes_self : (s.modifyProcess p f).processes p = f (s.processes p) := by
  simp [modifyProcess]

@[simp]
lemma modifyProcess_processes_of_ne (h : q ≠ p) :
    (s.modifyProcess p f).processes q = s.processes q := by
  simp [modifyProcess, h]

@[simp]
lemma modifyProcess_rq : (s.modifyProcess p f).rq = s.rq := rfl

@[simp]
lemma modifyProcess_nodeBitmap : (s.modifyProcess p f).nodeBitmap = s.nodeBitmap := rfl

@[simp]
lemma modifyProcess_processKeys : (s.modifyProcess p f).processKeys = s.processKeys := rfl

lemma modifyProcess_field {γ : Type*} (g : ProcessControlBlock → γ) (h : ∀ pcb, g (f pcb) = g pcb) :
    g ((s.modifyProcess p f).processes q) = g (s.processes q) := by
  by_cases hq : q = p
  · simp [hq, h]
  · simp [hq]

@[simp]
lemma setRbNode_rq : (s.setRbNode p n).rq = s.rq := rfl

@[simp]
lemma setRbNode_nodeBitmap : (s.setRbNode p n).nodeBitmap = s.nodeBitmap := rfl

@[simp]
lemma setRbNode_vruntime : ((s.setRbNode p n).processes q).vruntime = (s.processes q).vruntime :=
  modifyProcess_field (·.vruntime) fun _ => rfl

lemma setRbNode_rbNode :
    ((s.setRbNode p n).processes q).rbNode = if q = p then n else (s.processes q).rbNode := by
  by_cases hq : q = p
  · simp [hq, setRbNode]
  · simp [hq, setRbNode]

end State
end EEVDF
