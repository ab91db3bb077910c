import VoidFrame.Library.Linked
import VoidFrame.Sched.EEVDF.State

namespace MLFQ

open EEVDF (Slot maxProcesses ProcessState TerminationReason Registers privSystem)
open Linked (Links Ends)

abbrev maxPriorityLevels : Nat := 5

instance : NeZero maxPriorityLevels := ⟨by decide⟩

-- An index into the array `queues`. A process has a priority that need not be one.
abbrev Level := Fin maxPriorityLevels

def rtPriorityThreshold : Nat := 3

def quantumBase : UInt32 := 4

def quantumDecayShift : Nat := 1

def quantumMin : UInt32 := 2

def quantumMax : UInt32 := 64

abbrev cpuBurstHistory : Nat := 4

instance : NeZero cpuBurstHistory := ⟨by decide⟩

def procFlagImmune : UInt8 := 0x1

def procFlagCritical : UInt8 := 0x2

def procFlagSupervisor : UInt8 := 0x8

def procFlagCore : UInt8 := procFlagImmune ||| procFlagSupervisor ||| procFlagCritical

-- An index into the array `scheduler_node_pool`, which stands for the address of the node there.
abbrev NodeId := Fin maxProcesses

structure SecurityToken where
  magic : UInt64 := 0
  creatorPid : UInt32 := 0
  privilege : UInt8 := 0
  flags : UInt8 := 0
  creationTick : UInt64 := 0
  checksum : UInt64 := 0

-- The defaults are those of a cleared block.
structure ProcessControlBlock where
  pid : UInt32 := 0
  state : ProcessState := .terminated
  stack : UInt64 := 0
  priority : UInt8 := 0
  basePriority : UInt8 := 0
  privilegeLevel : UInt8 := 0
  cpuBurstHistory : Fin cpuBurstHistory → UInt32 := fun _ => 0
  ioOperations : UInt32 := 0
  cpuTimeAccumulated : UInt64 := 0
  lastScheduledTick : UInt64 := 0
  termReason : TerminationReason := .normal
  exitCode : UInt32 := 0
  terminationTime : UInt64 := 0
  token : SecurityToken := {}
  context : Registers := {}
  schedulerNode : Option NodeId := none
  creationTime : UInt64 := 0
  processRuntimePath : String := ""

structure PriorityQueue extends Ends NodeId where
  count : UInt32 := 0
  quantum : UInt32 := 0
  totalWaitTime : UInt32 := 0

-- The state of the scheduler. The nodes of the pool are given by their slots and their links, and
-- `schedulerLock` tells whether the lock is held.
structure State where
  processes : Slot → ProcessControlBlock := fun _ => {}
  nodeSlots : NodeId → Slot := fun _ => 0
  links : NodeId → Links NodeId := fun _ => {}
  nodeBitmap : Bitmap 32 := fun _ => 0
  queues : Level → PriorityQueue := fun _ => {}
  currentRunning : Slot := 0
  tickCounter : UInt32 := 0
  quantumRemaining : UInt32 := 0
  lastBoostTick : UInt32 := 0
  activeBitmap : BitVec 32 := 0
  rtBitmap : BitVec 32 := 0
  totalProcesses : UInt32 := 0
  pidBitmap : Bitmap 64 := fun _ => 0
  currentProcess : Slot := 0
  processCount : UInt32 := 0
  activeProcessBitmap : BitVec 64 := 0
  terminationQueue : Slot → Slot := fun _ => 0
  termQueueHead : Slot := 0
  termQueueTail : Slot := 0
  termQueueCount : Nat := 0
  securityViolationCount : UInt32 := 0
  schedulerLock : Bool := false
  apicTicks : UInt32 := 0

-- The ways in which the scheduler stops: it panics, loops forever, waits for a lock that it holds
-- itself, or leaves the bounds of an array.
inductive Fault
  | panic (message : String)
  | stuck
  | deadlock
  | outOfBounds
  deriving DecidableEq, Repr

namespace State

def setProcess (s : State) (p : Slot) (pcb : ProcessControlBlock) : State :=
  { s with processes := Function.update s.processes p pcb }

def modifyProcess (s : State) (p : Slot) (f : ProcessControlBlock → ProcessControlBlock) : State :=
  s.setProcess p (f (s.processes p))

section

variable {s : State} {p q : Slot} {pcb : ProcessControlBlock}
  {f : ProcessControlBlock → ProcessControlBlock}

@[simp]
lemma setProcess_self : (s.setProcess p pcb).processes p = pcb :=
  Function.update_self ..

lemma setProcess_of_ne (h : q ≠ p) : (s.setProcess p pcb).processes q = s.processes q :=
  Function.update_of_ne h ..

@[simp]
lemma modifyProcess_self : (s.modifyProcess p f).processes p = f (s.processes p) :=
  setProcess_self

lemma modifyProcess_of_ne (h : q ≠ p) : (s.modifyProcess p f).processes q = s.processes q :=
  setProcess_of_ne h

end

def setSchedulerNode (s : State) (p : Slot) (n : Option NodeId) : State :=
  s.modifyProcess p fun pcb => { pcb with schedulerNode := n }

def modifyQueue (s : State) (l : Level) (f : PriorityQueue → PriorityQueue) : State :=
  { s with queues := Function.update s.queues l (f (s.queues l)) }

def setLinks (s : State) (l : Level) (r : (NodeId → Links NodeId) × Ends NodeId) : State :=
  { s.modifyQueue l fun q => { q with toEnds := r.2 } with links := r.1 }

def systemTicks (s : State) : UInt64 :=
  s.apicTicks.toUInt64

def lockScheduler (s : State) : Except Fault State :=
  if s.schedulerLock then throw .deadlock else return { s with schedulerLock := true }

def unlockScheduler (s : State) : State :=
  { s with schedulerLock := false }

def getCurrentProcessByPID (s : State) (pid : UInt32) : Option Slot :=
  (List.finRange maxProcesses).find? fun i =>
    (s.processes i).pid = pid && (s.processes i).state ≠ .terminated

def level (priority : Nat) : Except Fault Level :=
  if h : priority < maxPriorityLevels then return ⟨priority, h⟩ else throw .outOfBounds

end State

end MLFQ
