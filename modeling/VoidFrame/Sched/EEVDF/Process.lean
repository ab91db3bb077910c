import VoidFrame.Sched.EEVDF.RunQueue
import VoidFrame.Sched.EEVDF.Security

namespace EEVDF

def cleanupMaxPerCall : Nat := 3

def kernelCodeSelector : UInt64 := 0x08

def kernelDataSelector : UInt64 := 0x10

def slotMask (slot : Slot) : BitVec 64 :=
  BitVec.twoPow 64 slot

namespace State

def systemTicks (s : State) : UInt64 :=
  s.apicTicks.toUInt64

def lockRunqueue (s : State) : Except Fault State :=
  if s.runqueueLock then throw .deadlock else return { s with runqueueLock := true }

def unlockRunqueue (s : State) : State :=
  { s with runqueueLock := false }

def markReady (s : State) (slot : Slot) : State :=
  { s with readyBitmap := s.readyBitmap ||| slotMask slot }

def clearReady (s : State) (slot : Slot) : State :=
  { s with readyBitmap := s.readyBitmap &&& ~~~slotMask slot }

def takeSlot (s : State) (slot : Slot) : State :=
  { s with activeBitmap := s.activeBitmap ||| slotMask slot }

def takePid (s : State) (pid : Nat) : State :=
  { s with pidBitmap := s.pidBitmap.set pid }

def freePid (s : State) (pid : UInt32) : State :=
  { s with pidBitmap := s.pidBitmap.clear pid.toNat }

def requestSchedule (s : State) (slot : Slot) : State :=
  { s with needSchedule := slot = s.rq.currentSlot || s.needSchedule }

def countCreated (s : State) : State :=
  { s with processCount := s.processCount + 1, totalProcesses := s.totalProcesses + 1 }

def countTerminated (s : State) : State :=
  { s with totalProcesses := s.totalProcesses - 1 }

def countCleaned (s : State) : State :=
  { s with processCount := s.processCount - 1 }

def countCall (s : State) : State :=
  { s with schedulerCalls := s.schedulerCalls + 1 }

-- The current process is recorded twice.
def setCurrent (s : State) (slot : Slot) : State :=
  { s.setRq { s.rq with currentSlot := slot } with currentProcess := slot }

def getCurrentProcessByPID (s : State) (pid : UInt32) : Option Slot :=
  (List.finRange maxProcesses).find? fun i =>
    (s.processes i).pid = pid && (s.processes i).state ≠ .terminated

end State

-- The state that `EEVDFSchedInit` leaves behind, without the shell that it may create as its last
-- step. The fields that it does not write have their initial values.
def schedInit (apicTicks apicHz : UInt32) : State :=
  let s : State := { rq := { tree := ⟨none, fun _ => ⟨none, none, none, .black, 0⟩⟩ }, apicTicks, apicHz }
  let s := s.modifyProcess 0 fun pcb => setTaskNice { pcb with
    state := .running
    privilegeLevel := privSystem
    creationTime := s.systemTicks
    execStart := s.getNS } 0
  let s := sisGenerateProcessKey s 0 0
  let s := s.modifyProcess 0 fun pcb =>
    let token : SecurityToken := {
      magic := sisMagic
      creatorPid := 0
      privilege := privSystem
      capabilities := capCore
      creationTick := pcb.creationTime
    }
    { pcb with token := { token with checksum := calculateTokenChecksum token, pcbHash := 0 } }
  let s := sisUpdateSeal s 0
  { s with processCount := 1, activeBitmap := s.activeBitmap ||| 1 }

def findFreeSlotFast (s : State) : Option (Slot × State) :=
  let current := s.activeBitmap
  if current = ~~~1 then none
  else
    let available := ~~~current &&& ~~~1
    if available = 0 then none
    else
      let slot : Slot := Fin.ofNat maxProcesses available.ctz.toNat
      some (slot, s.takeSlot slot)

def freeSlotFast (s : State) (slot : Slot) : State :=
  if 0 < slot then { s with activeBitmap := s.activeBitmap &&& ~~~slotMask slot } else s

def addToTerminationQueue (s : State) (slot : Slot) : Except Fault State :=
  if maxProcesses ≤ s.termQueueCount then throw (.panic "EEVDF: Termination queue overflow")
  else return { s with
    terminationQueue := Function.update s.terminationQueue s.termQueueTail slot
    termQueueTail := s.termQueueTail + 1
    termQueueCount := s.termQueueCount + 1
  }

def removeFromTerminationQueue (s : State) : Option (Slot × State) :=
  if s.termQueueCount = 0 then none
  else some (s.terminationQueue s.termQueueHead, { s with
    termQueueHead := s.termQueueHead + 1
    termQueueCount := s.termQueueCount - 1
  })

def allocPid (bitmap : Bitmap 64) : Option Nat :=
  (List.range' 1 (maxProcesses - 1)).find? fun i => !bitmap.get i

def initialContext (entryPoint stack : UInt64) : Registers where
  rsp := (stack &&& ~~~0xF) - 8
  rip := entryPoint
  rflags := 0x202
  cs := kernelCodeSelector
  ss := kernelDataSelector

def initProcess (s : State) (pid : UInt32) (entryPoint : UInt64) (priv : UInt8) (stack : UInt64) :
    ProcessControlBlock :=
  let proc : ProcessControlBlock := {
    pid
    state := .ready
    stack
    privilegeLevel := priv
    creationTime := s.systemTicks
  }
  { setTaskNice proc 0 with
    initialEntryPoint := entryPoint
    vruntime := s.rq.minVruntime
    execStart := s.getNS
    context := initialContext entryPoint stack
  }

def installProcess (s : State) (slot : Slot) (newPid : UInt32) (entryPoint : UInt64) (priv : UInt8)
    (capabilities : BitVec 64) (stack : UInt64) : State :=
  let s := s.setProcess slot (initProcess s newPid entryPoint priv stack)
  let s := sisGenerateProcessKey s slot newPid
  let token : SecurityToken := {
    magic := sisMagic
    creatorPid := (s.processes s.currentProcess).pid
    privilege := priv
    capabilities
    creationTick := (s.processes slot).creationTime
  }
  let s := s.modifyProcess slot fun pcb =>
    { pcb with token := { token with checksum := calculateTokenChecksum token } }
  let s := sisUpdateSeal s slot
  let s := s.modifyProcess slot fun pcb => { pcb with token.pcbHash := pcb.sisSeal }
  s.countCreated.markReady slot

-- `stack` is the result of `VMemAllocStack`.
def createSecureProcess (s : State) (entryPoint : UInt64) (priv : UInt8) (capabilities : BitVec 64)
    (stack : UInt64) : Except Fault (UInt32 × State) :=
  if entryPoint = 0 then throw (.panic "EEVDFCreateProcess: NULL entry point")
  else if maxProcesses ≤ s.processCount.toNat then
    throw (.panic "EEVDFCreateProcess: Too many processes")
  else match findFreeSlotFast s with
    | none           => throw (.panic "EEVDFCreateProcess: No free process slots")
    | some (slot, s) =>
      match allocPid s.pidBitmap with
      | none     => throw (.panic "EEVDFCreateProcess: PID exhaustion")
      | some pid =>
        if stack = 0 then throw (.panic "EEVDFCreateProcess: Failed to allocate stack")
        else do
          let newPid := UInt32.ofNat pid
          let s := installProcess (s.takePid pid) slot newPid entryPoint priv capabilities stack
          let s ← s.lockRunqueue
          let s ← enqueueTask s (some slot)
          return (newPid, s.unlockRunqueue)

-- The part that both ways to terminate a process share: it becomes a zombie, leaves the run queue and
-- waits for its cleanup.
def zombify (s : State) (slot : Slot) (reason : TerminationReason) (exitCode : UInt32) : State :=
  let s := s.modifyProcess slot fun pcb => { pcb with
    state := .zombie
    termReason := reason
    exitCode
    terminationTime := s.systemTicks
  }
  sisUpdateSeal ((s.clearReady slot).requestSchedule slot) slot

def retire (s : State) (slot : Slot) (reason : TerminationReason) (exitCode : UInt32) :
    Except Fault State := do
  let s ← (zombify s slot reason exitCode).lockRunqueue
  let s ← dequeueTask s (some slot)
  addToTerminationQueue s.unlockRunqueue slot

def asTerminate (s : State) (pid : UInt32) : Except Fault State :=
  match s.getCurrentProcessByPID pid with
  | none => return s
  | some slot =>
    if (s.processes slot).state = .terminated then return s
    else do
      let s ← retire s slot .security 666
      return s.countTerminated

-- The checks that keep a process from terminating another one.
def terminationAllowed (s : State) (caller proc : Slot) : Bool :=
  let c := s.processes caller
  let p := s.processes proc
  (c.pid = p.pid ||
    !(p.privilegeLevel = privSystem && c.privilegeLevel ≠ privSystem) &&
      p.token.capabilities &&& capImmune = 0 && p.token.capabilities &&& capCritical = 0) &&
  sisValidateProcess s caller

def terminateProcess (s : State) (pid : UInt32) (reason : TerminationReason) (exitCode : UInt32) :
    Except Fault State :=
  match s.getCurrentProcessByPID pid with
  | none => return s
  | some slot =>
    if (s.processes slot).state.Dead then return s
    else if reason ≠ .security ∧ !terminationAllowed s s.currentProcess slot then
      asTerminate s (s.processes s.currentProcess).pid
    else do
      let s ← retire s slot reason exitCode
      return (s.freePid (s.processes slot).pid).countTerminated

def killProcess (s : State) (pid : UInt32) : Except Fault State :=
  terminateProcess s pid .killed 1

def killAllProcesses (s : State) : Except Fault State :=
  (List.finRange maxProcesses).foldlM (fun s i =>
    let proc := s.processes i
    if proc.state ≠ .terminated ∧ proc.pid ≠ 0 then asTerminate s proc.pid else return s) s

def killCurrentProcess (s : State) : Except Fault State :=
  asTerminate s (s.processes s.currentProcess).pid

def wakeupTask (s : State) : Option Slot → Except Fault State
  | none => return s
  | some p =>
    if (s.processes p).state ≠ .blocked then return s
    else
      let s := s.modifyProcess p fun pcb => { pcb with state := .ready, lastWakeup := s.getNS }
      enqueueTask s (some p)

-- The rounds of `EEVDFCleanupTerminatedProcessInternal`. Every round takes an entry out of the
-- termination queue, which bounds their number.
def cleanupLoop : Nat → Nat → State → State
  | 0,        _,            s => s
  | fuel + 1, cleanupCount, s =>
    if cleanupCount < cleanupMaxPerCall then
      match removeFromTerminationQueue s with
      | none => s
      | some (slot, s) =>
        if (s.processes slot).state ≠ .zombie then cleanupLoop fuel cleanupCount s
        else
          let s := s.setProcess slot {}
          let s := freeSlotFast s slot
          cleanupLoop fuel (cleanupCount + 1) s.countCleaned
    else s

def cleanupTerminatedProcess (s : State) : State :=
  cleanupLoop s.termQueueCount 0 s

def privilegeCheck (s : State) (slot : Slot) : Bool :=
  let proc := s.processes slot
  !(proc.privilegeLevel = privSystem &&
    proc.token.capabilities &&& (capSupervisor ||| capCritical ||| capImmune) = 0)

def preflightCheck (s : State) (slot : Slot) : Except Fault (Bool × State) := do
  if slot = 0 then return (true, s)
  else if !sisVerifyPCB s slot then return (false, ← asTerminate s (s.processes slot).pid)
  else if !privilegeCheck s slot then return (false, ← asTerminate s (s.processes slot).pid)
  else return (true, s)

def postflightCheck (s : State) (slot : Slot) : Except Fault (Bool × State) := do
  if slot = 0 then return (true, s)
  else if !sisVerifyPCB s slot then return (false, ← asTerminate s (s.processes slot).pid)
  else return (true, s)

def stopCurrent (s : State) (regs : Registers) (prev : Slot) : Except Fault State := do
  if (s.processes prev).state.Dead then return s
  else
    let (ok, s) ← postflightCheck s prev
    if !ok then return s
    else
      let s := s.modifyProcess prev fun pcb => { pcb with context := regs }
      let s := updateCurr s prev
      if (s.processes prev).state = .running then
        let s := s.modifyProcess prev fun pcb => { pcb with state := .ready }
        let s := sisUpdateSeal s prev
        return s.markReady prev
      else return s

-- The run queue stays locked.
def preempt (s : State) (regs : Registers) (prev : Slot) : Except Fault State := do
  let s ← stopCurrent s regs prev
  let s ← s.lockRunqueue
  if (s.processes prev).state = .ready then enqueueTask s (some prev) else return s

-- The idle process is in slot 0.
def dispatch (s : State) : Option Slot → Except Fault (Slot × State)
  | none => return (0, s)
  | some slot => do
    if (s.processes slot).state = .ready then return (slot, ← dequeueTask s (some slot))
    else return (0, s)

-- The part that chooses the next process and takes it out of the run queue.
def selectNext (s : State) : Except Fault (Slot × State) :=
  match pickNext s with
  | none => return (0, s)
  | some slot => do
    let (ok, s) ← preflightCheck s slot
    if ok then dispatch s (some slot)
    else
      let s ← dequeueTask s (some slot)
      dispatch s (pickNext s)

def switchTo (s : State) (regs : Registers) (next : Slot) : Except Fault (Registers × State) := do
  let proc := s.processes next
  if proc.stack = 0 ∨ proc.context.rip = 0 then return (regs, s)
  else
    let s := s.modifyProcess next fun pcb => { pcb with state := .running }
    let s := sisUpdateSeal s next
    let s := s.clearReady next
    let s := s.modifyProcess next fun pcb => { pcb with execStart := s.getNS }
    let slice ← calcSlice s.rq (s.processes next)
    let s := s.modifyProcess next fun pcb => { pcb with sliceNs := slice }
    return ((s.processes next).context, s)

def contextSwitch (s : State) (regs : Registers) (next : Slot) : Except Fault (Registers × State) :=
  if next ≠ 0 then switchTo (s.setCurrent next) regs next else return (regs, s.setCurrent next)

def resume (s : State) (regs : Registers) (next : Slot) : Except Fault (Registers × State) := do
  let (regs, s) ← contextSwitch s regs next
  return (regs, if s.schedulerCalls % 100 = 0 then cleanupTerminatedProcess s else s)

-- A tick returns the registers that the interrupt handler restores. The run queue is locked only if
-- the current process is not the idle one.
def schedule (s : State) (regs : Registers) : Except Fault (Registers × State) := do
  let prev := s.rq.currentSlot
  let s := s.countCall
  if prev ≠ 0 then do
    let s ← preempt s regs prev
    let (next, s) ← selectNext s
    resume s.unlockRunqueue regs next
  else do
    let (next, s) ← selectNext s
    resume s regs next

end EEVDF
