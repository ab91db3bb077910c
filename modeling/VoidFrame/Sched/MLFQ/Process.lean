import VoidFrame.Library.Machine
import VoidFrame.Library.Returns
import VoidFrame.Sched.EEVDF.Process
import VoidFrame.Sched.MLFQ.Scheduler

namespace MLFQ

open EEVDF (Slot maxProcesses ProcessState TerminationReason Registers privSystem slotMask allocPid
  initialContext cleanupMaxPerCall)

def securityMagic : UInt64 := 0x5EC0DE4D41474943

def securitySalt : UInt64 := 0xDEADBEEFCAFEBABE

def securityViolationLimit : UInt32 := 3

def fairnessBoostActualInterval : UInt32 := 16

def boostInterval : UInt32 := 15

def preemptionBias : Nat := 2

def criticalPreemptionLevel : Nat := 1

def preemptionMinPriorityGap : UInt8 := 1

def runtimeProcesses : String := "/Runtime/Processes"

-- The first `n` bytes of a number in memory.
def bytes (n : Nat) (x : UInt64) : List UInt8 :=
  (List.range n).map fun i => (x >>> UInt64.ofNat (8 * i)).toUInt8

def secureHash (data : List UInt8) (salt : UInt64) : UInt64 :=
  data.foldl (fun hash b => (hash ^^^ b.toUInt64) * 0x100000001b3) salt

def SecurityToken.data (token : SecurityToken) : List UInt8 :=
  bytes 8 token.magic ++ bytes 4 token.creatorPid.toUInt64 ++ [token.privilege, token.flags] ++
    bytes 8 token.creationTick

def calculateSecureChecksum (token : SecurityToken) (pid : UInt32) : UInt64 :=
  secureHash token.data securitySalt ^^^ secureHash (bytes 4 pid.toUInt64) securitySalt

def validateToken (token : SecurityToken) (pid : UInt32) : Bool :=
  (calculateSecureChecksum token pid ^^^ token.checksum) ||| (token.magic ^^^ securityMagic) = 0

def runtimePath (pid : UInt32) : String :=
  runtimeProcesses ++ "/" ++ toString pid.toNat

def runtimePathValidation (proc : ProcessControlBlock) : Bool :=
  proc.processRuntimePath = runtimePath proc.pid

def findFreeSlotFast (s : State) : Option (Slot × State) :=
  if s.activeProcessBitmap = ~~~1 then none
  else
    let available := ~~~s.activeProcessBitmap &&& ~~~1
    if available = 0 then none
    else
      let slot : Slot := Fin.ofNat maxProcesses available.ctz.toNat
      some (slot, { s with activeProcessBitmap := s.activeProcessBitmap ||| slotMask slot })

def freeSlotFast (s : State) (slot : Slot) : State :=
  if 0 < slot then { s with activeProcessBitmap := s.activeProcessBitmap &&& ~~~slotMask slot } else s

def addToTerminationQueue (s : State) (slot : Slot) : Except Fault State :=
  if maxProcesses ≤ s.termQueueCount then throw (.panic "Termination queue overflow")
  else return { s with
    terminationQueue := Function.update s.terminationQueue s.termQueueTail slot
    termQueueTail := s.termQueueTail + 1
    termQueueCount := s.termQueueCount + 1
  }

def removeFromTerminationQueue (s : State) : Option (Slot × State) :=
  if s.termQueueCount = 0 then none
  else some (s.terminationQueue s.termQueueHead, { s with
    termQueueHead := s.termQueueHead + 1
    termQueueCount := s.termQueueCount - 1
  })

def zombify (s : State) (slot : Slot) (reason : TerminationReason) (exitCode : UInt32) : State :=
  s.modifyProcess slot fun pcb => { pcb with
    state := .zombie
    termReason := reason
    exitCode
    terminationTime := s.systemTicks }

-- A process that is running loses the rest of its quantum.
def dropQuantum (s : State) (slot : Slot) : State :=
  { s with quantumRemaining := if slot = s.currentRunning then 0 else s.quantumRemaining }

def countTerminated (s : State) : State :=
  { s with totalProcesses := if 0 < s.totalProcesses then s.totalProcesses - 1 else s.totalProcesses }

-- The part that both ways to terminate a process share. The scheduler is locked.
def retire (s : State) (slot : Slot) (reason : TerminationReason) (exitCode : UInt32) :
    Except Fault State := do
  let s := removeFromScheduler (zombify s slot reason exitCode) slot
  return countTerminated (← addToTerminationQueue (dropQuantum s slot) slot)

def asTerminate (s : State) (pid : UInt32) : Except Fault State := do
  let s ← s.lockScheduler
  match s.getCurrentProcessByPID pid with
  | none => return s.unlockScheduler
  | some slot => return (← retire s slot .security 666).unlockScheduler

-- `TerminateProcess` without the checks, as for security reasons.
def terminateUnchecked (s : State) (pid : UInt32) (reason : TerminationReason) (exitCode : UInt32) :
    Except Fault State := do
  let s ← s.lockScheduler
  match s.getCurrentProcessByPID pid with
  | none => return s.unlockScheduler
  | some slot =>
    if (s.processes slot).state.Dead then return s.unlockScheduler
    else
      let s ← retire s slot reason exitCode
      return { s with pidBitmap := s.pidBitmap.clear (s.processes slot).pid.toNat }.unlockScheduler

-- The checks that keep a process from terminating another one.
def terminationAllowed (s : State) (slot : Slot) : Bool :=
  let caller := s.processes s.currentProcess
  let proc := s.processes slot
  (caller.pid = proc.pid ||
    !(proc.privilegeLevel = privSystem && caller.privilegeLevel ≠ privSystem) &&
      proc.token.flags &&& procFlagImmune = 0 && proc.token.flags &&& procFlagCritical = 0) &&
  validateToken caller.token caller.pid

-- A caller that may not terminate the process is terminated itself.
def terminateProcess (s : State) (pid : UInt32) (reason : TerminationReason) (exitCode : UInt32) :
    Except Fault State :=
  match s.getCurrentProcessByPID pid with
  | none => terminateUnchecked s pid reason exitCode
  | some slot =>
    if (s.processes slot).state.Dead ∨ reason = .security ∨ terminationAllowed s slot then
      terminateUnchecked s pid reason exitCode
    else do
      let s ← s.lockScheduler
      terminateUnchecked s.unlockScheduler (s.processes s.currentProcess).pid .security 0

def killProcess (s : State) (pid : UInt32) : Except Fault State :=
  terminateProcess s pid .killed 1

def securityViolationHandler (s : State) (pid : UInt32) : Except Fault State :=
  let s := { s with securityViolationCount := s.securityViolationCount + 1 }
  if securityViolationLimit < s.securityViolationCount then
    throw (.panic "AS: Too many security violations - system compromised")
  else asTerminate s pid

def initProcess (s : State) (pid : UInt32) (entryPoint : UInt64) (privilege : UInt8) (flags : UInt32)
    (stack : UInt64) : ProcessControlBlock :=
  let priority := if privilege = privSystem then 0 else UInt8.ofNat rtPriorityThreshold
  let token : SecurityToken := {
    magic := securityMagic
    creatorPid := (s.processes s.currentProcess).pid
    privilege
    flags := flags.toUInt8
    creationTick := s.systemTicks
  }
  { pid
    state := .ready
    stack
    privilegeLevel := privilege
    priority
    basePriority := priority
    creationTime := s.systemTicks
    lastScheduledTick := s.systemTicks
    processRuntimePath := runtimePath pid
    cpuBurstHistory := fun _ => quantumBase / 2
    token := { token with checksum := calculateSecureChecksum token pid }
    context := initialContext entryPoint stack }

def enroll (s : State) (slot : Slot) (pid : Nat) (entryPoint : UInt64) (privilege : UInt8)
    (flags : UInt32) (stack : UInt64) : State :=
  let s := { s with pidBitmap := s.pidBitmap.set pid, processCount := s.processCount + 1 }
  s.setProcess slot (initProcess s (UInt32.ofNat pid) entryPoint privilege flags stack)

-- A creator that asks for too much is terminated.
def creationDenied (s : State) (privilege : UInt8) : Bool :=
  let creator := s.processes s.currentProcess
  privilege = privSystem && creator.privilegeLevel ≠ privSystem

-- `stack` is the result of `VMemAllocStack`. The PID `0` means that the process was not created.
def createSecureProcess (s : State) (entryPoint : UInt64) (privilege : UInt8) (flags : UInt32)
    (stack : UInt64) : Except Fault (UInt32 × State) := do
  let s ← s.lockScheduler
  let creator := s.processes s.currentProcess
  if entryPoint = 0 then throw (.panic "MLFQCreateSecureProcess: NULL entry point")
  else if creationDenied s privilege then
    return (0, ← asTerminate s.unlockScheduler creator.pid)
  else if !validateToken creator.token creator.pid then
    return (0, ← securityViolationHandler s.unlockScheduler creator.pid)
  else if maxProcesses ≤ s.processCount.toNat then
    throw (.panic "MLFQCreateSecureProcess: Too many processes")
  else match findFreeSlotFast s with
    | none           => throw (.panic "MLFQCreateSecureProcess: No free process slots")
    | some (slot, s) =>
      match allocPid s.pidBitmap with
      | none     => throw (.panic "MLFQCreateSecureProcess: PID exhaustion")
      | some pid =>
        if stack = 0 then throw (.panic "MLFQCreateSecureProcess: Failed to allocate stack")
        else
          let s := enroll s slot pid entryPoint privilege flags stack
          return (UInt32.ofNat pid, (addToScheduler s slot).unlockScheduler)

def reclaim (s : State) (slot : Slot) : State :=
  let s := freeSlotFast (s.setProcess slot {}) slot
  { s with processCount := s.processCount - 1 }

def cleanupLoop : Nat → Nat → State → State
  | 0,        _,            s => s
  | fuel + 1, cleanupCount, s =>
    if cleanupCount < cleanupMaxPerCall then
      match removeFromTerminationQueue s with
      | none => s
      | some (slot, s) =>
        if (s.processes slot).state ≠ .zombie then cleanupLoop fuel cleanupCount s
        else cleanupLoop fuel (cleanupCount + 1) (reclaim s slot)
    else s

def cleanupTerminatedProcess (s : State) : Except Fault State := do
  let s ← s.lockScheduler
  return (cleanupLoop s.termQueueCount 0 s).unlockScheduler

def astraPreflightCheck (s : State) (slot : Slot) : Except Fault (Bool × State) := do
  let proc := s.processes slot
  if slot = 0 then return (true, s)
  else if !validateToken proc.token proc.pid then return (false, ← asTerminate s proc.pid)
  else if proc.privilegeLevel = privSystem ∧
      proc.token.flags &&& (procFlagSupervisor ||| procFlagCritical ||| procFlagImmune) = 0 then
    return (false, ← asTerminate s proc.pid)
  else if !runtimePathValidation proc then return (false, ← asTerminate s proc.pid)
  else return (true, s)

def boosted (s : State) (i : Slot) : ProcessControlBlock :=
  let proc := s.processes i
  let wait := waitTime s proc
  if i ≠ 0 ∧ proc.pid ≠ 0 ∧ proc.state = .ready ∧
      (fairnessWaitThreshold.toUInt64 < wait ∨ starvationThreshold < wait) then
    if proc.privilegeLevel = privSystem ∧ 0 < proc.priority then { proc with priority := 0 }
    else if proc.privilegeLevel ≠ privSystem ∧ UInt8.ofNat rtPriorityThreshold < proc.priority then
      { proc with priority := UInt8.ofNat rtPriorityThreshold }
    else proc
  else proc

def fairnessBoost (s : State) : State :=
  { s with processes := boosted s }

def age (s : State) : Except Fault State := do
  let s := { s with tickCounter := s.tickCounter + 1 }
  let s := if s.tickCounter % fairnessBoostActualInterval = 0 then fairnessBoost s else s
  if boostInterval * 2 ≤ s.tickCounter - s.lastBoostTick then do
    let s ← smartAging s
    return { s with lastBoostTick := s.tickCounter }
  else return s

def recordBurst (burst : UInt32) (proc : ProcessControlBlock) : ProcessControlBlock :=
  let h := proc.cpuBurstHistory
  { proc with cpuBurstHistory := ![burst, h 0, h 1, h 2] }

def shouldPreempt (s : State) (priority : UInt8) : Bool :=
  let best := findBestQueue s
  best = some criticalPreemptionLevel && preemptionMinPriorityGap < priority ||
    s.quantumRemaining = 0 || best.any fun b => b + preemptionBias < priority.toNat

def adjustedPriority (proc : ProcessControlBlock) (quantum cpuBurst quantumRemaining : UInt32) : UInt8 :=
  if proc.privilegeLevel ≠ privSystem then
    if quantumRemaining = 0 then
      if proc.priority < UInt8.ofNat (maxPriorityLevels - 1) then proc.priority + 1 else proc.priority
    else if cpuBurst < quantum / 2 ∧ UInt8.ofNat rtPriorityThreshold < proc.priority then
      UInt8.ofNat rtPriorityThreshold
    else proc.priority
  else if proc.basePriority < proc.priority then proc.basePriority
  else proc.priority

def accountBurst (s : State) (slot : Slot) (cpuBurst : UInt32) : State :=
  s.modifyProcess slot fun pcb => { recordBurst cpuBurst pcb with
    cpuTimeAccumulated := pcb.cpuTimeAccumulated + cpuBurst.toUInt64 }

def saveContext (s : State) (slot : Slot) (regs : Registers) : State :=
  let s := s.modifyProcess slot fun pcb => { pcb with context := regs }
  if 0 < s.quantumRemaining then { s with quantumRemaining := s.quantumRemaining - 1 } else s

def preempt (s : State) (slot : Slot) (quantum cpuBurst : UInt32) : State :=
  s.modifyProcess slot fun pcb => { pcb with
    state := .ready
    priority := adjustedPriority pcb quantum cpuBurst s.quantumRemaining }

-- The part of `MLFQSchedule` for the process that is running. It tells whether another process is to be
-- selected.
def stopCurrent (s : State) (regs : Registers) : Except Fault (Bool × State) := do
  let old := s.currentRunning
  let proc := s.processes old
  if proc.state.Dead then return (true, s)
  else
    let quantum := (s.queues (← State.level proc.priority.toNat)).quantum
    let cpuBurst := quantum - s.quantumRemaining
    let s := accountBurst s old cpuBurst
    if !validateToken proc.token proc.pid then return (true, ← asTerminate s proc.pid)
    else
      let s := saveContext s old regs
      if !shouldPreempt s proc.priority then return (false, s)
      else return (true, addToScheduler (preempt s old quantum cpuBurst) old)

-- A process is checked only if the kernel is built with Astra.
def preflight (astra : Bool) (s : State) (slot : Slot) : Except Fault (Bool × State) :=
  if astra then astraPreflightCheck s slot else return (true, s)

-- The loop from the label `select_next` on. Astra also looks at the process after the last one if a
-- queue is empty.
def selectNext (astra : Bool) : Nat → State → Except Fault (Slot × State)
  | 0,        _ => throw .stuck
  | fuel + 1, s => do
    match findBestQueue s with
    | none => return (0, s)
    | some priority =>
      match deQueue s (← State.level priority) with
      | none => if astra then throw .outOfBounds else selectNext astra fuel s
      | some (slot, s) =>
        let (ok, s) ← preflight astra s slot
        if !ok ∨ (s.processes slot).state ≠ .ready then selectNext astra fuel s else return (slot, s)

def grantedQuantum (proc : ProcessControlBlock) (quantum : UInt32) : UInt32 :=
  let base := if ioBoostThreshold * 3 ≤ proc.ioOperations then quantum * 3 / 2 else quantum
  if base * 3 < averageBurst proc then base * 3 / 4 else base

def resume (s : State) (slot : Slot) : State :=
  s.modifyProcess slot fun pcb => { pcb with
    state := .running
    lastScheduledTick := s.tickCounter.toUInt64 }

def contextSwitch (s : State) (regs : Registers) (next : Slot) : Except Fault (Registers × State) := do
  let s := { s with currentRunning := next, currentProcess := next }
  if next = 0 then return (regs, { s with quantumRemaining := 0 })
  else
    let proc := s.processes next
    let quantum := (s.queues (← State.level proc.priority.toNat)).quantum
    return (proc.context, { resume s next with quantumRemaining := grantedQuantum proc quantum })

-- The part of `MLFQSchedule` before the label `select_next`, with the scheduler locked.
def prepare (s : State) (regs : Registers) : Except Fault (Bool × State) := do
  let s ← age (← s.lockScheduler)
  if s.currentRunning ≠ 0 then stopCurrent s regs else return (true, s)

-- A tick returns the registers that the interrupt handler restores.
def schedule (astra : Bool) (s : State) (regs : Registers) : Except Fault (Registers × State) := do
  let (select, s) ← prepare s regs
  if select then
    let (next, s) ← selectNext astra loopFuel s
    let (regs, s) ← contextSwitch s regs next
    return (regs, s.unlockScheduler)
  else return (regs, s.unlockScheduler)

-- A process of a user that is ready with a low priority moves up when it is blocked.
def ioBoosted (proc : ProcessControlBlock) : Bool :=
  proc.state = .ready && proc.privilegeLevel ≠ privSystem && UInt8.ofNat rtPriorityThreshold < proc.priority

-- The part of `MLFQProcessBlocked` that counts. The process that is running gives up its quantum.
def countBlocked (s : State) (slot : Slot) : Except Fault State := do
  let s := s.modifyProcess slot fun pcb => { pcb with ioOperations := pcb.ioOperations + 1 }
  if slot = s.currentRunning then
    let quantum := (s.queues (← State.level (s.processes slot).priority.toNat)).quantum
    let s := s.modifyProcess slot (recordBurst (quantum - s.quantumRemaining))
    return { s with quantumRemaining := 0 }
  else return s

def boostBlocked (s : State) (slot : Slot) : State :=
  let s := if (s.processes slot).schedulerNode.isSome then removeFromScheduler s slot else s
  let s := s.modifyProcess slot fun pcb => { pcb with priority := UInt8.ofNat rtPriorityThreshold }
  addToScheduler s slot

def processBlocked (s : State) (slot : Slot) : Except Fault State := do
  let s ← countBlocked s slot
  return if ioBoosted (s.processes slot) then boostBlocked s slot else s

def initialQuantum (l : Level) : UInt32 :=
  if l < rtPriorityThreshold then min (quantumBase <<< UInt32.ofNat (rtPriorityThreshold - l)) quantumMax
  else max (quantumBase >>> UInt32.ofNat ((l - rtPriorityThreshold) * quantumDecayShift)) quantumMin

-- The state that `MLFQSchedInit` leaves behind, without the processes that it may create as its last
-- step.
def schedInit (apicTicks : UInt32) : State :=
  let s : State := {
    queues := fun l => { quantum := initialQuantum l }
    rtBitmap := 0b111
    tickCounter := 1
    apicTicks
  }
  let token : SecurityToken := {
    magic := securityMagic
    creatorPid := 0
    privilege := privSystem
    flags := procFlagCore
    creationTick := s.systemTicks
  }
  let s := s.setProcess 0 {
    state := .running
    privilegeLevel := privSystem
    creationTime := s.systemTicks
    token := { token with checksum := calculateSecureChecksum token 0 }
  }
  { s with processCount := 1, activeProcessBitmap := s.activeProcessBitmap ||| 1 }

-- What happens in the kernel: calls of its functions, ticks of the timer, and the passing of time.
inductive Action
  | create (entryPoint : UInt64) (privilege : UInt8) (flags : UInt32) (stack : UInt64)
  | schedule (regs : Registers)
  | terminate (pid : UInt32) (reason : TerminationReason) (exitCode : UInt32)
  | asTerminate (pid : UInt32)
  | blocked (slot : Slot)
  | cleanup
  | clock (apicTicks : UInt32)

def exec (astra : Bool) (s : State) : Action → Except Fault State
  | .create entryPoint privilege flags stack =>
    (·.2) <$> createSecureProcess s entryPoint privilege flags stack
  | .schedule regs => (·.2) <$> schedule astra s regs
  | .terminate pid reason exitCode => terminateProcess s pid reason exitCode
  | .asTerminate pid => asTerminate s pid
  | .blocked slot => processBlocked s slot
  | .cleanup => cleanupTerminatedProcess s
  | .clock apicTicks => return { s with apicTicks }

-- The states that the kernel reaches by actions which `ok` admits.
abbrev Run (astra : Bool) (ok : State → Action → Prop) : State → Prop :=
  Machine.Run (fun s => ∃ apicTicks, s = schedInit apicTicks) (exec astra) ok

end MLFQ
