import Mathlib

-- Cerberus, which watches over the memory accesses of processes.

namespace Cerberus

open Function (update)

abbrev maxProcesses : Nat := 128

def violationThreshold : UInt32 := 3
def checkInterval : UInt64 := 50
def stackCanaryValue : UInt64 := 0xDEADBEEFCAFEBABE

structure ProcessInfo where
  violationCount : UInt32 := 0
  lastViolation : UInt64 := 0
  stackCanaryAddr : UInt64 := 0
  isMonitored : Bool := false
  isCompromised : Bool := false
  deriving DecidableEq, Repr

-- `memory` gives the words that are mapped. `isInitialized` is false if there was no lock for Cerberus.
structure State where
  processInfo : UInt32 → ProcessInfo := fun _ => {}
  systemTicks : UInt64 := 0
  isInitialized : Bool := true
  memory : UInt64 → Option UInt64

def State.modifyInfo (c : State) (pid : UInt32) (f : ProcessInfo → ProcessInfo) : State :=
  { c with processInfo := update c.processInfo pid (f (c.processInfo pid)) }

def logViolation (c : State) (pid : UInt32) : State :=
  if !c.isInitialized then c
  else c.modifyInfo pid fun info => { info with
    violationCount := info.violationCount + 1
    lastViolation := c.systemTicks }

def installStackCanary (c : State) (pid : UInt32) (stackTop stackSize : UInt64) : State :=
  if !c.isInitialized ∨ maxProcesses ≤ pid.toNat ∨ stackSize < 0x2000 then c
  else
    let canaryAddr := stackTop - 0x100
    match c.memory canaryAddr with
    | none => c
    | some _ => { c with memory := update c.memory canaryAddr (some stackCanaryValue) }.modifyInfo pid
      fun info => { info with stackCanaryAddr := canaryAddr }

def registerProcess (c : State) (pid : UInt32) (stackBase stackSize : UInt64) : State :=
  if !c.isInitialized ∨ maxProcesses ≤ pid.toNat then c
  else if (c.processInfo pid).isMonitored then c
  else
    let c := c.modifyInfo pid fun info => { info with
      isMonitored := true
      isCompromised := false
      violationCount := 0
      lastViolation := 0 }
    if stackBase ≠ 0 ∧ 16 < stackSize then installStackCanary c pid stackBase stackSize else c

def unregisterProcess (c : State) (pid : UInt32) : State :=
  if !c.isInitialized ∨ maxProcesses ≤ pid.toNat then c
  else if (c.processInfo pid).isMonitored then c.modifyInfo pid fun info => { info with isMonitored := false }
  else c

def checkStackCanary (c : State) (pid : UInt32) : Int × State :=
  if !c.isInitialized ∨ maxProcesses ≤ pid.toNat then (-1, c)
  else
    let info := c.processInfo pid
    if !info.isMonitored ∨ info.stackCanaryAddr = 0 then (0, c)
    else match c.memory info.stackCanaryAddr with
      | none => (-1, c)
      | some value =>
        if value ≠ stackCanaryValue then
          (1, (logViolation c pid).modifyInfo pid fun info => { info with isCompromised := true })
        else (0, c)

-- The check has no result. A process that is compromised is reported on the console.
def preScheduleCheck (c : State) (pid : UInt32) : State :=
  if !c.isInitialized then c
  else if !(c.processInfo pid).isMonitored then c
  else if (c.processInfo pid).isCompromised then c
  else (checkStackCanary c pid).2

def tick (c : State) : State :=
  if !c.isInitialized then c
  else
    let c := { c with systemTicks := c.systemTicks + 1 }
    if c.systemTicks % checkInterval ≠ 0 then c
    else { c with processInfo := fun pid =>
      let info := c.processInfo pid
      if pid.toNat < maxProcesses ∧ info.isMonitored ∧ violationThreshold < info.violationCount then
        { info with isCompromised := true }
      else info }

inductive MemorySecurityViolation
  | none
  | bufferOverflow
  | stackCorruption
  | useAfterFree
  | boundsCheck
  deriving DecidableEq, Repr

def classify (faultAddr errorCode : UInt64) : MemorySecurityViolation :=
  if faultAddr = 0 ∨ faultAddr < 0x1000 then .useAfterFree
  else if errorCode &&& 0x2 ≠ 0 ∧ errorCode &&& 0x1 = 0 then .bufferOverflow
  else if errorCode &&& 0x10 ≠ 0 then .stackCorruption
  else if 0xFFFF800000000000 ≤ faultAddr then .boundsCheck
  else .none

def analyzeFault (c : State) (faultAddr errorCode : UInt64) (pid : UInt32) : Int × State :=
  if !c.isInitialized then (0, c)
  else if classify faultAddr errorCode ≠ .none then (1, logViolation c pid)
  else (0, c)

end Cerberus
