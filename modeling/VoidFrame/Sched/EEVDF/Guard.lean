import VoidFrame.Library.Machine
import VoidFrame.Mem.Cerberus
import VoidFrame.Sched.EEVDF.Kernel

-- The scheduler together with Cerberus.

namespace EEVDF

def stackSize : UInt64 := 4096

-- The calls that the scheduler makes to Cerberus. A tick of the scheduler is counted, and every tenth is
-- one of Cerberus.
inductive Call
  | register (pid : UInt32) (stack : UInt64)
  | unregister (pid : UInt32)
  | countTick
  | preScheduleCheck (slot : Slot)

def asTerminateCalls (s : State) (pid : UInt32) : List Call :=
  if (s.getCurrentProcessByPID pid).isSome then [.unregister pid] else []

def terminateCalls (s : State) (pid : UInt32) : List Call :=
  match s.getCurrentProcessByPID pid with
  | none => []
  | some slot =>
    if (s.processes slot).state.Dead then []
    else if !terminationAllowed s s.currentProcess slot then
      asTerminateCalls s (s.processes s.currentProcess).pid
    else [.unregister pid]

-- Whether a process can be found by its PID is not changed by the termination of others.
def killAllCalls (s : State) : List Call :=
  (List.finRange maxProcesses).flatMap fun i =>
    let proc := s.processes i
    if proc.state ≠ .terminated ∧ proc.pid ≠ 0 then asTerminateCalls s proc.pid else []

-- The pre-flight check passes the slot on to Cerberus, which takes it for a PID.
def preflightCalls (s : State) : Option Slot → List Call
  | none => []
  | some slot =>
    if slot = 0 then []
    else if !sisVerifyPCB s slot ∨ !privilegeCheck s slot then asTerminateCalls s (s.processes slot).pid
    else [.preScheduleCheck slot]

def postflightCalls (s : State) (slot : Slot) : List Call :=
  if (s.processes slot).state.Dead then []
  else if !sisVerifyPCB s slot then asTerminateCalls s (s.processes slot).pid
  else []

def scheduleCalls (s : State) (regs : Registers) : List Call :=
  let prev := s.rq.currentSlot
  let s := s.countCall
  .countTick :: if prev ≠ 0 then
    postflightCalls s prev ++
      match preempt s regs prev with
      | .error _ => []
      | .ok s => preflightCalls s (pickNext s)
  else preflightCalls s (pickNext s)

def calls (s : State) : Action → List Call
  | .create _ _ _ stack =>
    match allocPid s.pidBitmap with
    | none => []
    | some pid => [.register (UInt32.ofNat pid) stack]
  | .schedule regs => scheduleCalls s regs
  | .kill pid => terminateCalls s pid
  | .killCurrent => asTerminateCalls s (s.processes s.currentProcess).pid
  | .killAll => killAllCalls s
  | _ => []

namespace Guard

-- `marked` tells for each slot whether Cerberus has marked its process.
structure World where
  kernel : State
  cerberus : Cerberus.State
  tickCounter : UInt64 := 0
  marked : Slot → Bool := fun _ => false

def World.call (w : World) : Call → World
  | .register pid stack => { w with cerberus := Cerberus.registerProcess w.cerberus pid stack stackSize }
  | .unregister pid => { w with cerberus := Cerberus.unregisterProcess w.cerberus pid }
  | .countTick => { w with
      tickCounter := w.tickCounter + 1
      cerberus := if (w.tickCounter + 1) % 10 = 0 then Cerberus.tick w.cerberus else w.cerberus }
  | .preScheduleCheck slot => { w with cerberus := Cerberus.preScheduleCheck w.cerberus (UInt32.ofNat slot) }

-- A process is marked when its PID is, from then on until its control block is cleared.
def World.mark (w w' : World) (p : Slot) : Bool :=
  let pid := (w.kernel.processes p).pid
  (w.kernel.processes p).state ≠ .terminated && (w'.kernel.processes p).state ≠ .terminated &&
    (w.marked p ||
      !(w.cerberus.processInfo pid).isCompromised && (w'.cerberus.processInfo pid).isCompromised)

-- `write` is an access of a process to memory that Cerberus looks at.
inductive Action
  | kernel (a : EEVDF.Action)
  | fault (faultAddr errorCode : UInt64) (pid : UInt32)
  | write (addr value : UInt64)

inductive Fault
  | kernel (f : EEVDF.Fault)
  | outOfBounds

def step (w : World) : Action → Except Fault World
  | .kernel a => do
    let s ← (exec w.kernel a).mapError .kernel
    let w' := { (calls w.kernel a).foldl World.call w with kernel := s }
    return { w' with marked := w.mark w' }
  | .fault faultAddr errorCode pid =>
    if Cerberus.maxProcesses ≤ pid.toNat then throw .outOfBounds
    else return { w with cerberus := (Cerberus.analyzeFault w.cerberus faultAddr errorCode pid).2 }
  | .write addr value => return { w with
      cerberus.memory := Function.update w.cerberus.memory addr ((w.cerberus.memory addr).map fun _ => value) }

def Initial (w : World) : Prop :=
  ∃ apicTicks apicHz memory, w = { kernel := schedInit apicTicks apicHz, cerberus := { memory } }

abbrev Run (ok : World → Action → Prop) := Machine.Run Initial step ok

end Guard

end EEVDF
