import VoidFrame.Sched.MLFQ.State

-- The queues of the scheduler.

namespace MLFQ

open EEVDF (Slot maxProcesses ProcessState privSystem)

def agingThresholdBase : UInt32 := 8

def agingAccelerationFactor : UInt32 := 3

def fairnessWaitThreshold : UInt32 := 20

def starvationThreshold : UInt64 := 50

def loadBalanceActualThreshold : UInt32 := 2

def ioBoostThreshold : UInt32 := 1

-- A loop that ends takes fewer rounds: it changes the links at most once for each process, and sees no
-- node twice in between.
def loopFuel : Nat := maxProcesses * (maxProcesses + 1) + 1

def allocSchedulerNode (s : State) : Option (NodeId × State) :=
  ((List.finRange maxProcesses).find? fun i : NodeId => !s.nodeBitmap.get i).map fun i =>
    (i, { s with nodeBitmap := s.nodeBitmap.set i, links := Function.update s.links i {} })

def freeSchedulerNode (s : State) (n : NodeId) : State :=
  { s with
    nodeBitmap := s.nodeBitmap.clear n
    links := Function.update s.links n {}
    nodeSlots := Function.update s.nodeSlots n 0 }

-- An empty queue is not active any more. Real-time queues are recorded twice.
def deactivate (s : State) (l : Level) : State :=
  { s.modifyQueue l fun q => { q with head := none, tail := none } with
    activeBitmap := s.activeBitmap &&& ~~~BitVec.twoPow 32 l
    rtBitmap := if l < rtPriorityThreshold then s.rtBitmap &&& ~~~BitVec.twoPow 32 l else s.rtBitmap }

-- The part of `RemoveFromScheduler` that takes a node out of a queue which is not empty.
def removeNode (s : State) (slot : Slot) (l : Level) (n : NodeId) : State :=
  let s := s.setLinks l (Linked.unlink s.links (s.queues l).toEnds n)
  let s := s.modifyQueue l fun q => { q with count := q.count - 1 }
  let s := { s with totalProcesses := s.totalProcesses - 1 }
  let s := if (s.queues l).count = 0 then deactivate s l else s
  freeSchedulerNode (s.setSchedulerNode slot none) n

def removeFromScheduler (s : State) (slot : Slot) : State :=
  let proc := s.processes slot
  if slot = 0 ∨ proc.pid = 0 then s
  else match proc.schedulerNode with
    | none => s
    | some n =>
      match State.level proc.priority.toNat with
      | .error _ => s
      | .ok l =>
        if (s.queues l).count = 0 then s.setSchedulerNode slot none else removeNode s slot l n

def enQueue (s : State) (l : Level) (slot : Slot) : State :=
  match allocSchedulerNode s with
  | none => s
  | some (n, s) =>
    let s := { s with nodeSlots := Function.update s.nodeSlots n slot }
    let s := s.setSchedulerNode slot (some n)
    let s := s.setLinks l (Linked.append s.links (s.queues l).toEnds n)
    s.modifyQueue l fun q => { q with count := q.count + 1 }

-- `none` is `MAX_PROCESSES`.
def deQueue (s : State) (l : Level) : Option (Slot × State) :=
  (s.queues l).head.map fun n =>
    let slot := s.nodeSlots n
    let s := s.setLinks l (Linked.popFront s.links (s.queues l).toEnds n)
    let s := freeSchedulerNode (s.setSchedulerNode slot none) n
    (slot, s.modifyQueue l fun q => { q with count := q.count - 1 })

def averageBurst (proc : ProcessControlBlock) : UInt32 :=
  (proc.cpuBurstHistory 0 + proc.cpuBurstHistory 1 + proc.cpuBurstHistory 2 + proc.cpuBurstHistory 3) / 4

def classifyProcess (proc : ProcessControlBlock) : Level :=
  if proc.privilegeLevel = privSystem ∧ proc.token.flags &&& procFlagCritical ≠ 0 then 0
  else if ioBoostThreshold < proc.ioOperations then 1
  else if averageBurst proc < quantumBase / 6 then 2
  else if averageBurst proc < quantumBase / 2 then 3
  else 4

def activate (s : State) (l : Level) : State :=
  { s with
    activeBitmap := s.activeBitmap ||| BitVec.twoPow 32 l
    rtBitmap := if l < rtPriorityThreshold then s.rtBitmap ||| BitVec.twoPow 32 l else s.rtBitmap }

def addToScheduler (s : State) (slot : Slot) : State :=
  let proc := s.processes slot
  if slot = 0 ∨ proc.state ≠ .ready then s
  else
    let l := classifyProcess proc
    let s := s.modifyProcess slot fun pcb => { pcb with
      priority := UInt8.ofNat l
      basePriority := UInt8.ofNat l
      lastScheduledTick := s.tickCounter.toUInt64 }
    let s := activate (enQueue s l slot) l
    { s with totalProcesses := s.totalProcesses + 1 }

-- `none` is `-1`. Busy queues are passed over if there are others.
def findBestQueue (s : State) : Option Nat :=
  if s.activeBitmap = 0 then none
  else
    let rtActive := s.activeBitmap &&& s.rtBitmap
    if rtActive ≠ 0 then some rtActive.ctz.toNat
    else
      let regularActive := s.activeBitmap &&& ~~~s.rtBitmap
      if regularActive = 0 then none
      else
        let quiet := ([3, 4] : List Level).find? fun i : Level => regularActive.getLsbD i &&
          !(loadBalanceActualThreshold < (s.queues i).count &&
            regularActive &&& ~~~BitVec.twoPow 32 i ≠ 0)
        some (quiet.elim regularActive.ctz.toNat Fin.val)

def waitTime (s : State) (proc : ProcessControlBlock) : UInt64 :=
  s.tickCounter.toUInt64 - proc.lastScheduledTick

def agingThreshold (s : State) : UInt32 :=
  let totalWaiting := (s.queues 0).totalWaitTime + (s.queues 1).totalWaitTime +
    (s.queues 2).totalWaitTime + (s.queues 3).totalWaitTime + (s.queues 4).totalWaitTime
  if s.totalProcesses * fairnessWaitThreshold < totalWaiting
  then agingThresholdBase / agingAccelerationFactor else agingThresholdBase

-- A process that has waited too long moves to the first queue.
def promote (s : State) (l : Level) (n : NodeId) : State :=
  let s := s.setLinks l (Linked.unlink s.links (s.queues l).toEnds n)
  let s := s.modifyQueue l fun q => { q with count := q.count - 1 }
  let s := s.modifyProcess (s.nodeSlots n) fun pcb =>
    { pcb with priority := 0, lastScheduledTick := s.tickCounter.toUInt64 }
  let s := s.setLinks 0 (Linked.append s.links (s.queues 0).toEnds n)
  let s := s.modifyQueue 0 fun q => { q with count := q.count + 1 }
  { s with activeBitmap := s.activeBitmap ||| BitVec.twoPow 32 0 }

def agingLoop (threshold : UInt32) (l : Level) : Nat → State → Option NodeId → Except Fault State
  | _,        s, none => return s
  | 0,        _, some _ => throw .stuck
  | fuel + 1, s, some n =>
    let next := (s.links n).next
    let wait := waitTime s (s.processes (s.nodeSlots n))
    let s := if threshold.toUInt64 < wait ∨ starvationThreshold < wait then promote s l n else s
    agingLoop threshold l fuel s next

def ageLevel (threshold : UInt32) (s : State) (l : Level) : Except Fault State := do
  let s ← agingLoop threshold l loopFuel s (s.queues l).head
  return if (s.queues l).count = 0
    then { s with activeBitmap := s.activeBitmap &&& ~~~BitVec.twoPow 32 l } else s

def smartAging (s : State) : Except Fault State := do
  let threshold := agingThreshold s
  ageLevel threshold (← ageLevel threshold s 3) 4

end MLFQ
