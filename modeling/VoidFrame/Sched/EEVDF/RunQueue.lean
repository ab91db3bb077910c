import VoidFrame.Sched.EEVDF.State

namespace EEVDF

def minNice : Int := -20

def maxNice : Int := 19

def nice0Load : UInt32 := 1024

def niceToWeightTable : List UInt32 := [
  88761, 71755, 56483, 46273, 36291,
  29154, 23254, 18705, 14949, 11916,
  9548,  7620,  6100,  4904,  3906,
  3121,  2501,  1991,  1586,  1277,
  1024,  820,   655,   526,   423,
  335,   272,   215,   172,   137,
  110,   87,    70,    56,    45,
  36,    29,    23,    18,    15
]

def niceToWmultTable : List UInt32 := [
  48388,     59856,     76040,     92818,     118348,
  147320,    184698,    229616,    287308,    360437,
  449829,    563644,    704093,    875809,    1099582,
  1376151,   1717300,   2157191,   2708050,   3363326,
  4194304,   5237765,   6557202,   8165337,   10153587,
  12820798,  15790321,  19976592,  24970740,  31350126,
  39045157,  49367440,  61356676,  76695844,  95443717,
  119304647, 148102320, 186737708, 238609294, 286331153
]

def clampNice (nice : Int) : Int :=
  let nice := if nice < minNice then minNice else nice
  if maxNice < nice then maxNice else nice

def niceToWeight (nice : Int) : UInt32 :=
  niceToWeightTable.getD (clampNice nice - minNice).toNat 0

def niceToWmult (nice : Int) : UInt32 :=
  niceToWmultTable.getD (clampNice nice - minNice).toNat 0

def setTaskNice (p : ProcessControlBlock) (nice : Int) : ProcessControlBlock :=
  let nice := clampNice nice
  { p with nice, weight := niceToWeight nice, invWeight := niceToWmult nice }

def State.getNS (s : State) : UInt64 :=
  s.apicTicks.toUInt64 * 1000000000 / s.apicHz.toUInt64

def timeSliceNs : UInt64 := 4000000

def targetLatency : UInt32 := 6000000

def minGranularity : UInt64 := 750000

def maxTimeSliceNs : UInt64 := 100000000

def calcDelta (deltaExec : UInt64) (weight lw : UInt32) : UInt64 :=
  let lw := if lw = 0 then nice0Load else lw
  let fact := ((weight <<< 16) / lw).toUInt64
  (deltaExec * fact) >>> 16

-- The product is computed in 32 bits, as both factors are.
def calcSlice (rq : RunQueue) (se : ProcessControlBlock) : Except Fault UInt64 :=
  if rq.nrRunning = 0 then return timeSliceNs
  else if rq.loadWeight = 0 then throw .divideError
  else
    let slice := (targetLatency * se.weight / rq.loadWeight).toUInt64
    let slice := if slice < minGranularity then minGranularity else slice
    return if maxTimeSliceNs < slice then maxTimeSliceNs else slice

-- The part of `EEVDFUpdateCurr` that follows the first process in the run queue.
def updateMinVruntime (s : State) (curr : Slot) : State :=
  let minVruntime := match s.rq.leftmost with
    | some node => (s.processes (s.rq.tree.val node)).vruntime
    | none => (s.processes curr).vruntime
  s.setRq { s.rq with minVruntime }

-- The times of a process that has run until now.
def ProcessControlBlock.account (pcb : ProcessControlBlock) (now deltaExec deltaFair : UInt64) :
    ProcessControlBlock :=
  { pcb with
    execStart := now
    sumExecRuntime := pcb.sumExecRuntime + deltaExec
    cpuTimeAccumulated := pcb.cpuTimeAccumulated + deltaExec
    vruntime := pcb.vruntime + deltaFair }

def updateCurr (s : State) (curr : Slot) : State :=
  let now := s.getNS
  let deltaExec := now - (s.processes curr).execStart
  if deltaExec = 0 then s
  else
    let deltaFair := calcDelta deltaExec nice0Load s.rq.loadWeight
    let s := s.modifyProcess curr (·.account now deltaExec deltaFair)
    updateMinVruntime s curr

-- `rb_node_pool_bitmap` has two words.
def findFreeNode (bitmap : Bitmap 32) : Option NodeId := do
  let index ← bitmap.findZero 2
  if h : index < maxProcesses then some ⟨index, h⟩ else none

def rbNodeInit (slot : Slot) : RB.Node NodeId Slot where
  left := none
  right := none
  parent := none
  color := .red
  val := slot

def State.setNode (s : State) (i : NodeId) (n : RB.Node NodeId Slot) : State :=
  s.setRq { s.rq with tree := s.rq.tree.set i n }

@[simp]
lemma State.setNode_processes {s : State} {i n} : (s.setNode i n).processes = s.processes := rfl

@[simp]
lemma State.setNode_nodeBitmap {s : State} {i n} : (s.setNode i n).nodeBitmap = s.nodeBitmap := rfl

@[simp]
lemma State.setNode_rq {s : State} {i n} :
    (s.setNode i n).rq = { s.rq with tree := s.rq.tree.set i n } := rfl

def allocRBNode (s : State) (slot : Slot) : Option (NodeId × State) := do
  let node ← findFreeNode s.nodeBitmap
  let s := s.setNodeBitmap (s.nodeBitmap.set node)
  return (node, s.setNode node (rbNodeInit slot))

def freeRBNode (s : State) (node : NodeId) : State :=
  let s := s.setNodeBitmap (s.nodeBitmap.clear node)
  s.setNode node { left := none, right := none, parent := none, color := .black, val := 0 }

def ofTree {α} : Option α → Except Fault α
  | some a => return a
  | none => throw .stuck

def rbInsert (s : State) (p : Slot) : Except Fault State :=
  if (s.processes p).rbNode.isSome then throw (.panic "EEVDFRBInsert: Process already in tree")
  else match allocRBNode s p with
    | none => return s
    | some (node, s) => do
      let s := s.setRbNode p (some node)
      let less (entry : Slot) : Bool := (s.processes p).vruntime < (s.processes entry).vruntime
      let (tree, isLeftmost) ← ofTree (rbAttach less s.rq.tree node)
      let leftmost := if isLeftmost then some node else s.rq.leftmost
      return s.setRq { s.rq with tree, leftmost }

def updateLeftmost (s : State) (node : NodeId) : Except Fault (Option NodeId) :=
  if s.rq.leftmost = some node then ofTree (rbNextLeftmost s.rq.tree node)
  else return s.rq.leftmost

def rbDelete (s : State) (p : Slot) : Except Fault State :=
  match (s.processes p).rbNode with
  | none => return s
  | some node => do
    let leftmost ← updateLeftmost s node
    let tree ← ofTree (rbRemove s.rq.tree node)
    let s := s.setRq { s.rq with tree, leftmost }
    let s := freeRBNode s node
    return s.setRbNode p none

-- The part of `EEVDFEnqueueTask` that keeps a process from running before all others.
def raiseVruntime (s : State) (p : Slot) : State :=
  if (s.processes p).vruntime < s.rq.minVruntime then
    s.modifyProcess p fun pcb => { pcb with vruntime := s.rq.minVruntime }
  else s

def enqueueTask (s : State) : Option Slot → Except Fault State
  | none => return s
  | some p =>
    if (s.processes p).state ≠ .ready then return s
    else do
      let s := raiseVruntime s p
      let slice ← calcSlice s.rq (s.processes p)
      let s := s.modifyProcess p fun pcb => { pcb with deadline := pcb.vruntime + slice }
      let loadWeight := s.rq.loadWeight + (s.processes p).weight
      let nrRunning := s.rq.nrRunning + 1
      rbInsert (s.setRq { s.rq with loadWeight, nrRunning }) p

def dequeueTask (s : State) : Option Slot → Except Fault State
  | none => return s
  | some p =>
    if (s.processes p).rbNode.isNone then return s
    else
      let weight := (s.processes p).weight
      let loadWeight := if weight ≤ s.rq.loadWeight then s.rq.loadWeight - weight else 0
      let nrRunning := if 0 < s.rq.nrRunning then s.rq.nrRunning - 1 else s.rq.nrRunning
      rbDelete (s.setRq { s.rq with loadWeight, nrRunning }) p

def pickNext (s : State) : Option Slot :=
  s.rq.leftmost.map s.rq.tree.val

end EEVDF
