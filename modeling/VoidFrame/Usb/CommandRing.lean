import VoidFrame.Library.Machine

-- The command ring of the xHCI driver, and the controller that takes commands from it.

namespace Xhci

def commandRingSize : Nat := 256

def trbTypeLink : UInt32 := 6
def trbTypeConfigure : UInt32 := 11
def trbCycleBit : UInt32 := 1
def trbToggleCycleBit : UInt32 := 2

structure Trb where
  parameterLo : UInt32
  parameterHi : UInt32
  status : UInt32
  control : UInt32
deriving DecidableEq

namespace Trb

def zero : Trb := ⟨0, 0, 0, 0⟩

def type (t : Trb) : UInt32 :=
  t.control >>> 10 &&& 0x3F

def cycle (t : Trb) : Bool :=
  t.control &&& trbCycleBit ≠ 0

def toggles (t : Trb) : Bool :=
  t.control &&& trbToggleCycleBit ≠ 0

def parameter (t : Trb) : UInt64 :=
  t.parameterLo.toUInt64 ||| t.parameterHi.toUInt64 <<< 32

end Trb

-- The driver, the position and the cycle state of the controller, and the commands that were put into the
-- ring and taken out of it.
structure State where
  ringPhys : UInt64
  ring : Nat → Trb
  enqueue : Nat
  cycle : Bool
  maxSlots : UInt8
  deviceContexts : UInt8 → Option UInt64
  dequeue : Nat
  consumerCycle : Bool
  submitted : List Trb
  consumed : List Trb

-- The controller is not in the ring any more.
inductive Fault
  | outside
deriving DecidableEq

def linkTrb (ringPhys : UInt64) : Trb where
  parameterLo := ringPhys.toUInt32
  parameterHi := (ringPhys >>> 32).toUInt32
  status := 0
  control := trbTypeLink <<< 10 ||| trbCycleBit

-- After `xHCIInitCommandRing`.
structure Initial (s : State) : Prop where
  ring : s.ring = fun i => if i = commandRingSize - 1 then linkTrb s.ringPhys else .zero
  enqueue : s.enqueue = 0
  cycle : s.cycle = true
  dequeue : s.dequeue = 0
  consumerCycle : s.consumerCycle = true
  submitted : s.submitted = []
  consumed : s.consumed = []

namespace State

variable (s : State)

def cycleBit : UInt32 :=
  if s.cycle then trbCycleBit else 0

-- A command is written at the enqueue position, which then moves to `next`.
def put (t : Trb) (next : Nat) : State :=
  { s with
    ring := Function.update s.ring s.enqueue t
    enqueue := next
    cycle := if next = 0 then !s.cycle else s.cycle
    submitted := s.submitted ++ [t] }

def xHCISubmitCommand (t : Trb) : State :=
  s.put { t with control := t.control ||| s.cycleBit } ((s.enqueue + 1) % (commandRingSize - 1))

def configureTrb (context : UInt64) : Trb where
  parameterLo := context.toUInt32
  parameterHi := (context >>> 32).toUInt32
  status := 0
  control := trbTypeConfigure <<< 10 ||| s.cycleBit

-- `alloc` tells whether there is memory for the ring of the endpoint.
def xHCIConfigureEndpoint (slotId : UInt8) (alloc : Bool) : State :=
  if slotId = 0 ∨ s.maxSlots < slotId then s
  else
    match s.deviceContexts (slotId - 1) with
    | none => s
    | some context => if alloc then s.put (s.configureTrb context) ((s.enqueue + 1) % 256) else s

-- The controller takes the next command if its cycle bit is right, and follows a link to the start of the ring.
def consume : Except Fault State :=
  if commandRingSize ≤ s.dequeue then throw .outside
  else
    let t := s.ring s.dequeue
    if t.cycle ≠ s.consumerCycle then return s
    else if t.type ≠ trbTypeLink then return { s with dequeue := s.dequeue + 1, consumed := s.consumed ++ [t] }
    else if t.parameter ≠ s.ringPhys then throw .outside
    else return { s with dequeue := 0, consumerCycle := s.consumerCycle ^^ t.toggles }

end State

inductive Action
  | submitCommand (t : Trb)
  | configureEndpoint (slotId : UInt8) (alloc : Bool)
  | consume

def step (s : State) : Action → Except Fault State
  | .submitCommand t => .ok (s.xHCISubmitCommand t)
  | .configureEndpoint slotId alloc => .ok (s.xHCIConfigureEndpoint slotId alloc)
  | .consume => s.consume

-- A command is not a link.
def Command : Action → Prop
  | .submitCommand t => t.type ≠ trbTypeLink
  | _ => True

instance : (a : Action) → Decidable (Command a)
  | .submitCommand t => inferInstanceAs (Decidable (t.type ≠ trbTypeLink))
  | .configureEndpoint _ _ | .consume => isTrue trivial

abbrev Run (ok : State → Action → Prop) := Machine.Run Initial step ok

end Xhci
