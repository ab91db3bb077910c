import Mathlib

namespace Ipc

abbrev maxMessages : Nat := 32

instance : NeZero maxMessages := ⟨by decide⟩

abbrev maxPayload : Nat := 512

-- The enumerations of C. A message of a process may have any other value in their fields.
abbrev MessageType := UInt32

namespace MessageType

def data : MessageType := 0
def request : MessageType := 2
def response : MessageType := 3

end MessageType

abbrev Priority := UInt32

namespace Priority

def low : Priority := 0
def normal : Priority := 1
def high : Priority := 2
def urgent : Priority := 3

end Priority

structure Message where
  senderPid : UInt32
  sequenceId : UInt32
  type : MessageType
  priority : Priority
  timestamp : UInt64
  size : UInt64
  payload : Fin maxPayload → UInt8

instance : Inhabited Message where
  default := {
    senderPid := 0, sequenceId := 0, type := .data, priority := .low, timestamp := 0, size := 0
    payload := fun _ => 0
  }

abbrev Index := Fin maxMessages

structure MessageQueue where
  messages : Index → Message := fun _ => default
  head : Index := 0
  tail : Index := 0
  count : Nat := 0
  droppedCount : UInt32 := 0
  priorityBitmap : BitVec 32 := 0

namespace MessageQueue

-- The index of the message at position `i` of the queue: `(queue->head + i) % MAX_MESSAGES`.
def index (q : MessageQueue) (i : Nat) : Index :=
  Fin.ofNat maxMessages (q.head + i)

-- The processor takes the number of places of a shift modulo 32.
def updatePriorityBitmap (bitmap : BitVec 32) (p : Priority) : BitVec 32 :=
  bitmap ||| (1 <<< (p.toNat % 32))

-- The bitmap of the priorities of all messages in the queue.
def computePriorityBitmap (q : MessageQueue) : BitVec 32 :=
  (List.range q.count).foldl (fun b i => updatePriorityBitmap b (q.messages (q.index i)).priority) 0

-- The state of the search in `find_priority_message`.
structure Best where
  index : Index
  priority : Priority
  oldest : UInt64

def findPriorityMessage (q : MessageQueue) (minPriority : Priority) : Index :=
  let best := (List.range q.count).foldl (fun (best : Best) i =>
    let idx := q.index i
    let msg := q.messages idx
    if ¬(msg.priority < minPriority) ∧
        (best.priority < msg.priority ∨ (msg.priority = best.priority ∧ msg.timestamp < best.oldest))
    then ⟨idx, msg.priority, msg.timestamp⟩
    else best)
    ⟨q.head, .low, 0xFFFFFFFFFFFFFFFF⟩
  best.index

-- The index of the message that a full queue drops, with its priority.
def findLowest (q : MessageQueue) : Index × Priority :=
  (List.range q.count).foldl (fun (drop, lowest) i =>
    let idx := q.index i
    if (q.messages idx).priority < lowest then (idx, (q.messages idx).priority) else (drop, lowest))
    (q.head, .urgent)

def setMessage (q : MessageQueue) (i : Index) (msg : Message) : MessageQueue :=
  { q with messages := Function.update q.messages i msg }

-- The part of `IpcSendMessage` that finds the place of a new message: `none` is
-- `IPC_ERROR_QUEUE_FULL`.
def reserve (q : MessageQueue) (p : Priority) : Option (MessageQueue × Index) :=
  if maxMessages ≤ q.count then
    if Priority.low < p then
      let (drop, lowest) := q.findLowest
      if lowest < p then some ({ q with droppedCount := q.droppedCount + 1 }, drop) else none
    else none
  else some ({ q with tail := Fin.ofNat maxMessages (q.tail + 1), count := q.count + 1 }, q.tail)

def push (q : MessageQueue) (msg : Message) : Option MessageQueue := do
  let (q, dest) ← q.reserve msg.priority
  let q := q.setMessage dest msg
  return { q with priorityBitmap := q.computePriorityBitmap }

-- The loop that moves the messages before `i` by one place, to fill the gap at `i`. The place before `i`
-- is `(i - 1 + MAX_MESSAGES) % MAX_MESSAGES`.
def shift : Nat → MessageQueue → Index → MessageQueue
  | 0,        q, _ => q
  | fuel + 1, q, i =>
    if i = q.head then q
    else
      let prev : Index := i - 1
      shift fuel (q.setMessage i (q.messages prev)) prev

-- The part of `IpcReceiveMessage` for a queue that is not empty.
def pop (q : MessageQueue) : Message × MessageQueue :=
  let idx := q.findPriorityMessage .low
  let msg := q.messages idx
  let q := shift maxMessages q idx
  let q := { q with head := Fin.ofNat maxMessages (q.head + 1), count := q.count - 1 }
  (msg, { q with priorityBitmap := if q.count = 0 then 0 else q.computePriorityBitmap })

def findType (q : MessageQueue) (type : MessageType) : Option Nat :=
  (List.range q.count).find? fun i => (q.messages (q.index i)).type = type

def closeGap (q : MessageQueue) : Nat → MessageQueue
  | 0 => q
  | j + 1 => closeGap (q.setMessage (q.index (j + 1)) (q.messages (q.index j))) j

-- A round of the loop in `IpcReceiveMessageType`. The loop goes on as long as there is no message of the
-- type.
def popType (q : MessageQueue) (type : MessageType) : Option (Message × MessageQueue) :=
  (q.findType type).map fun i =>
    let msg := q.messages (q.index i)
    let q := q.closeGap i
    let q := { q with head := Fin.ofNat maxMessages (q.head + 1), count := q.count - 1 }
    (msg, { q with priorityBitmap := q.computePriorityBitmap })

def flush (q : MessageQueue) : MessageQueue :=
  { q with head := 0, tail := 0, count := 0, priorityBitmap := 0 }

end MessageQueue

inductive Result
  | success
  | queueFull
  | noProcess
  | invalidMsg
  deriving DecidableEq, Repr

end Ipc
