import VoidFrame.Library.Machine

-- The driver of a VirtIO block device and the device, which share a queue. The driver holds its lock for
-- a whole call, and the device completes a request at any time after it was made available.

namespace VirtioBlk

open Function (update)

inductive Fault
  | locked
  | inUse
  | absent

-- `VIRTIO_BLK_T_IN` and `VIRTIO_BLK_T_OUT`.
inductive RequestType
  | read
  | write
deriving DecidableEq

structure VirtioBlkReq where
  type : RequestType
  sector : UInt64
deriving DecidableEq

-- `next` is present if the flag `VIRTQ_DESC_F_NEXT` is set.
structure VirtqDesc where
  addr : Nat
  len : UInt32
  writable : Bool
  next : Option Nat
deriving DecidableEq

-- A request with the addresses of its header, status and data, and its first descriptor.
structure Request where
  header : VirtioBlkReq
  buffer : Nat
  count : UInt32
  req : Nat
  status : Nat
  descIdx : Nat
deriving DecidableEq

def Request.chain (vqSize : Nat) (r : Request) : List (Nat × VirtqDesc) :=
  let second := (r.descIdx + 1) % vqSize
  let third := (r.descIdx + 2) % vqSize
  [(r.descIdx, { addr := r.req, len := 16, writable := false, next := some second }),
   (second, { addr := r.buffer, len := r.count * 512, writable := r.header.type = .read, next := some third }),
   (third, { addr := r.status, len := 1, writable := true, next := none })]

-- A call is in the loop that polls for the completion, or it has left it.
inductive Phase
  | polling (spins : Nat)
  | polled
deriving DecidableEq

structure Call where
  id : Nat
  request : Request
  phase : Phase
deriving DecidableEq

-- What the device has taken from the queue and not completed yet.
structure InFlight where
  id : Nat
  chain : List VirtqDesc
deriving DecidableEq

structure State where
  descTable : Nat → VirtqDesc
  availRing : Nat → Nat
  availIdx : UInt16
  usedIdx : UInt16
  nextDescIdx : Nat
  lastUsedIdx : UInt16
  -- The memory of headers and status bytes, and which call has allocated an address.
  headers : Nat → VirtioBlkReq
  memory : Nat → UInt8
  owner : Nat → Option Nat
  -- The call that holds the lock.
  call : Option Call
  -- The device has fetched that many requests.
  fetched : Nat
  inFlight : List InFlight
  -- Requests are numbered as they are submitted.
  submitted : List Request
  completed : List (Nat × UInt8)
  returned : List (Nat × Int)

def maxSpins : Nat := 10000000

namespace State

variable (vqSize : Nat) (s : State)

-- `req` and `status` are the addresses that `VMemAlloc` yields. If one of them is missing, then the other
-- is freed, and the call returns without a request.
def submit (header : VirtioBlkReq) (buffer : Nat) (count : UInt32) : Option Nat → Option Nat → Except Fault State
  | some req, some status =>
    if s.call.isSome then throw .locked
    else if (s.owner req).isSome ∨ (s.owner status).isSome ∨ req = status then throw .inUse
    else
      let id := s.submitted.length
      let descIdx := s.nextDescIdx
      let request := { header, buffer, count, req, status, descIdx }
      return { s with
        headers := update s.headers req header
        memory := update s.memory status 0xFF
        owner := update (update s.owner req (some id)) status (some id)
        descTable := (request.chain vqSize).foldl (fun table e => update table e.1 e.2) s.descTable
        availRing := update s.availRing (s.availIdx.toNat % vqSize) descIdx
        availIdx := s.availIdx + 1
        call := some { id, request, phase := .polling 0 }
        submitted := s.submitted ++ [request] }
  | _, _ => if s.call.isSome then throw .locked else return s

-- The header and the status are freed, and the lock is released.
def leave (c : Call) (result : Int) : State :=
  { s with
    owner := update (update s.owner c.request.req none) c.request.status none
    call := none
    returned := s.returned ++ [(c.id, result)] }

def giveUp (c : Call) : State :=
  s.leave c (-1)

def finish (c : Call) : State :=
  { s.leave c (if s.memory c.request.status = 0 then 0 else -1) with
    lastUsedIdx := s.usedIdx
    nextDescIdx := (c.request.descIdx + 3) % vqSize }

-- The loop of a read counts its spins, the loop of a write does not end before the index changes.
def poll (c : Call) : State :=
  match c.request.header.type, c.phase with
  | .read,  .polling spins =>
    if s.usedIdx = s.lastUsedIdx ∧ spins < maxSpins then
      { s with call := some { c with phase := .polling (spins + 1) } }
    else { s with call := some { c with phase := .polled } }
  | .read,  .polled => if s.usedIdx = s.lastUsedIdx then s.giveUp c else s.finish vqSize c
  | .write, .polling _ =>
    if s.usedIdx = s.lastUsedIdx then s
    else { s with call := some { c with phase := .polled } }
  | .write, .polled => s.finish vqSize c

-- The device follows a chain of descriptors, which is not longer than the queue.
def follow (table : Nat → VirtqDesc) : Nat → Nat → List VirtqDesc
  | 0,     _ => []
  | k + 1, i =>
    table i :: match (table i).next with
      | none => []
      | some j => follow table k j

def fetch : Except Fault State :=
  let idx := UInt16.ofNat s.fetched
  if idx = s.availIdx then throw .absent
  else return { s with
    fetched := s.fetched + 1
    inFlight := s.inFlight ++
      [{ id := s.fetched, chain := follow s.descTable vqSize (s.availRing (idx.toNat % vqSize)) }] }

-- The status is written to the last buffer of the chain.
def complete (i : Nat) (status : UInt8) : Except Fault State :=
  match s.inFlight[i]? with
  | none => throw .absent
  | some f => return { s with
      inFlight := s.inFlight.eraseIdx i
      memory := match f.chain.getLast? with
        | none => s.memory
        | some desc => update s.memory desc.addr status
      usedIdx := s.usedIdx + 1
      completed := s.completed ++ [(f.id, status)] }

end State

inductive Action
  | virtioBlkRead (sector : UInt64) (buffer : Nat) (count : UInt32) (req status : Option Nat)
  | virtioBlkWrite (sector : UInt64) (buffer : Nat) (count : UInt32) (req status : Option Nat)
  | poll
  | fetch
  | complete (i : Nat) (status : UInt8)

def step (vqSize : Nat) (s : State) : Action → Except Fault State
  | .virtioBlkRead sector buffer count req status =>
    s.submit vqSize { type := .read, sector } buffer count req status
  | .virtioBlkWrite sector buffer count req status =>
    s.submit vqSize { type := .write, sector } buffer count req status
  | .poll =>
    match s.call with
    | none => throw .absent
    | some c => return s.poll vqSize c
  | .fetch => s.fetch vqSize
  | .complete i status => s.complete i status

structure Initial (s : State) : Prop where
  availIdx : s.availIdx = 0
  usedIdx : s.usedIdx = 0
  nextDescIdx : s.nextDescIdx = 0
  lastUsedIdx : s.lastUsedIdx = 0
  call : s.call = none
  fetched : s.fetched = 0
  inFlight : s.inFlight = []
  submitted : s.submitted = []
  completed : s.completed = []
  returned : s.returned = []

abbrev Run (vqSize : Nat) (ok : State → Action → Prop) := Machine.Run Initial (step vqSize) ok

end VirtioBlk
