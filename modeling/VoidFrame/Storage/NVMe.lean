import VoidFrame.Library.Machine

-- The I/O queues of the NVMe driver and its controller. The lock of the driver covers the submission
-- only, so several calls can wait for their completions at the same time.

namespace NVMe

open Function (update)

inductive Fault
  | absent
  | full

def ioQueueSize : Nat := 256

def timeoutMs : Nat := 5000

-- The upper half of `cdw0` is the identifier of a command.
structure NVMeSubmissionEntry where
  cdw0 : UInt32
  nsid : UInt32
  prp1 : Nat
  prp2 : Nat
  cdw10 : UInt32
  cdw11 : UInt32
  cdw12 : UInt32
deriving DecidableEq

structure NVMeCompletionEntry where
  cid : Nat
  status : Nat
deriving DecidableEq

-- A call looks for a completion, or it takes the one that it has found.
inductive Phase
  | polling (startTime : Nat)
  | taking (status : Nat)
deriving DecidableEq

structure State where
  ioSq : Nat → NVMeSubmissionEntry
  ioSqTail : Nat
  ioCq : Nat → NVMeCompletionEntry
  ioCqHead : Nat
  ioCqPhase : Nat
  now : Nat
  -- Commands, and the calls that wait for them, are numbered as they are submitted.
  calls : Nat → Option Phase
  submitted : List NVMeSubmissionEntry
  returned : List (Nat × Int)
  -- The controller has fetched and completed that many commands.
  fetched : Nat
  inFlight : List (Nat × NVMeSubmissionEntry)
  posted : Nat
  completed : List (Nat × Nat)

namespace State

variable (s : State)

-- What `NVMe_SubmitIOCommand` does before it waits.
def submit (cmd : NVMeSubmissionEntry) : State :=
  { s with
    ioSq := update s.ioSq s.ioSqTail cmd
    ioSqTail := (s.ioSqTail + 1) % ioQueueSize
    calls := update s.calls s.submitted.length (some (.polling s.now))
    submitted := s.submitted ++ [cmd] }

def leave (k : Nat) (result : Int) : State :=
  { s with
    calls := update s.calls k none
    returned := s.returned ++ [(k, result)] }

-- One round of the loop. The identifier in the entry is not looked at.
def poll (k : Nat) : Phase → State
  | .polling startTime =>
    if s.now - startTime < timeoutMs then
      let status := (s.ioCq s.ioCqHead).status
      if status % 2 = s.ioCqPhase then { s with calls := update s.calls k (some (.taking status)) } else s
    else s.leave k (-1)
  | .taking status =>
    let head := (s.ioCqHead + 1) % ioQueueSize
    { s.leave k (status / 2 % 2 ^ 11 : Nat) with
      ioCqHead := head
      ioCqPhase := if head = 0 then 1 - s.ioCqPhase else s.ioCqPhase }

def fetch : Except Fault State :=
  if s.fetched % ioQueueSize = s.ioSqTail then throw .absent
  else return { s with
    fetched := s.fetched + 1
    inFlight := s.inFlight ++ [(s.fetched, s.ioSq (s.fetched % ioQueueSize))] }

-- The phase tag that the controller writes in its current pass through the queue.
def phaseTag (posted : Nat) : Nat :=
  1 - posted / ioQueueSize % 2

-- `code` is the status field without the phase tag. The queue is full if there is one entry left.
def complete (i code : Nat) : Except Fault State :=
  match s.inFlight[i]? with
  | none => throw .absent
  | some (k, cmd) =>
    if (s.posted + 1) % ioQueueSize = s.ioCqHead then throw .full
    else return { s with
      inFlight := s.inFlight.eraseIdx i
      ioCq := update s.ioCq (s.posted % ioQueueSize)
        { cid := (cmd.cdw0 >>> 16).toNat, status := (2 * code + phaseTag s.posted) % 2 ^ 16 }
      posted := s.posted + 1
      completed := s.completed ++ [(k, code)] }

end State

inductive Action
  | submit (cmd : NVMeSubmissionEntry)
  | poll (k : Nat)
  | tick (ms : Nat)
  | fetch
  | complete (i code : Nat)

def step (s : State) : Action → Except Fault State
  | .submit cmd => return s.submit cmd
  | .poll k =>
    match s.calls k with
    | none => throw .absent
    | some phase => return s.poll k phase
  | .tick ms => return { s with now := s.now + ms }
  | .fetch => s.fetch
  | .complete i code => s.complete i code

-- `NVMe_CreateIOQueues`
structure Initial (s : State) : Prop where
  ioSqTail : s.ioSqTail = 0
  ioCq : ∀ i, s.ioCq i = ⟨0, 0⟩
  ioCqHead : s.ioCqHead = 0
  ioCqPhase : s.ioCqPhase = 1
  calls : ∀ k, s.calls k = none
  submitted : s.submitted = []
  returned : s.returned = []
  fetched : s.fetched = 0
  inFlight : s.inFlight = []
  posted : s.posted = 0
  completed : s.completed = []

abbrev Run (ok : State → Action → Prop) := Machine.Run Initial step ok

end NVMe
