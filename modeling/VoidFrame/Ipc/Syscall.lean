import VoidFrame.Sched.EEVDF.Kernel

-- The ways in which processes use the messages.

namespace Ipc

open EEVDF (State)

def Result.code : Result → Int
  | success => 0
  | queueFull => -1
  | noProcess => -2
  | invalidMsg => -3

-- The bytes of a payload: two words, and the data after them.
def layout (first second : UInt32) (data : Nat → UInt8) (size : Nat) (i : Fin maxPayload) : UInt8 :=
  if i < 4 then (first >>> UInt32.ofNat (8 * i)).toUInt8
  else if i < 8 then (second >>> UInt32.ofNat (8 * (i - 4))).toUInt8
  else if i - 8 < size then data (i - 8)
  else 0

def requestMessage (s : State) (requestId : UInt32) (data : Nat → UInt8) (size : UInt64) : Message where
  senderPid := (s.processes s.currentProcess).pid
  sequenceId := 0
  type := .request
  priority := .normal
  timestamp := 0
  size := size + 8
  payload := layout requestId 0 data size.toNat

-- A null pointer to the data is `none`, and `idPtr` is false if there is no place for the ID of the
-- request. The ID is taken before the message is sent.
def sendRequest (s : State) (targetPid : UInt32) (data : Option (Nat → UInt8)) (size : UInt64)
    (idPtr : Bool) : Result × State :=
  match data with
  | none => (.invalidMsg, s)
  | some data =>
    if UInt64.ofNat (maxPayload - 8) < size ∨ !idPtr then (.invalidMsg, s)
    else
      let requestId := s.nextSequenceId
      let s := s.countMessage
      EEVDF.sendMessage s targetPid (some (requestMessage s requestId data size))

def responseMessage (s : State) (requestId : UInt32) (data : Option (Nat → UInt8)) (size : UInt64)
    (status : UInt32) : Message where
  senderPid := (s.processes s.currentProcess).pid
  sequenceId := 0
  type := .response
  priority := .high
  timestamp := 0
  size := size + 8
  payload := match data with
    | some data => layout requestId status data size.toNat
    | none => layout requestId status (fun _ => 0) 0

def sendResponse (s : State) (targetPid requestId : UInt32) (data : Option (Nat → UInt8)) (size : UInt64)
    (status : UInt32) : Result × State :=
  if UInt64.ofNat (maxPayload - 8) < size then (.invalidMsg, s)
  else EEVDF.sendMessage s targetPid (some (responseMessage s requestId data size status))

-- `SYS_IPC_SEND_MESSAGE`: the message is copied from the process, or cannot be read.
def syscallSend (s : State) (targetPid : UInt32) (userMsg : Option Message) : Int × State :=
  match userMsg with
  | none => (-1, s)
  | some msg =>
    let (result, s) := EEVDF.sendMessage s targetPid (some msg)
    (result.code, s)

-- A round of `SYS_IPC_RECEIVE_MESSAGE`: nothing is returned as long as the process waits. A message that
-- cannot be copied to the process is lost.
def syscallReceive (s : State) (writable : Bool) : Option (Int × Option Message) × State :=
  let (msg, s) := EEVDF.receiveMessage s
  (msg.map fun msg => if writable then (Result.success.code, some msg) else (-1, none), s)

end Ipc
