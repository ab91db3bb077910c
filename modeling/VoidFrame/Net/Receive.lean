import VoidFrame.Library.Bytes
import VoidFrame.Library.Effect
import VoidFrame.Library.Machine

-- The receive path of the network drivers: the E1000 receive ring, the RTL8139 receive buffer and
-- the handlers of IP, ICMP and ARP packets.

namespace Net

abbrev e1000NumRxDesc : Nat := 32

instance : NeZero e1000NumRxDesc := ⟨by decide⟩

abbrev arpCacheSize : Nat := 16

-- 8 KiB and a 16-byte header.
def rxBufferSize : Nat := 8192 + 16

def ethernetHeaderSize : Nat := 14
def ipHeaderSize : Nat := 20
def icmpHeaderSize : Nat := 8
def arpPacketSize : Nat := 28

-- `HTONS(0x0800)` and `HTONS(0x0806)`.
def etherIPv4 : UInt16 := 0x0008
def etherARP : UInt16 := 0x0608

-- `HTONS(2)`.
def arpReply : UInt16 := 0x0200

def ipProtocolICMP : UInt8 := 1
def icmpTypeEchoReply : UInt8 := 0
def icmpTypeEchoRequest : UInt8 := 8

-- `10.0.2.15`.
def ownIp : List UInt8 := [10, 0, 2, 15]

-- The memory from the address that a receive handler takes as the start of a frame, and how many of
-- its bytes the device has received for the frame.
structure Frame where
  data : Nat → UInt8
  received : Nat

def Frame.bytes (f : Frame) (offset count : Nat) : List UInt8 :=
  (List.range count).map (f.data <| offset + ·)

-- What is observed of a receive handler: the bytes of a frame that it reads, and length computations
-- whose value does not fit into 16 bits.
inductive Event
  | read (received offset count : Nat)
  | wrap (length : Int)
  deriving DecidableEq, Repr

def Event.InBounds : Event → Prop
  | read received offset count => offset + count ≤ received
  | wrap _ => False

inductive ArpCacheEntryState
  | empty
  | resolving
  | resolved
  deriving DecidableEq, Repr

structure ArpCacheEntry where
  ip : List UInt8
  mac : List UInt8
  state : ArpCacheEntryState

structure E1000RxDesc where
  length : UInt16
  status : UInt8

structure State where
  arpCache : Fin arpCacheSize → ArpCacheEntry
  e1000 : Bool
  rxDescs : Fin e1000NumRxDesc → E1000RxDesc
  rxBuffers : Fin e1000NumRxDesc → Nat → UInt8
  rxCur : Fin e1000NumRxDesc
  rxBuffer : Nat → UInt8
  currentRxOffset : UInt16
  macAddress : List UInt8
  sent : List (List UInt8)
  events : List Event

abbrev Handler := StateM State

def touch (f : Frame) (offset count : Nat) : Handler Unit :=
  modify fun s => { s with events := s.events ++ [.read f.received offset count] }

-- A length is stored into a `uint16_t`.
def narrow (length : Int) : Handler UInt16 := do
  if ¬(0 ≤ length ∧ length < 2 ^ 16) then
    modify fun s => { s with events := s.events ++ [.wrap length] }
  return UInt16.ofInt length

-- `send_packet` of the first network device. A frame is only received by a device that is
-- registered, so there is one.
def sendPacket (frame : List UInt8) : Handler Unit :=
  modify fun s => { s with sent := s.sent ++ [frame] }

def bigEndian (n : UInt16) : List UInt8 :=
  [(n >>> 8).toUInt8, n.toUInt8]

def littleEndian (n : UInt16) : List UInt8 :=
  [n.toUInt8, (n >>> 8).toUInt8]

def sumWords : List UInt8 → Nat
  | lo :: hi :: l => lo.toNat + 256 * hi.toNat + sumWords l
  | [b] => b.toNat
  | [] => 0

def foldCarry (sum : Nat) : Nat :=
  if sum / 2 ^ 16 = 0 then sum else foldCarry (sum % 2 ^ 16 + sum / 2 ^ 16)
termination_by sum
decreasing_by omega

-- `IpChecksum` and `IcmpChecksum`.
def checksum (l : List UInt8) : UInt16 :=
  ~~~UInt16.ofNat (foldCarry (sumWords l))

def arpSendRequest (f : Frame) (ip : Nat) : Handler Unit := do
  let mac := (← get).macAddress
  touch f ip 4
  sendPacket <| List.replicate 6 0xFF ++ mac ++ littleEndian etherARP ++
    bigEndian 1 ++ bigEndian 0x0800 ++ [6, 4] ++ bigEndian 1 ++
    mac ++ ownIp ++ List.replicate 6 0 ++ f.bytes ip 4

def arpResolveIn (f : Frame) (ip : Nat) : List (Fin arpCacheSize) → Handler (Option (List UInt8))
  | [] => do
    arpSendRequest f ip
    return none
  | i :: l => do
    let entry := (← get).arpCache i
    if entry.state = .resolved then
      touch f ip 4
      if entry.ip = f.bytes ip 4 then
        return some entry.mac
      else
        arpResolveIn f ip l
    else
      arpResolveIn f ip l

def arpResolve (f : Frame) (ip : Nat) : Handler (Option (List UInt8)) :=
  arpResolveIn f ip (List.finRange arpCacheSize)

def arpHandlePacket (f : Frame) (len : UInt16) : Handler Unit :=
  if len.toNat < ethernetHeaderSize + arpPacketSize then
    return
  else do
    touch f (ethernetHeaderSize + 6) 2
    if Bytes.u16 f.data (ethernetHeaderSize + 6) = arpReply then
      let s ← get
      match (List.finRange arpCacheSize).find? fun i => (s.arpCache i).state = .empty with
      | none => return
      | some i =>
        touch f (ethernetHeaderSize + 14) 4
        touch f (ethernetHeaderSize + 8) 6
        let entry : ArpCacheEntry := {
          state := .resolved
          ip := f.bytes (ethernetHeaderSize + 14) 4
          mac := f.bytes (ethernetHeaderSize + 8) 6
        }
        modify fun s => { s with arpCache := Function.update s.arpCache i entry }

def ipHeader (protocol : UInt8) (dest : List UInt8) (totalLen check : UInt16) : List UInt8 :=
  [0x45, 0] ++ bigEndian totalLen ++ bigEndian 1 ++ [0, 0, 64, protocol] ++ littleEndian check ++
    ownIp ++ dest

-- The address of the destination is read out of the frame.
def ipSend (f : Frame) (destIp : Nat) (protocol : UInt8) (data : List UInt8) (len : UInt16) :
    Handler Unit := do
  match ← arpResolve f destIp with
  | none => return
  | some destMac =>
    let totalLen ← narrow (ipHeaderSize + len.toNat)
    touch f destIp 4
    let header := ipHeader protocol (f.bytes destIp 4) totalLen
    let packet := header (checksum (header 0)) ++ data
    let ethTotalLen ← narrow (ethernetHeaderSize + totalLen.toNat)
    let mac := (← get).macAddress
    sendPacket <| (destMac ++ mac ++ littleEndian etherIPv4 ++ packet).take ethTotalLen.toNat

def echoReply (f : Frame) (icmp : Nat) (len : UInt16) : List UInt8 :=
  let reply (check : UInt16) := [icmpTypeEchoReply, 0] ++ littleEndian check ++ f.bytes (icmp + 4) 4 ++
    f.bytes (icmp + icmpHeaderSize) (len.toNat - icmpHeaderSize)
  reply (checksum (reply 0))

def icmpHandlePacket (f : Frame) (ip icmp : Nat) (len : UInt16) : Handler Unit :=
  if len.toNat < icmpHeaderSize then
    return
  else do
    touch f icmp 1
    if f.data icmp = icmpTypeEchoRequest then
      touch f (icmp + 4) 2
      touch f (icmp + 6) 2
      touch f (icmp + icmpHeaderSize) (len.toNat - icmpHeaderSize)
      ipSend f (ip + 12) ipProtocolICMP (echoReply f icmp len) len
    else
      -- The type is compared with that of an echo reply.
      touch f icmp 1

def ipHandlePacket (f : Frame) (ip : Nat) (len : UInt16) : Handler Unit := do
  touch f (ip + 9) 1
  if f.data (ip + 9) = ipProtocolICMP then
    let icmpLen ← narrow (len.toNat - ipHeaderSize)
    icmpHandlePacket f ip (ip + ipHeaderSize) icmpLen
  else
    touch f (ip + 9) 1

-- What both drivers do with a frame.
def dispatch (f : Frame) (len : UInt16) : Handler Unit := do
  touch f 12 2
  if Bytes.u16 f.data 12 = etherIPv4 then
    let ipLen ← narrow (len.toNat - ethernetHeaderSize)
    ipHandlePacket f ethernetHeaderSize ipLen
  else
    touch f 12 2
    if Bytes.u16 f.data 12 = etherARP then
      arpHandlePacket f len

def State.e1000Frame (s : State) (i : Fin e1000NumRxDesc) : Frame where
  data := s.rxBuffers i
  received := (s.rxDescs i).length.toNat

def E1000RxDesc.Ready (desc : E1000RxDesc) : Prop :=
  desc.status &&& 1 ≠ 0

instance (desc : E1000RxDesc) : Decidable desc.Ready :=
  inferInstanceAs (Decidable (_ ≠ _))

def State.resetDescriptor (s : State) : State :=
  { s with
    rxDescs := Function.update s.rxDescs s.rxCur { s.rxDescs s.rxCur with status := 0 }
    rxCur := finRotate _ s.rxCur }

-- The loop of `E1000_HandleReceive`: every iteration clears a descriptor.
def e1000Loop : Nat → Handler Unit
  | 0 => return
  | n + 1 => do
    let s ← get
    if (s.rxDescs s.rxCur).Ready then
      dispatch (s.e1000Frame s.rxCur) (s.rxDescs s.rxCur).length
      modify State.resetDescriptor
      e1000Loop n

def e1000HandleReceive : Handler Unit := do
  if (← get).e1000 then
    e1000Loop e1000NumRxDesc

-- The header of a frame in the receive buffer of the RTL8139: the status, and the length of the
-- packet that follows the header.
def State.packetLen (s : State) : UInt16 :=
  Bytes.u16 s.rxBuffer (s.currentRxOffset.toNat + 2)

def State.rtl8139Frame (s : State) : Frame where
  data := fun i => s.rxBuffer (s.currentRxOffset.toNat + i)
  received := 4 + s.packetLen.toNat

-- `(current_rx_offset + packet_len + 4 + 3) & ~3`.
def State.nextRxOffset (s : State) : Nat :=
  (s.currentRxOffset.toNat + s.packetLen.toNat + 4 + 3) / 4 * 4

def wrapRxOffset (offset : UInt16) : UInt16 :=
  if rxBufferSize < offset.toNat then offset - .ofNat rxBufferSize else offset

def rtl8139HandleReceive (status : UInt16) : Handler Unit :=
  if status &&& 1 = 0 then
    return
  else do
    let s ← get
    touch s.rtl8139Frame 2 2
    dispatch s.rtl8139Frame s.packetLen
    let offset ← narrow s.nextRxOffset
    modify fun s => { s with currentRxOffset := wrapRxOffset offset }

inductive Action
  | fillDescriptor (i : Fin e1000NumRxDesc) (desc : E1000RxDesc) (data : Nat → UInt8)
  | fillBuffer (data : Nat → UInt8)
  | e1000HandleReceive
  | rtl8139HandleReceive (status : UInt16)

-- The device changes the memory that it receives into at any time.
def perform : Action → Handler Unit
  | .fillDescriptor i desc data => modify fun s => { s with
      rxDescs := Function.update s.rxDescs i desc
      rxBuffers := Function.update s.rxBuffers i data }
  | .fillBuffer data => modify fun s => { s with rxBuffer := data }
  | .e1000HandleReceive => e1000HandleReceive
  | .rtl8139HandleReceive status => rtl8139HandleReceive status

def step (s : State) (a : Action) : Except Empty State :=
  .ok ((perform a).run s).2

-- After `Net_Initialize`.
structure Initial (s : State) : Prop where
  cache : ∀ i, (s.arpCache i).state = .empty
  status : ∀ i, (s.rxDescs i).status = 0
  cur : s.rxCur = 0
  offset : s.currentRxOffset = 0
  events : s.events = []

abbrev Run (ok : State → Action → Prop) := Machine.Run Initial step ok

end Net
