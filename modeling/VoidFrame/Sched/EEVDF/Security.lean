import VoidFrame.Crypto.CRC32
import VoidFrame.Sched.EEVDF.State

namespace EEVDF

def sisMagic : BitVec 64 := 0x5EC0DE4D41474943

def sisSaltBase : BitVec 64 := 0xDEADBEEFCAFEBABE

def sisFastHash (a b : BitVec 64) : BitVec 64 :=
  (CRC32.crc32 (CRC32.bytes a ++ CRC32.bytes b)).setWidth 64

def sisGenerateProcessKey (s : State) (slot : Slot) (pid : UInt32) : State :=
  let nonce := s.globalNonce + 1
  let key := sisFastHash (sisSaltBase ^^^ nonce)
    (pid.toBitVec.setWidth 64 <<< 32 ||| BitVec.ofNat 64 slot)
  { s with globalNonce := nonce, processKeys := Function.update s.processKeys slot key }

-- The fields of a process that its seal covers.
def sisCritical (pid : UInt32) (privilegeLevel : UInt8) (state : ProcessState) : BitVec 64 :=
  pid.toBitVec.setWidth 64 <<< 32 ||| privilegeLevel.toBitVec.setWidth 64 <<< 16 ||| state.toBitVec

def sisSealPCB (s : State) (pcb : ProcessControlBlock) (slot : Slot) : BitVec 64 :=
  sisFastHash (sisCritical pcb.pid pcb.privilegeLevel pcb.state) (s.processKeys slot)

def sisVerifyPCB (s : State) (slot : Slot) : Bool :=
  (s.processes slot).sisSeal = sisSealPCB s (s.processes slot) slot

def sisUpdateSeal (s : State) (slot : Slot) : State :=
  s.modifyProcess slot fun pcb => { pcb with sisSeal := sisSealPCB s pcb slot }

def sisValidateProcess (s : State) (slot : Slot) : Bool :=
  (s.processes slot).token.magic = sisMagic && sisVerifyPCB s slot

def calculateTokenChecksum (token : SecurityToken) : BitVec 64 :=
  sisFastHash token.magic token.capabilities

end EEVDF
