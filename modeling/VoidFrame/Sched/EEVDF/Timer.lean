import VoidFrame.Sched.EEVDF.RunQueue

-- The timer, whose ticks and frequency are what the scheduler knows of time.

namespace EEVDF

def State.countTick (s : State) : State :=
  { s with apicTicks := s.apicTicks + 1 }

-- `ApicTimerSetFrequency`, without the programming of the hardware.
def State.apicTimerSetFrequency (s : State) (frequencyHz : UInt32) : State :=
  if frequencyHz = 0 then s else { s with apicHz := frequencyHz }

def State.startClock (s : State) (p : Slot) : State :=
  s.modifyProcess p fun pcb => { pcb with execStart := s.getNS }

-- The kernel, beside the time in nanoseconds that has really passed: in total, and when the clock of a
-- process was last set.
structure Timed where
  kernel : State
  elapsed : Rat
  started : Slot → Rat

inductive TimerEvent
  | tick
  | setFrequency (frequencyHz : UInt32)
  | start (p : Slot)
  | charge (p : Slot)

namespace Timed

-- A tick comes after the time that the frequency in force stands for.
def exec (w : Timed) : TimerEvent → Except Fault Timed
  | .tick => return { w with
    kernel := w.kernel.countTick
    elapsed := w.elapsed + 1000000000 / w.kernel.apicHz.toNat }
  | .setFrequency frequencyHz => return { w with
    kernel := w.kernel.apicTimerSetFrequency frequencyHz }
  | .start p => return { w with
    kernel := w.kernel.startClock p
    started := Function.update w.started p w.elapsed }
  | .charge p => return { w with
    kernel := updateCurr w.kernel p
    started := if w.kernel.getNS = (w.kernel.processes p).execStart then w.started
      else Function.update w.started p w.elapsed }

-- The timer has a frequency, but has not ticked yet.
structure Booted (w : Timed) : Prop where
  ticks : w.kernel.apicTicks = 0
  hz : w.kernel.apicHz ≠ 0
  execStart : ∀ p, (w.kernel.processes p).execStart = 0
  elapsed : w.elapsed = 0
  started : ∀ p, w.started p = 0

-- The number of ticks does not wrap.
def InRange (w : Timed) : TimerEvent → Prop
  | .tick => w.kernel.apicTicks.toNat + 1 < 2 ^ 32
  | _ => True

-- Besides, the frequency stays as it is once the timer ticks.
def Steady (w : Timed) : TimerEvent → Prop
  | .tick => w.kernel.apicTicks.toNat + 1 < 2 ^ 32
  | .setFrequency f => f = 0 ∨ f = w.kernel.apicHz ∨ w.kernel.apicTicks = 0
  | _ => True

end Timed
end EEVDF
