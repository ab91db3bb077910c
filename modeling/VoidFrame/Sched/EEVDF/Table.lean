import VoidFrame.Sched.EEVDF.Kernel

-- An abstract view of the kernel: the process table without clocks and messages, and the run queue as
-- a mere set of processes.

namespace EEVDF

structure Identity where
  pid : UInt32
  state : ProcessState
  privilegeLevel : UInt8
  token : SecurityToken
  sisSeal : BitVec 64
  stack : UInt64
  context : Registers

-- The books on terminated processes: the circular queue of those that wait for their cleanup, and the
-- numbers of processes.
structure Ledger where
  queue : Slot → Slot
  head : Slot
  tail : Slot
  waiting : Nat
  count : UInt32
  total : UInt32

namespace Ledger

def push (l : Ledger) (p : Slot) : Ledger :=
  { l with queue := Function.update l.queue l.tail p, tail := l.tail + 1, waiting := l.waiting + 1 }

def pop (l : Ledger) : Ledger :=
  { l with head := l.head + 1, waiting := l.waiting - 1 }

def countCreated (l : Ledger) : Ledger :=
  { l with count := l.count + 1, total := l.total + 1 }

def countTerminated (l : Ledger) : Ledger :=
  { l with total := l.total - 1 }

def countCleaned (l : Ledger) : Ledger :=
  { l with count := l.count - 1 }

end Ledger

@[ext]
structure Table where
  process : Slot → Identity
  queued : Slot → Bool
  key : Slot → BitVec 64
  pids : Bitmap 64
  active : BitVec 64
  current : Slot
  ledger : Ledger

def ProcessControlBlock.identity (pcb : ProcessControlBlock) : Identity :=
  { pcb with }

def State.ledger (s : State) : Ledger where
  queue := s.terminationQueue
  head := s.termQueueHead
  tail := s.termQueueTail
  waiting := s.termQueueCount
  count := s.processCount
  total := s.totalProcesses

def State.table (s : State) : Table where
  process p := (s.processes p).identity
  queued p := (s.processes p).rbNode.isSome
  key := s.processKeys
  pids := s.pidBitmap
  active := s.activeBitmap
  current := s.rq.currentSlot
  ledger := s.ledger

-- The parts of the state beside the table that decide what happens next.
structure Control where
  locked : Bool
  currentProcess : Slot
  calls : UInt64

namespace State

def control (s : State) : Control :=
  ⟨s.runqueueLock, s.currentProcess, s.schedulerCalls⟩

section

variable {s : State}

@[simp]
lemma markReady_table : (s.markReady p).table = s.table := rfl

@[simp]
lemma clearReady_table : (s.clearReady p).table = s.table := rfl

@[simp]
lemma requestSchedule_table : (s.requestSchedule p).table = s.table := rfl

lemma countCleaned_table :
    s.countCleaned.table = { s.table with ledger := s.table.ledger.countCleaned } := rfl

@[simp]
lemma countCall_table : s.countCall.table = s.table := rfl

@[simp]
lemma countMessage_table : s.countMessage.table = s.table := rfl

@[simp]
lemma unlockRunqueue_table : s.unlockRunqueue.table = s.table := rfl

@[simp]
lemma markReady_control : (s.markReady p).control = s.control := rfl

@[simp]
lemma clearReady_control : (s.clearReady p).control = s.control := rfl

@[simp]
lemma unlockRunqueue_control : s.unlockRunqueue.control = { s.control with locked := false } := rfl

@[simp]
lemma modifyProcess_control : (s.modifyProcess p f).control = s.control := rfl

end
end State

namespace Table

def state (t : Table) (p : Slot) : ProcessState :=
  (t.process p).state

def setProcess (t : Table) (p : Slot) (i : Identity) : Table :=
  { t with process := Function.update t.process p i }

def setState (t : Table) (p : Slot) (st : ProcessState) : Table :=
  t.setProcess p { t.process p with state := st }

def expectedSeal (t : Table) (p : Slot) : BitVec 64 :=
  let i := t.process p
  sisFastHash (sisCritical i.pid i.privilegeLevel i.state) (t.key p)

def reseal (t : Table) (p : Slot) : Table :=
  t.setProcess p { t.process p with sisSeal := t.expectedSeal p }

def Sealed (t : Table) (p : Slot) : Prop :=
  (t.process p).sisSeal = t.expectedSeal p

instance {t : Table} {p : Slot} : Decidable (t.Sealed p) :=
  inferInstanceAs (Decidable (_ = _))

def enqueue (t : Table) (p : Slot) : Table :=
  { t with queued := Function.update t.queued p true }

def dequeue (t : Table) (p : Slot) : Table :=
  { t with queued := Function.update t.queued p false }

-- A change of state that is sealed.
def enter (t : Table) (p : Slot) (st : ProcessState) : Table :=
  (t.setState p st).reseal p

def push (t : Table) (p : Slot) : Table :=
  { t with ledger := t.ledger.push p }

def countTerminated (t : Table) : Table :=
  { t with ledger := t.ledger.countTerminated }

def retire (t : Table) (p : Slot) : Table :=
  ((t.enter p .zombie).dequeue p).push p |>.countTerminated

def find (t : Table) (pid : UInt32) : Option Slot :=
  (List.finRange maxProcesses).find? fun i => (t.process i).pid = pid && t.state i ≠ .terminated

def asTerminate (t : Table) (pid : UInt32) : Table :=
  (t.find pid).elim t t.retire

def Privileged (t : Table) (p : Slot) : Prop :=
  (t.process p).privilegeLevel = privSystem →
    (t.process p).token.capabilities &&& (capSupervisor ||| capCritical ||| capImmune) ≠ 0

instance {t : Table} {p : Slot} : Decidable (t.Privileged p) :=
  inferInstanceAs (Decidable (_ → _))

def Allows (t : Table) (p : Slot) : Prop :=
  let c := t.process t.current
  let i := t.process p
  (c.pid = i.pid ∨
    ¬(i.privilegeLevel = privSystem ∧ c.privilegeLevel ≠ privSystem) ∧
      i.token.capabilities &&& capImmune = 0 ∧ i.token.capabilities &&& capCritical = 0) ∧
  c.token.magic = sisMagic ∧ t.Sealed t.current

instance {t : Table} {p : Slot} : Decidable (t.Allows p) :=
  inferInstanceAs (Decidable (_ ∧ _))

def freePid (t : Table) (pid : UInt32) : Table :=
  { t with pids := t.pids.clear pid.toNat }

def Admits (t : Table) (p : Slot) : Prop :=
  p = 0 ∨ t.Sealed p ∧ t.Privileged p

def kill (t : Table) (pid : UInt32) : Table :=
  match t.find pid with
  | none => t
  | some p =>
    if (t.state p).Dead then t
    else if ¬t.Allows p then t.asTerminate (t.process t.current).pid
    else (t.retire p).freePid (t.process p).pid

def save (t : Table) (p : Slot) (regs : Registers) : Table :=
  t.setProcess p { t.process p with context := regs }

def stop (t : Table) (regs : Registers) : Table :=
  let p := t.current
  if (t.state p).Dead then t
  else if ¬t.Sealed p then t.asTerminate (t.process p).pid
  else if t.state p = .running then (t.save p regs).enter p .ready
  else t.save p regs

def requeue (t : Table) : Table :=
  if t.state t.current = .ready then t.enqueue t.current else t

-- The run queue hands over a process. The idle process takes over if there is none.
inductive Dispatch (t : Table) : Slot → Table → Prop
  | empty : (∀ p, t.queued p = false) → Dispatch t 0 t
  | take {p : Slot} : t.queued p = true → t.state p = .ready → Dispatch t p (t.dequeue p)
  | skip {p : Slot} : t.queued p = true → t.state p ≠ .ready → Dispatch t 0 t

-- The choice of the next process. If the current process is the idle one, the process `pick` that the
-- run queue offers may be refused.
inductive Tick (pick : Option Slot) (regs : Registers) (t : Table) : Slot → Table → Prop
  | preempt {p : Slot} {t' : Table} :
    t.current ≠ 0 → ((t.stop regs).state t.current = .ready → (t.stop regs).queued t.current = false) →
    Dispatch (t.stop regs).requeue p t' → Tick pick regs t p t'
  | idle {p : Slot} {t' : Table} : t.current = 0 → Dispatch t p t' → Tick pick regs t p t'
  | refuse {q p : Slot} {t' : Table} :
    t.current = 0 → pick = some q → t.queued q = true → ¬t.Admits q →
    Dispatch ((t.asTerminate (t.process q).pid).dequeue q) p t' → Tick pick regs t p t'

def setCurrent (t : Table) (p : Slot) : Table :=
  { t with current := p }

-- The registers are restored, unless the idle process takes over. A process whose stack or entry point
-- is missing becomes the current one, but does not run.
inductive Resume (t : Table) (regs : Registers) (p : Slot) : Registers → Table → Prop
  | idle : p = 0 → Resume t regs p regs (t.setCurrent p)
  | stay :
    p ≠ 0 → (t.process p).stack = 0 ∨ (t.process p).context.rip = 0 →
    Resume t regs p regs (t.setCurrent p)
  | run  :
    p ≠ 0 → (t.process p).stack ≠ 0 → (t.process p).context.rip ≠ 0 →
    Resume t regs p (t.process p).context ((t.setCurrent p).enter p .running)

def pop (t : Table) : Table :=
  { t with ledger := t.ledger.pop }

def clear (t : Table) (p : Slot) : Table :=
  { t.dequeue p with
    process := Function.update t.process p (ProcessControlBlock.identity {})
    active := if 0 < p then t.active &&& ~~~slotMask p else t.active
    ledger := t.ledger.countCleaned }

-- Zombies are cleaned up until the queue is empty or enough of them are gone. Other processes in the
-- queue are skipped.
inductive Cleaned : Nat → Table → Table → Prop
  | refl {n : Nat} {t : Table} : t.ledger.waiting = 0 ∨ cleanupMaxPerCall ≤ n → Cleaned n t t
  | skip {n : Nat} {t t' : Table} :
    n < cleanupMaxPerCall → t.ledger.waiting ≠ 0 → t.state (t.ledger.queue t.ledger.head) ≠ .zombie →
    Cleaned n t.pop t' → Cleaned n t t'
  | step {n : Nat} {t t' : Table} {p : Slot} :
    n < cleanupMaxPerCall → t.ledger.waiting ≠ 0 → t.ledger.queue t.ledger.head = p → t.state p = .zombie →
    Cleaned (n + 1) (t.pop.clear p) t' → Cleaned n t t'

def install (t : Table) (p : Slot) (pid : Nat) (i : Identity) (k : BitVec 64) : Table where
  process := Function.update t.process p i
  queued := Function.update t.queued p true
  key := Function.update t.key p k
  pids := t.pids.set pid
  active := t.active ||| slotMask p
  current := t.current
  ledger := t.ledger.countCreated

-- The lowest slot that is free, apart from that of the idle process.
def freeSlot (t : Table) : Slot :=
  Fin.ofNat maxProcesses (~~~t.active &&& ~~~1).ctz.toNat

-- The process `i` may be installed in slot `p`.
structure Fresh (entryPoint : UInt64) (priv : UInt8) (capabilities : BitVec 64) (stack : UInt64)
    (t : Table) (p : Slot) (n : Nat) (i : Identity) (k : BitVec 64) : Prop where
  entry : entryPoint ≠ 0
  slot : p ≠ 0
  first : t.freeSlot = p
  free : t.active.getLsbD p = false
  pos : 0 < n
  lt : n < maxProcesses
  unused : t.pids.get n = false
  pid : i.pid = UInt32.ofNat n
  state : i.state = .ready
  privilegeLevel : i.privilegeLevel = priv
  magic : i.token.magic = sisMagic
  capabilities : i.token.capabilities = capabilities
  stack_ne : stack ≠ 0
  stack_eq : i.stack = stack
  context : i.context = initialContext entryPoint stack
  sealed : (t.install p n i k).Sealed p

inductive Create (entryPoint : UInt64) (priv : UInt8) (capabilities : BitVec 64) (stack : UInt64)
    (t : Table) : Table → Prop
  | intro {p : Slot} {n : Nat} {i : Identity} {k : BitVec 64} :
    Fresh entryPoint priv capabilities stack t p n i k →
    Create entryPoint priv capabilities stack t (t.install p n i k)

def purge (t : Table) : List Slot → Table
  | [] => t
  | i :: l =>
    (if t.state i ≠ .terminated ∧ (t.process i).pid ≠ 0 then t.asTerminate (t.process i).pid
      else t).purge l

-- What the table does not show, but an action depends on: the process that the run queue offers,
-- whether the tick cleans up, whether the current process has no message, and whether there is room
-- for a message of a given priority.
structure Choice where
  pick : Option Slot
  due : Bool
  empty : Bool
  room : Slot → Ipc.Priority → Bool

inductive Schedule (c : Choice) (regs : Registers) (t : Table) : Registers → Table → Prop
  | intro {p regs' t₁ t₂ t'} :
    Tick c.pick regs t p t₁ → Resume t₁ regs p regs' t₂ → (c.due = true → Cleaned 0 t₂ t') →
    (c.due = false → t' = t₂) → Schedule c regs t regs' t'

-- What an action does to the table.
inductive Step (c : Choice) (t : Table) : Action → Table → Prop
  | create {entryPoint priv capabilities stack t'} :
    Create entryPoint priv capabilities stack t t' →
    Step c t (.create entryPoint priv capabilities stack) t'
  | schedule {regs regs' t'} : Schedule c regs t regs' t' → Step c t (.schedule regs) t'
  | kill {pid} : Step c t (.kill pid) (t.kill pid)
  | killCurrent : Step c t .killCurrent (t.asTerminate (t.process t.current).pid)
  | killAll : Step c t .killAll (t.purge (List.finRange maxProcesses))
  | wakeup {p} :
    t.state p = .blocked → t.queued p = false →
    Step c t (.wakeup (some p)) ((t.setState p .ready).enqueue p)
  | awake {p} : (∀ q, p = some q → t.state q ≠ .blocked) → Step c t (.wakeup p) t
  | cleanup {t'} : Cleaned 0 t t' → Step c t .cleanup t'
  | resume {pid msg p} :
    t.find pid = some p → t.state p = .blocked → c.room p msg.priority = true →
    Step c t (.send pid (some msg)) (t.setState p .ready)
  | send {pid msg} :
    (∀ p m, msg = some m → t.find pid = some p → t.state p = .blocked → c.room p m.priority = false) →
    Step c t (.send pid msg) t
  | block : c.empty = true → Step c t .receive (t.setState t.current .blocked)
  | receive : c.empty = false → Step c t .receive t
  | clock {apicTicks apicHz} : Step c t (.clock apicTicks apicHz) t

section

variable {t : Table} {p q : Slot} {st : ProcessState} {i : Identity}

@[simp]
lemma enter_state : (t.enter p st).state q = if q = p then st else t.state q := by
  by_cases hq : q = p <;> simp [enter, reseal, setState, setProcess, state, hq]

@[simp]
lemma enter_pid : ((t.enter p st).process q).pid = (t.process q).pid := by
  by_cases hq : q = p <;> simp [enter, reseal, setState, setProcess, hq]

@[simp]
lemma enter_privilegeLevel :
    ((t.enter p st).process q).privilegeLevel = (t.process q).privilegeLevel := by
  by_cases hq : q = p <;> simp [enter, reseal, setState, setProcess, hq]

@[simp]
lemma enter_token : ((t.enter p st).process q).token = (t.process q).token := by
  by_cases hq : q = p <;> simp [enter, reseal, setState, setProcess, hq]

@[simp]
lemma enter_context : ((t.enter p st).process q).context = (t.process q).context := by
  by_cases hq : q = p <;> simp [enter, reseal, setState, setProcess, hq]

@[simp]
lemma enter_stack : ((t.enter p st).process q).stack = (t.process q).stack := by
  by_cases hq : q = p <;> simp [enter, reseal, setState, setProcess, hq]

@[simp]
lemma enter_queued : (t.enter p st).queued = t.queued := rfl

@[simp]
lemma enter_pids : (t.enter p st).pids = t.pids := rfl

@[simp]
lemma enter_active : (t.enter p st).active = t.active := rfl

@[simp]
lemma enter_current : (t.enter p st).current = t.current := rfl

lemma enter_sealed_self : (t.enter p st).Sealed p := by
  simp [Sealed, enter, reseal, setState, setProcess, expectedSeal]

lemma enter_sealed_of_ne (hq : q ≠ p) : (t.enter p st).Sealed q ↔ t.Sealed q := by
  simp [Sealed, enter, reseal, setState, setProcess, expectedSeal, hq]

@[simp]
lemma enqueue_process : (t.enqueue p).process = t.process := rfl

@[simp]
lemma enqueue_state : (t.enqueue p).state q = t.state q := rfl

@[simp]
lemma enqueue_queued : (t.enqueue p).queued q = (decide (q = p) || t.queued q) := by
  by_cases hq : q = p <;> simp [enqueue, hq]

@[simp]
lemma enqueue_current : (t.enqueue p).current = t.current := rfl

@[simp]
lemma dequeue_current : (t.dequeue p).current = t.current := rfl

@[simp]
lemma dequeue_process : (t.dequeue p).process = t.process := rfl

@[simp]
lemma dequeue_state : (t.dequeue p).state q = t.state q := rfl

@[simp]
lemma dequeue_queued : (t.dequeue p).queued q = (!decide (q = p) && t.queued q) := by
  by_cases hq : q = p <;> simp [dequeue, hq]

@[simp]
lemma retire_state : (t.retire p).state q = if q = p then .zombie else t.state q :=
  enter_state

@[simp]
lemma retire_pid : ((t.retire p).process q).pid = (t.process q).pid :=
  enter_pid

@[simp]
lemma retire_queued : (t.retire p).queued q = (!decide (q = p) && t.queued q) :=
  dequeue_queued

@[simp]
lemma retire_active : (t.retire p).active = t.active := rfl

@[simp]
lemma retire_current : (t.retire p).current = t.current := rfl

@[simp]
lemma pop_state : t.pop.state q = t.state q := rfl

@[simp]
lemma pop_queued : t.pop.queued = t.queued := rfl

@[simp]
lemma clear_state : (t.clear p).state q = if q = p then .terminated else t.state q := by
  by_cases hq : q = p <;> simp [clear, state, hq, ProcessControlBlock.identity]

@[simp]
lemma clear_queued : (t.clear p).queued q = (!decide (q = p) && t.queued q) :=
  dequeue_queued

lemma find_eq_some (h : t.find pid = some p) :
    (t.process p).pid = pid ∧ t.state p ≠ .terminated := by
  simpa using List.find?_some h

lemma exists_find (h : t.state p ≠ .terminated) : ∃ q, t.find (t.process p).pid = some q := by
  cases hf : t.find (t.process p).pid
  case some q => exact ⟨q, rfl⟩
  have := List.find?_eq_none.mp hf p (List.mem_finRange p)
  simp [h] at this

end

end Table

namespace State

variable {s : State} {p : Slot}

lemma table_state : s.table.state p = (s.processes p).state := rfl

lemma table_pid : (s.table.process p).pid = (s.processes p).pid := rfl

def choice (s : State) : Table.Choice where
  pick := pickNext s
  due := (s.schedulerCalls + 1) % 100 = 0
  empty := (s.processes s.currentProcess).ipcQueue.count = 0
  room p priority := ((s.processes p).ipcQueue.reserve priority).isSome

end State

end EEVDF
