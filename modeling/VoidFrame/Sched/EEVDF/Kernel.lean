import VoidFrame.Library.Machine
import VoidFrame.Library.Returns
import VoidFrame.Sched.EEVDF.Process

namespace EEVDF

def State.countMessage (s : State) : State :=
  { s with nextSequenceId := s.nextSequenceId + 1 }

-- A null pointer to a message is `none`. A target that waits for a message becomes ready, and
-- nothing else happens to it.
def sendMessage (s : State) (targetPid : UInt32) (msg : Option Ipc.Message) : Ipc.Result × State :=
  match msg with
  | none => (.invalidMsg, s)
  | some msg =>
    match s.getCurrentProcessByPID targetPid with
    | none => (.noProcess, s)
    | some target =>
      let msg := { msg with timestamp := s.systemTicks, sequenceId := s.nextSequenceId }
      match (s.processes target).ipcQueue.push msg with
      | none => (.queueFull, s)
      | some q =>
        let s := (s.modifyProcess target fun pcb => { pcb with ipcQueue := q }).countMessage
        let s :=
          if (s.processes target).state = .blocked then
            s.modifyProcess target fun pcb => { pcb with state := .ready }
          else s
        (.success, s)

-- A round of the loop in `IpcReceiveMessage`. The loop goes on as long as there is no message.
def receiveMessage (s : State) : Option Ipc.Message × State :=
  let current := s.currentProcess
  let q := (s.processes current).ipcQueue
  if 0 < q.count then
    let (msg, q) := q.pop
    (some msg, s.modifyProcess current fun pcb => { pcb with ipcQueue := q })
  else (none, s.modifyProcess current fun pcb => { pcb with state := .blocked })

-- What happens in the kernel: calls of its functions, ticks of the timer, and the passing of time.
inductive Action
  | create (entryPoint : UInt64) (priv : UInt8) (capabilities : BitVec 64) (stack : UInt64)
  | schedule (regs : Registers)
  | kill (pid : UInt32)
  | killCurrent
  | killAll
  | wakeup (p : Option Slot)
  | cleanup
  | send (targetPid : UInt32) (msg : Option Ipc.Message)
  | receive
  | clock (apicTicks apicHz : UInt32)

def exec (s : State) : Action → Except Fault State
  | .create entryPoint priv capabilities stack =>
    (·.2) <$> createSecureProcess s entryPoint priv capabilities stack
  | .schedule regs => (·.2) <$> schedule s regs
  | .kill pid => killProcess s pid
  | .killCurrent => killCurrentProcess s
  | .killAll => killAllProcesses s
  | .wakeup p => wakeupTask s p
  | .cleanup => return cleanupTerminatedProcess s
  | .send targetPid msg => return (sendMessage s targetPid msg).2
  | .receive => return (receiveMessage s).2
  | .clock apicTicks apicHz => return { s with apicTicks, apicHz }

-- The states that the kernel reaches by actions which `ok` admits.
inductive Run (ok : State → Action → Prop) : State → Prop
  | init (apicTicks apicHz : UInt32) : Run ok (schedInit apicTicks apicHz)
  | step {s s' : State} {a : Action} : Run ok s → ok s a → exec s a = .ok s' → Run ok s'

namespace Run

variable {ok ok' : State → Action → Prop} {s : State}

lemma of_exec {l : List Action} {s'} (hs : Run ok s) (h : ∀ s, ∀ a ∈ l, ok s a)
    (he : l.foldlM exec s = .ok s') : Run ok s' := by
  induction l generalizing s
  case nil =>
    cases he
    exact hs
  case cons a l ih =>
    have ⟨s1, he1, he⟩ := Except.of_bind he
    exact ih (.step hs (h s a (.head _)) he1) (fun s a ha => h s a (.tail _ ha)) he

end Run

lemma exists_exec {s : State} {l : List Action} {P : State → Prop} [DecidablePred P]
    (h : ((l.foldlM exec s).toOption.any (P ·)) = true) : ∃ s', l.foldlM exec s = .ok s' ∧ P s' :=
  Machine.exists_exec h

lemma Run.exists_of_all {ok : State → Action → Prop} [∀ s a, Decidable (ok s a)] {s : State}
    {l : List Action} {P : State → Prop} [DecidablePred P] (hs : Run ok s)
    (h : (l.foldlM (fun s a => if ok s a then (exec s a).toOption else none) s).any (P ·) = true) :
    ∃ s', Run ok s' ∧ P s' := by
  obtain ⟨s', hs', hp⟩ := (Machine.Run.init hs : Machine.Run (Run ok) exec ok s).exists_of_all h
  exact ⟨s', hs'.invariant (fun _ h => h) fun h ha he => .step h ha he, hp⟩

end EEVDF
