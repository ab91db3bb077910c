import VoidFrame.Ipc.Syscall
import VoidFrame.Ipc.Theorems.History
import VoidFrame.Library.Machine
import VoidFrame.Sched.EEVDF.Theorems.Change

-- Who has sent a message.

namespace EEVDF

variable {s t : State} {p : Slot} {pid : UInt32} {f : ProcessControlBlock → ProcessControlBlock}
  {pcb : ProcessControlBlock} {reason : TerminationReason} {code : UInt32} {regs : Registers}

-- The messages for each process are those of before, unless the process is a new one.
def Quiet (s t : State) : Prop :=
  ∀ p, (t.processes p).ipcQueue = (s.processes p).ipcQueue ∨ (t.processes p).ipcQueue = {}

-- The scheduler leaves the messages alone, or clears them along with the control block.
lemma lax_quiet : Lax fun a b => b.ipcQueue = a.ipcQueue ∨ b.ipcQueue = {} where
  trans h h' := h'.elim (fun he => h.imp he.trans he.trans) .inr
  tunes h := .inl h.queue
  clear _ := .inr rfl

lemma wakeupTask_quiet : ∀ p, (wakeupTask s p).Returns (Quiet s)
  | none => .ok (Change.refl lax_quiet s)
  | some p => by
    unfold wakeupTask
    dsimp only
    split
    · exact .ok (Change.refl lax_quiet s)
    · refine (enqueueTask_evolves _).mono fun _ h => Change.trans lax_quiet ?_ (.of_evolves lax_quiet h)
      exact .setProcess lax_quiet (.inl rfl)

lemma installProcess_quiet : Quiet s (installProcess s p pid entry priv caps stack) := by
  intro q
  by_cases hq : q = p
  case pos =>
    subst hq
    exact .inr (by simp [installProcess, State.markReady, State.countCreated, sisUpdateSeal,
      sisGenerateProcessKey, initProcess, setTaskNice])
  exact .inl (by simp [installProcess, State.markReady, State.countCreated, sisUpdateSeal,
    sisGenerateProcessKey, hq])

lemma findFreeSlotFast_quiet : (findFreeSlotFast s).Returns (Quiet s ·.2) := by
  unfold findFreeSlotFast
  dsimp only
  split
  · exact .none
  · split
    · exact .none
    · exact .some (Change.of_processes lax_quiet rfl)

lemma createSecureProcess_quiet :
    (createSecureProcess s entry priv caps stack).Returns (Quiet s ·.2) := by
  unfold createSecureProcess
  split
  · exact .error
  · split
    · exact .error
    · split
      · exact .error
      case h_2 t hs =>
        split
        · exact .error
        case h_2 n _ =>
          split
          · exact .error
          · have ht : Quiet s (t.takePid n) :=
              Change.trans lax_quiet (findFreeSlotFast_quiet.of_eq hs) (.of_processes lax_quiet rfl)
            refine lockRunqueue_evolves.bind fun _ h1 => (enqueueTask_evolves _).bind fun _ h2 => .ok ?_
            have hrest := Change.of_evolves lax_quiet (h1.trans h2)
            exact Change.trans lax_quiet ht <| .trans lax_quiet (.trans lax_quiet installProcess_quiet hrest) <|
              .of_processes lax_quiet rfl

-- The actions that do not use the messages.
def Action.Silent : Action → Prop
  | send .. => False
  | receive => False
  | _ => True

lemma exec_quiet (ha : a.Silent) : (exec s a).Returns (Quiet s) := by
  cases a
  case create =>
    intro t ht
    have ⟨_, hr, ht⟩ := Except.of_map ht
    exact ht ▸ createSecureProcess_quiet.of_eq hr
  case schedule =>
    intro t ht
    have ⟨_, hr, ht⟩ := Except.of_map ht
    exact ht ▸ ((schedule_change lax_quiet).of_eq hr).1
  case kill => exact killProcess_evolves.mono fun _ => Change.of_evolves lax_quiet
  case killCurrent => exact asTerminate_evolves.mono fun _ => Change.of_evolves lax_quiet
  case killAll => exact killAllProcesses_evolves.mono fun _ => Change.of_evolves lax_quiet
  case wakeup => exact wakeupTask_quiet _
  case cleanup => exact .ok (Change.of_evolves lax_quiet cleanupLoop_evolves)
  case send => exact ha.elim
  case receive => exact ha.elim
  case clock => exact .ok (Change.of_processes lax_quiet rfl)

end EEVDF

namespace Ipc

open EEVDF (State Slot Fault Quiet)
open Function (update)

variable {s t : State} {p q : Slot} {pid : UInt32} {msg : Message}

-- What processes and the kernel do.
inductive Action
  | send (targetPid : UInt32) (userMsg : Option Message)
  | request (targetPid : UInt32) (data : Option (Nat → UInt8)) (size : UInt64) (idPtr : Bool)
  | response (targetPid requestId : UInt32) (data : Option (Nat → UInt8)) (size : UInt64) (status : UInt32)
  | receive (writable : Bool)
  | kernel (a : { a : EEVDF.Action // a.Silent })

def exec (s : State) : Action → Except Fault State
  | .send targetPid userMsg => return (syscallSend s targetPid userMsg).2
  | .request targetPid data size idPtr => return (sendRequest s targetPid data size idPtr).2
  | .response targetPid requestId data size status =>
    return (sendResponse s targetPid requestId data size status).2
  | .receive writable => return (syscallReceive s writable).2
  | .kernel a => EEVDF.exec s a

def caller (s : State) : UInt32 :=
  (s.processes s.currentProcess).pid

-- The call of `IpcSendMessage` that an action makes: the state, the target and the message.
def Action.call (s : State) : Action → Option (State × UInt32 × Message)
  | send targetPid (some msg) => some (s, targetPid, msg)
  | request targetPid (some data) size idPtr =>
    if UInt64.ofNat (maxPayload - 8) < size ∨ !idPtr then none
    else some (s.countMessage, targetPid, requestMessage s.countMessage s.nextSequenceId data size)
  | response targetPid requestId data size status =>
    if UInt64.ofNat (maxPayload - 8) < size then none
    else some (s, targetPid, responseMessage s requestId data size status)
  | _ => none

-- The kernel, with what an observer notes down for each process: the history of its messages, and the
-- processes whose calls have put them in the queue.
structure World where
  kernel : State
  history : Slot → History := fun _ => {}
  authors : Slot → List UInt32 := fun _ => []

namespace World

-- `IpcSendMessage` is called in the state `s`, and returns in `t`.
def put (w : World) (s t : State) (targetPid : UInt32) (msg : Message) : World :=
  match s.getCurrentProcessByPID targetPid with
  | none => { w with kernel := t }
  | some p => {
      kernel := t
      history := update w.history p ((w.history p).step (.send msg s.systemTicks s.nextSequenceId))
      authors := if (EEVDF.sendMessage s targetPid (some msg)).1 = .success
        then update w.authors p (w.authors p ++ [caller s]) else w.authors
    }

def take (w : World) (t : State) : World where
  kernel := t
  history := update w.history w.kernel.currentProcess ((w.history w.kernel.currentProcess).step .receive)
  authors := w.authors

open Classical in
-- A new process has an empty history.
noncomputable def renew (w : World) (t : State) : World where
  kernel := t
  history p := if (t.processes p).ipcQueue = (w.kernel.processes p).ipcQueue then w.history p else {}
  authors p := if (t.processes p).ipcQueue = (w.kernel.processes p).ipcQueue then w.authors p else []

-- What is noted down when an action leads to the state `t`.
noncomputable def step (w : World) (t : State) : Action → World
  | .receive _ => w.take t
  | .kernel _ => w.renew t
  | a => match a.call w.kernel with
    | some (s, targetPid, msg) => w.put s t targetPid msg
    | none => { w with kernel := t }

-- The runs in which processes make calls and the kernel does its work, by actions that `ok` admits.
inductive Run (ok : State → Action → Prop) : World → Prop
  | init (apicTicks apicHz : UInt32) : Run ok { kernel := EEVDF.schedInit apicTicks apicHz }
  | step {w : World} {a : Action} {t : State} :
    Run ok w → ok w.kernel a → exec w.kernel a = .ok t → Run ok (w.step t a)

end World

-- A message that a process hands over and that is accepted has the process as its sender.
def Honest (s : State) : Action → Prop
  | .send targetPid (some msg) => ∀ p ∈ s.getCurrentProcessByPID targetPid,
    ((s.processes p).ipcQueue.reserve msg.priority).isSome → msg.senderPid = caller s
  | _ => True

section

-- A history is that of a queue, and the senders of the messages in it are the authors.
structure Traced (queue : MessageQueue) (h : History) (authors : List UInt32) : Prop where
  queue : queue = h.queue
  conserved : h.Conserved
  authors : authors = h.accepted.map (·.senderPid)

-- The histories are those of the queues of all processes.
def Authentic (w : World) : Prop :=
  ∀ p, Traced (w.kernel.processes p).ipcQueue (w.history p) (w.authors p)

variable {w : World}

lemma Traced.init : Traced {} {} [] :=
  ⟨rfl, .init, rfl⟩

lemma exec_call (h : a.call s = some r) :
    exec s a = .ok (EEVDF.sendMessage r.1 r.2.1 (some r.2.2)).2 := by
  cases a
  case send userMsg =>
    cases userMsg
    case none => cases h
    case some msg => cases h; rfl
  case request data size idPtr =>
    rcases data with _ | data
    · cases h
    obtain ⟨hc, hr⟩ := Option.ite_none_left_eq_some.mp h
    cases hr
    exact congrArg (fun r : Result × State => Except.ok r.2) (if_neg hc)
  case response =>
    obtain ⟨hc, hr⟩ := Option.ite_none_left_eq_some.mp h
    cases hr
    exact congrArg (fun r : Result × State => Except.ok r.2) (if_neg hc)
  case receive => cases h
  case kernel => cases h

lemma sendMessage_of_ne (hp : s.getCurrentProcessByPID pid ≠ some p) :
    ((EEVDF.sendMessage s pid (some msg)).2.processes p).ipcQueue = (s.processes p).ipcQueue := by
  unfold EEVDF.sendMessage
  rcases ht : s.getCurrentProcessByPID pid with _ | target
  · rfl
  have hne : p ≠ target := by
    rintro rfl
    exact hp ht
  dsimp only
  split
  · rfl
  · dsimp only
    split <;> simp [EEVDF.State.countMessage, hne]

lemma sendMessage_success (ht : s.getCurrentProcessByPID pid = some p) :
    (EEVDF.sendMessage s pid (some msg)).1 = .success ↔
      ((s.processes p).ipcQueue.reserve msg.priority).isSome := by
  unfold EEVDF.sendMessage
  simp only [ht, MessageQueue.push]
  cases (s.processes p).ipcQueue.reserve msg.priority
  case none => simp
  case some r => simp

lemma step_send_accepted {h : History} {ticks : UInt64} {n : UInt32} :
    (h.step (.send msg ticks n)).accepted = if (h.queue.reserve msg.priority).isSome then
      h.accepted ++ [{ msg with timestamp := ticks, sequenceId := n }] else h.accepted := by
  unfold History.step
  simp only [MessageQueue.push]
  rcases h.queue.reserve msg.priority with _ | r
  · simp
  simp only [bind, Option.bind, pure, Option.elim_some, Option.isSome_some, if_true]
  unfold History.send
  dsimp only
  split <;> rfl

lemma Traced.send {queue : MessageQueue} {h : History} {authors : List UInt32} (ht : Traced queue h authors)
    (ticks : UInt64) (n author : UInt32)
    (hm : (queue.reserve msg.priority).isSome → msg.senderPid = author) :
    Traced (h.step (.send msg ticks n)).queue (h.step (.send msg ticks n))
      (if (queue.reserve msg.priority).isSome then authors ++ [author] else authors) := by
  refine ⟨rfl, ht.conserved.step (History.step_cases ht.conserved.valid _), ?_⟩
  rw [step_send_accepted, ← ht.queue]
  split
  case isTrue hr => simp [ht.authors, hm hr]
  case isFalse => exact ht.authors

lemma Traced.receive {queue : MessageQueue} {h : History} {authors : List UInt32}
    (ht : Traced queue h authors) : Traced (h.step .receive).queue (h.step .receive) authors := by
  refine ⟨rfl, ht.conserved.step (History.step_cases ht.conserved.valid _), ?_⟩
  rw [ht.authors, History.step]
  split <;> rfl

lemma Authentic.put (h : Authentic w) (hp : s.processes = w.kernel.processes)
    (hm : ∀ p ∈ s.getCurrentProcessByPID pid,
      ((s.processes p).ipcQueue.reserve msg.priority).isSome → msg.senderPid = caller s) :
    Authentic (w.put s (EEVDF.sendMessage s pid (some msg)).2 pid msg) := by
  intro p
  have h : Traced (s.processes p).ipcQueue (w.history p) (w.authors p) := hp ▸ h p
  unfold World.put
  rcases ht : s.getCurrentProcessByPID pid with _ | target
  · dsimp only
    rw [sendMessage_of_ne (by simp [ht])]
    exact h
  dsimp only
  by_cases he : p = target
  · subst he
    have hs := h.send s.systemTicks s.nextSequenceId (caller s) (hm p ht)
    rw [← History.sendMessage_step ht h.queue] at hs
    simp only [sendMessage_success ht, Function.update_self]
    split
    case isTrue hr => simpa [hr] using hs
    case isFalse hr => simpa [hr] using hs
  · have ha : (if (EEVDF.sendMessage s pid (some msg)).1 = .success then
        update w.authors target (w.authors target ++ [caller s]) else w.authors) p = w.authors p := by
      split
      · rw [Function.update_of_ne he]
      · rfl
    rw [sendMessage_of_ne (by simpa [ht] using Ne.symm he), Function.update_of_ne he, ha]
    exact h

lemma Authentic.take (h : Authentic w) : Authentic (w.take (EEVDF.receiveMessage w.kernel).2) := by
  intro p
  unfold World.take
  dsimp only
  by_cases he : p = w.kernel.currentProcess
  case pos =>
    subst he
    rw [Function.update_self, History.receiveMessage_step (h _).queue]
    exact (h _).receive
  have hr : ((EEVDF.receiveMessage w.kernel).2.processes p).ipcQueue =
      (w.kernel.processes p).ipcQueue := by
    unfold EEVDF.receiveMessage
    dsimp only
    split <;> simp [he]
  rw [hr, Function.update_of_ne he]
  exact h p

lemma Authentic.renew (h : Authentic w) (ht : Quiet w.kernel t) : Authentic (w.renew t) := by
  intro p
  unfold World.renew
  dsimp only
  by_cases he : (t.processes p).ipcQueue = (w.kernel.processes p).ipcQueue
  case pos =>
    rw [if_pos he, if_pos he, he]
    exact h p
  rw [if_neg he, if_neg he, (ht p).resolve_left he]
  exact .init

-- The calls other than `SYS_IPC_SEND_MESSAGE` write the sender themselves.
lemma Honest.call (h : Honest s a) (hc : a.call s = some r) : r.1.processes = s.processes ∧
    ∀ p ∈ r.1.getCurrentProcessByPID r.2.1,
      ((r.1.processes p).ipcQueue.reserve r.2.2.priority).isSome → r.2.2.senderPid = caller r.1 := by
  cases a
  case send userMsg =>
    rcases userMsg with _ | msg
    · cases hc
    cases hc
    exact ⟨rfl, h⟩
  case request data size idPtr =>
    rcases data with _ | data
    · cases hc
    obtain ⟨_, hr⟩ := Option.ite_none_left_eq_some.mp hc
    cases hr
    exact ⟨rfl, fun _ _ _ => rfl⟩
  case response =>
    obtain ⟨_, hr⟩ := Option.ite_none_left_eq_some.mp hc
    cases hr
    exact ⟨rfl, fun _ _ _ => rfl⟩
  case receive => cases hc
  case kernel => cases hc

lemma exec_of_call_none (h : a.call s = none) (he : exec s a = .ok t)
    (hr : ∀ writable, a ≠ .receive writable) (hk : ∀ b, a ≠ .kernel b) : t = s := by
  cases a
  case send userMsg =>
    cases userMsg
    case none => cases he; rfl
    case some msg => cases h
  case request data size idPtr =>
    rcases data with _ | data
    · cases he; rfl
    have hc : UInt64.ofNat (maxPayload - 8) < size ∨ !idPtr := by
      by_contra hc
      simp only [Action.call, if_neg hc] at h
      cases h
    cases he
    exact congrArg Prod.snd (if_pos hc)
  case response data size status =>
    have hc : UInt64.ofNat (maxPayload - 8) < size := by
      by_contra hc
      simp only [Action.call, if_neg hc] at h
      cases h
    cases he
    exact congrArg Prod.snd (if_pos hc)
  case receive writable => exact absurd rfl (hr writable)
  case kernel a => exact absurd rfl (hk a)

lemma Authentic.step (h : Authentic w) (ha : Honest w.kernel a)
    (he : exec w.kernel a = .ok t) : Authentic (w.step t a) := by
  have hcall (hr : ∀ writable, a ≠ .receive writable) (hk : ∀ b, a ≠ .kernel b) :
      Authentic (match a.call w.kernel with
        | some (s, targetPid, msg) => w.put s t targetPid msg
        | none => { w with kernel := t }) := by
    rcases hc : a.call w.kernel with _ | r
    · cases exec_of_call_none hc he hr hk
      exact h
    have ⟨hp, hm⟩ := ha.call hc
    cases he.symm.trans (exec_call hc)
    exact h.put hp hm
  cases a
  case send => exact hcall nofun nofun
  case request => exact hcall nofun nofun
  case response => exact hcall nofun nofun
  case receive writable =>
    cases he
    exact h.take
  case kernel a => exact h.renew ((EEVDF.exec_quiet a.2).of_eq he)

end

lemma schedInit_ipcQueue : ((EEVDF.schedInit ticks hz).processes p).ipcQueue = {} := by
  by_cases hp : p = 0 <;>
    simp [EEVDF.schedInit, hp, State.modifyProcess, State.setProcess, EEVDF.sisUpdateSeal,
      EEVDF.sisGenerateProcessKey, EEVDF.setTaskNice]

lemma World.Run.authentic (h : Run Honest w) : Authentic w := by
  induction h
  case init => exact fun p => schedInit_ipcQueue ▸ .init
  case step ha he ih => exact ih.step ha he

lemma Authentic.received (h : Authentic w)
    (hr : (syscallReceive w.kernel writable).1 = some (code, some msg)) :
    ∃ n, (n, msg) ∈ ((w.take (syscallReceive w.kernel writable).2).history
      w.kernel.currentProcess).received := by
  have hq := (h w.kernel.currentProcess).queue
  have hm : (EEVDF.receiveMessage w.kernel).1 = some msg := by
    obtain ⟨m, hm, he⟩ := Option.map_eq_some_iff.mp hr
    split at he <;> cases he
    exact hm
  unfold EEVDF.receiveMessage at hm
  dsimp only at hm
  unfold World.take
  dsimp only
  rw [Function.update_self]
  rw [hq] at hm
  split at hm
  case isFalse => cases hm
  case isTrue hc =>
    cases hm
    rw [History.step, if_pos hc]
    exact ⟨_, List.mem_append_right _ (.head _)⟩

-- Every message that a process has received names the process whose call has put it in the queue.
theorem World.Run.senders_authentic {w : World} (h : Run Honest w) :
    (∀ p, ∀ e ∈ (w.history p).received, (w.authors p)[e.1]? = some e.2.senderPid) ∧
    ∀ writable code msg, (syscallReceive w.kernel writable).1 = some (code, some msg) →
      ∃ n, (n, msg) ∈ ((w.step (syscallReceive w.kernel writable).2 (.receive writable)).history
        w.kernel.currentProcess).received ∧
        (w.authors w.kernel.currentProcess)[n]? = some msg.senderPid := by
  have hreceived {w : World} (h : Authentic w) (p : Slot) (e) (he : e ∈ (w.history p).received) :
      (w.authors p)[e.1]? = some e.2.senderPid := by
    rw [(h p).authors, List.getElem?_map, (h p).conserved.received e he]
    rfl
  refine ⟨hreceived h.authentic, fun writable code msg hr => ?_⟩
  have ⟨n, hn⟩ := h.authentic.received hr
  exact ⟨n, hn, hreceived h.authentic.take _ _ hn⟩

instance : ∀ a : Action, Decidable (Honest s a)
  | .send _ (some _) => inferInstanceAs (Decidable (∀ _ ∈ _, _ → _))
  | .send _ none | .request .. | .response .. | .receive _ | .kernel _ => isTrue trivial

lemma World.step_kernel {w : World} (a : Action) : (w.step t a).kernel = t := by
  unfold World.step
  split
  · rfl
  · rfl
  · split
    · unfold World.put
      split <;> rfl
    · rfl

lemma World.Run.exists_of_all {w : World} {ok : State → Action → Prop} [∀ s a, Decidable (ok s a)]
    {l : List Action} {P : State → Prop} [DecidablePred P] (h : Run ok w)
    (hl : (l.foldlM (fun s a => if ok s a then (exec s a).toOption else none) w.kernel).any (P ·) = true) :
    ∃ w, Run ok w ∧ P w.kernel := by
  induction l generalizing w
  case nil => exact ⟨w, h, by simpa using hl⟩
  case cons a l ih =>
    rw [List.foldlM_cons] at hl
    split at hl
    case isFalse => simp at hl
    case isTrue ha =>
      rcases he : exec w.kernel a with e | t
      · simp [he, Except.toOption] at hl
      refine ih (.step h ha he) ?_
      simpa [World.step_kernel, he, Except.toOption] using hl

def created : List Action := [
  .kernel ⟨.create 0x1000 1 0 0x8000, trivial⟩,
  .kernel ⟨.create 0x2000 1 0 0x9000, trivial⟩,
  .kernel ⟨.schedule {}, trivial⟩
]

-- The first process sends a message to the second one, which receives it.
theorem World.Run.senders_authentic_sent : ∃ w code msg, Run Honest w ∧
    (syscallReceive w.kernel true).1 = some (code, some msg) ∧
    ∃ n : Nat, (w.authors w.kernel.currentProcess)[n]? = some msg.senderPid := by
  have ⟨w, hw, hr⟩ := (Run.init 0 250 : Run Honest _).exists_of_all
    (l := created ++ [.send 2 (some { (default : Message) with senderPid := 1 }),
      .kernel ⟨.schedule {}, trivial⟩])
    (P := fun s => ((syscallReceive s true).1.any (·.2.isSome)) = true) (by decide +kernel)
  obtain ⟨⟨code, msg⟩, he, hm⟩ := (Option.any_eq_true _ _).mp hr
  obtain ⟨msg, rfl⟩ := Option.isSome_iff_exists.mp hm
  have ⟨n, _, hn⟩ := hw.senders_authentic.2 true code msg he
  exact ⟨w, code, msg, hw, he, n, hn⟩

-- A process sends a message in the name of another one.
theorem sender_forged :
    ∃ s, created.foldlM exec (EEVDF.schedInit 0 250) = .ok s ∧ caller s = 1 ∧
      ∃ t, [.send 2 (some { (default : Message) with senderPid := 3 }),
        .kernel ⟨.schedule {}, trivial⟩].foldlM exec s = .ok t ∧ caller t = 2 ∧
        ∃ msg, (syscallReceive t true).1 = some (0, some msg) ∧ msg.senderPid = 3 := by
  let forged : List Action :=
    [.send 2 (some { (default : Message) with senderPid := 3 }), .kernel ⟨.schedule {}, trivial⟩]
  have h : ∃ s, created.foldlM exec (EEVDF.schedInit 0 250) = .ok s ∧ caller s = 1 ∧
      ((forged.foldlM exec s).toOption.any fun t => caller t = 2 ∧
        ((syscallReceive t true).1.any fun r => r.1 = 0 ∧ (r.2.map (·.senderPid)) = some 3)) = true :=
    Machine.exists_exec (P := fun s => caller s = 1 ∧
      ((forged.foldlM exec s).toOption.any fun t => caller t = 2 ∧
        ((syscallReceive t true).1.any fun r => r.1 = 0 ∧ (r.2.map (·.senderPid)) = some 3)) = true)
      (by decide +kernel)
  obtain ⟨s, hs, hc, hf⟩ := h
  obtain ⟨t, ht, hct, hr⟩ := Machine.exists_exec hf
  obtain ⟨⟨_, m⟩, he, hm⟩ := (Option.any_eq_true _ _).mp hr
  simp only [Bool.decide_and, Bool.and_eq_true, decide_eq_true_eq] at hm
  obtain ⟨rfl, hm⟩ := hm
  obtain ⟨msg, rfl, hp⟩ := Option.map_eq_some_iff.mp hm
  exact ⟨s, hs, hc, t, ht, hct, msg, he, hp⟩

end Ipc
