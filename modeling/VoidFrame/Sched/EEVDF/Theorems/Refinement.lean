import VoidFrame.Sched.EEVDF.Theorems.RunQueue
import VoidFrame.Sched.EEVDF.Theorems.Table

-- The kernel refines its abstract view.

open RB Heap

namespace EEVDF

variable {s s' : State} {p q : Slot} {f : ProcessControlBlock → ProcessControlBlock}

def HasQueue (s : State) : Prop :=
  ∃ stamp now t, Queue s stamp now t

lemma HasQueue.congr (h : HasQueue s) (hs : SameQueue s s') : HasQueue s' :=
  have ⟨stamp, now, t, hq⟩ := h
  ⟨stamp, now, t, hq.congr hs⟩

lemma hasQueue_congr (hp : s'.processes = s.processes) (hr : s'.rq = s.rq)
    (hn : s'.nodeBitmap = s.nodeBitmap) : HasQueue s' ↔ HasQueue s where
  mp := (·.congr (.of_eq hp.symm hr.symm hn.symm))
  mpr := (·.congr (.of_eq hp hr hn))

@[simp]
lemma hasQueue_markReady : HasQueue (s.markReady p) ↔ HasQueue s := hasQueue_congr rfl rfl rfl

@[simp]
lemma hasQueue_clearReady : HasQueue (s.clearReady p) ↔ HasQueue s := hasQueue_congr rfl rfl rfl

@[simp]
lemma hasQueue_requestSchedule : HasQueue (s.requestSchedule p) ↔ HasQueue s := hasQueue_congr rfl rfl rfl

@[simp]
lemma hasQueue_takeSlot : HasQueue (s.takeSlot p) ↔ HasQueue s := hasQueue_congr rfl rfl rfl

@[simp]
lemma hasQueue_takePid : HasQueue (s.takePid pid) ↔ HasQueue s :=
  hasQueue_congr rfl rfl rfl

@[simp]
lemma hasQueue_freePid : HasQueue (s.freePid pid) ↔ HasQueue s :=
  hasQueue_congr rfl rfl rfl

@[simp]
lemma hasQueue_countCreated : HasQueue s.countCreated ↔ HasQueue s := hasQueue_congr rfl rfl rfl

@[simp]
lemma hasQueue_countTerminated : HasQueue s.countTerminated ↔ HasQueue s := hasQueue_congr rfl rfl rfl

@[simp]
lemma hasQueue_countCleaned : HasQueue s.countCleaned ↔ HasQueue s := hasQueue_congr rfl rfl rfl

@[simp]
lemma hasQueue_countCall : HasQueue s.countCall ↔ HasQueue s := hasQueue_congr rfl rfl rfl

@[simp]
lemma hasQueue_countMessage : HasQueue s.countMessage ↔ HasQueue s := hasQueue_congr rfl rfl rfl

@[simp]
lemma hasQueue_unlockRunqueue : HasQueue s.unlockRunqueue ↔ HasQueue s := hasQueue_congr rfl rfl rfl

-- `s'` differs from `s` at most in the run queue.
structure Frame (s s' : State) : Prop where
  identity : ∀ p, (s'.processes p).identity = (s.processes p).identity
  key : s'.processKeys = s.processKeys
  pids : s'.pidBitmap = s.pidBitmap
  active : s'.activeBitmap = s.activeBitmap
  current : s'.rq.currentSlot = s.rq.currentSlot
  ledger : s'.ledger = s.ledger
  control : s'.control = s.control

lemma Frame.rfl : Frame s s :=
  ⟨fun _ => .refl _, .refl _, .refl _, .refl _, .refl _, .refl _, .refl _⟩

lemma Frame.trans (h1 : Frame s1 s2) (h2 : Frame s2 s3) : Frame s1 s3 where
  identity p := (h2.identity p).trans (h1.identity p)
  key := h2.key.trans h1.key
  pids := h2.pids.trans h1.pids
  active := h2.active.trans h1.active
  current := h2.current.trans h1.current
  ledger := h2.ledger.trans h1.ledger
  control := h2.control.trans h1.control

lemma Frame.modifyProcess (hf : ∀ pcb, (f pcb).identity = pcb.identity) :
    Frame s (s.modifyProcess p f) :=
  ⟨fun _ => State.modifyProcess_field (·.identity) hf, .refl _, .refl _, .refl _, .refl _, .refl _,
    .refl _⟩

lemma Frame.setRq (hc : rq.currentSlot = s.rq.currentSlot) : Frame s (s.setRq rq) :=
  ⟨fun _ => .refl _, .refl _, .refl _, .refl _, hc, .refl _, .refl _⟩

lemma Frame.setNodeBitmap : Frame s (s.setNodeBitmap m) :=
  ⟨fun _ => .refl _, .refl _, .refl _, .refl _, .refl _, .refl _, .refl _⟩

lemma Frame.setRbNode : Frame s (s.setRbNode p n) :=
  .modifyProcess fun _ => .refl _

lemma Frame.table (h : Frame s s') (hq : s'.table.queued = queued) :
    s'.table = { s.table with queued } :=
  Table.ext (funext h.identity) hq h.key h.pids h.active h.current h.ledger

lemma allocRBNode_frame : (allocRBNode s p).Returns (Frame s ·.2) :=
  .skip fun _ => .some <| Frame.setNodeBitmap.trans (.setRq (by rfl))

lemma rbInsert_frame : (rbInsert s p).Returns (Frame s) := by
  unfold rbInsert
  split
  case isTrue => exact .error
  split
  case h_1 => exact .ok .rfl
  case h_2 i s1 ha =>
    have h1 : Frame s s1 := allocRBNode_frame.of_eq ha
    exact .skip fun _ => .ok <| h1.trans <| Frame.setRbNode.trans (.setRq (by rfl))

lemma rbDelete_frame : (rbDelete s p).Returns (Frame s) := by
  unfold rbDelete
  split
  case h_1 => exact .ok .rfl
  refine .skip fun _ => .skip fun _ => .ok ?_
  exact .trans (.setRq (by rfl)) <| Frame.setNodeBitmap.trans <| .trans (.setRq (by rfl)) .setRbNode

lemma raiseVruntime_frame : Frame s (raiseVruntime s p) := by
  unfold raiseVruntime
  split
  · exact .modifyProcess fun _ => rfl
  · exact .rfl

lemma enqueueTask_frame : (enqueueTask s (some p)).Returns (Frame s) := by
  unfold enqueueTask
  dsimp only
  split
  case isTrue => exact .ok .rfl
  refine .skip fun slice => rbInsert_frame.mono fun _ h => (raiseVruntime_frame (p := p)).trans ?_
  exact .trans (.modifyProcess (by exact fun _ => rfl)) <| .trans (.setRq (by rfl)) h

lemma dequeueTask_frame : (dequeueTask s (some p)).Returns (Frame s) := by
  unfold dequeueTask
  dsimp only
  split
  · exact .ok .rfl
  · exact rbDelete_frame.mono fun _ h => .trans (.setRq (by rfl)) h

lemma Queue.queued_eq {stamp now t} (hq : Queue s stamp now t) (p : Slot) :
    s.table.queued p = (stamp p).isSome :=
  Bool.eq_iff_iff.mpr (hq.stamped p).symm

lemma raiseVruntime_rbNode : ((raiseVruntime s p).processes q).rbNode = (s.processes q).rbNode := by
  unfold raiseVruntime
  split
  · exact State.modifyProcess_field (·.rbNode) fun _ => rfl
  · rfl

-- A process is not enqueued twice.
lemma rbNode_of_enqueueTask (hr : s.table.state p = .ready) (he : enqueueTask s (some p) = .ok s') :
    (s.processes p).rbNode = none := by
  have hr : (s.processes p).state = .ready := hr
  simp only [enqueueTask, hr, ne_eq, not_true_eq_false, ↓reduceIte] at he
  obtain ⟨_, _, he⟩ := Except.of_bind he
  unfold rbInsert at he
  split at he
  case isTrue => cases he
  case isFalse hn => simpa [raiseVruntime_rbNode] using hn

lemma enqueueTask_refines (hq : HasQueue s) (hr : s.table.state p = .ready)
    (he : enqueueTask s (some p) = .ok s') :
    s.table.queued p = false ∧ HasQueue s' ∧ s'.table = s.table.enqueue p ∧ s'.control = s.control := by
  have ⟨stamp, now, t, hq⟩ := hq
  have hp := rbNode_of_enqueueTask hr he
  have hf := enqueueTask_frame.of_eq he
  obtain ⟨_, t', he', hq'⟩ := hq.enqueueTask_ok hp hr (weight_of_enqueueTask hr he)
  cases he.symm.trans he'
  refine ⟨by simp [State.table, hp], ⟨_, _, t', hq'⟩, hf.table ?_, hf.control⟩
  funext q
  rw [hq'.queued_eq]
  by_cases hqp : q = p <;> simp [hqp, hq.queued_eq]

lemma dequeueTask_refines (hq : HasQueue s) (he : dequeueTask s (some p) = .ok s') :
    HasQueue s' ∧ s'.table = s.table.dequeue p ∧ s'.control = s.control := by
  have ⟨stamp, now, t, hq⟩ := hq
  have hf := dequeueTask_frame.of_eq he
  obtain ⟨_, t', he', hq'⟩ := hq.dequeueTask_ok (p := p)
  cases he.symm.trans he'
  refine ⟨⟨_, _, t', hq'⟩, hf.table ?_, hf.control⟩
  funext q
  rw [hq'.queued_eq]
  by_cases hqp : q = p <;> simp [hqp, hq.queued_eq]

lemma HasQueue.pickNext_some (hq : HasQueue s) (h : pickNext s = some p) :
    s.table.queued p = true := by
  have ⟨_, _, _, hq⟩ := hq
  exact (hq.queued_eq p).trans (hq.pickNext_earlier h).1

lemma HasQueue.pickNext_none (hq : HasQueue s) (h : pickNext s = none) (p : Slot) :
    s.table.queued p = false := by
  have ⟨_, _, _, hq⟩ := hq
  have hn := hq.leftmost_eq_none_iff.mp (Option.map_eq_none_iff.mp h) p
  simp [hq.queued_eq, hn]

lemma table_modifyProcess (hn : (f (s.processes p)).rbNode = (s.processes p).rbNode) :
    (s.modifyProcess p f).table = s.table.setProcess p (f (s.processes p)).identity := by
  refine Table.ext (funext fun q => ?_) (funext fun q => ?_) rfl rfl rfl rfl rfl
  · by_cases hq : q = p <;> simp [State.table, Table.setProcess, hq]
  · by_cases hq : q = p <;> simp [State.table, Table.setProcess, hq, hn]

lemma table_modifyProcess_self (hi : ∀ pcb, (f pcb).identity = pcb.identity)
    (hn : ∀ pcb, (f pcb).rbNode = pcb.rbNode) : (s.modifyProcess p f).table = s.table := by
  rw [table_modifyProcess (hn _), hi]
  exact Table.ext (Function.update_eq_self p _) rfl rfl rfl rfl rfl rfl

lemma sisUpdateSeal_table : (sisUpdateSeal s p).table = s.table.reseal p :=
  table_modifyProcess rfl

lemma HasQueue.modifyProcess (hq : HasQueue s) (hf : ∀ pcb, (f pcb).rbNode = pcb.rbNode)
    (hv : ∀ pcb, (f pcb).vruntime = pcb.vruntime) : HasQueue (s.modifyProcess p f) :=
  hq.congr (.modifyProcess_of_vruntime hf hv)

lemma HasQueue.sisUpdateSeal (hq : HasQueue s) : HasQueue (sisUpdateSeal s p) :=
  hq.modifyProcess (by intro; rfl) (by intro; rfl)

lemma enter_table :
    (sisUpdateSeal (s.modifyProcess p fun pcb => { pcb with state := st }) p).table =
      s.table.enter p st := by
  rw [sisUpdateSeal_table, table_modifyProcess rfl]
  rfl

lemma enter_control :
    (sisUpdateSeal (s.modifyProcess p fun pcb => { pcb with state := st }) p).control = s.control :=
  rfl

lemma HasQueue.enter (hq : HasQueue s) :
    HasQueue (EEVDF.sisUpdateSeal (s.modifyProcess p fun pcb => { pcb with state := st }) p) :=
  (hq.modifyProcess (by intro; rfl) (by intro; rfl)).sisUpdateSeal

lemma zombify_table {reason code} : (zombify s p reason code).table = s.table.enter p .zombie := by
  simp only [zombify, sisUpdateSeal_table, State.requestSchedule_table, State.clearReady_table]
  rw [table_modifyProcess rfl]
  rfl

lemma HasQueue.zombify {reason code} (hq : HasQueue s) : HasQueue (zombify s p reason code) := by
  refine HasQueue.sisUpdateSeal ?_
  rw [hasQueue_requestSchedule, hasQueue_clearReady]
  exact hq.modifyProcess (by intro; rfl) (by intro; rfl)

-- The run queue is locked only if it is free, or else the kernel waits forever.
lemma lockRunqueue_refines (h : s.lockRunqueue = .ok s') :
    s.control.locked = false ∧ (HasQueue s' ↔ HasQueue s) ∧ s'.table = s.table ∧
      s'.control = { s.control with locked := true } := by
  unfold State.lockRunqueue at h
  split at h <;> cases h
  case isFalse hl => exact ⟨by simpa [State.control] using hl, hasQueue_congr rfl rfl rfl, rfl, rfl⟩

lemma addToTerminationQueue_refines (h : addToTerminationQueue s p = .ok s') :
    (HasQueue s' ↔ HasQueue s) ∧ s'.table = s.table.push p ∧ s'.control = s.control := by
  unfold addToTerminationQueue at h
  split at h <;> cases h
  exact ⟨hasQueue_congr rfl rfl rfl, rfl, rfl⟩

lemma retire_refines {reason code} (hq : HasQueue s) (he : retire s p reason code = .ok s') :
    s.control.locked = false ∧ HasQueue s' ∧ s'.countTerminated.table = s.table.retire p ∧
      s'.control = s.control := by
  have ⟨s1, he1, he⟩ := Except.of_bind he
  have ⟨s2, he2, he3⟩ := Except.of_bind he
  have ⟨hl, hq1, ht1, hc1⟩ := lockRunqueue_refines he1
  have ⟨hq2, ht2, hc2⟩ := dequeueTask_refines (hq1.mpr hq.zombify) he2
  have ⟨hq3, ht3, hc3⟩ := addToTerminationQueue_refines he3
  have hl : s.control.locked = false := hl
  refine ⟨hl, hq3.mpr (hasQueue_unlockRunqueue.mpr hq2), ?_, ?_⟩
  · rw [State.unlockRunqueue_table, ht2, ht1, zombify_table] at ht3
    exact congrArg Table.countTerminated ht3
  · rw [hc3, State.unlockRunqueue_control, hc2, hc1]
    exact congrArg (Control.mk · _ _) hl.symm

lemma getCurrentProcessByPID_eq : s.getCurrentProcessByPID pid = s.table.find pid :=
  rfl

lemma asTerminate_refines (hq : HasQueue s) (he : asTerminate s pid = .ok s') :
    HasQueue s' ∧ s'.table = s.table.asTerminate pid ∧ s'.control = s.control ∧
      (∀ p, s.table.find pid = some p → s.control.locked = false) := by
  rw [asTerminate, getCurrentProcessByPID_eq] at he
  rw [Table.asTerminate]
  rcases hf : s.table.find pid with _ | p
  · rw [hf] at he
    cases he
    exact ⟨hq, rfl, rfl, nofun⟩
  rw [hf] at he
  dsimp only at he
  split at he
  case isTrue ht => exact absurd ht (Table.find_eq_some hf).2
  have ⟨s1, he1, he⟩ := Except.of_bind he
  have ⟨hl, hq1, ht1, hc1⟩ := retire_refines hq he1
  cases he
  exact ⟨hasQueue_countTerminated.mpr hq1, ht1, hc1, fun _ _ => hl⟩

-- The kernel keeps its abstract view, apart from the lock that no call leaves behind.
structure Coherent (s : State) : Prop where
  queue : HasQueue s
  current : s.currentProcess = s.rq.currentSlot
  unlocked : s.runqueueLock = false

lemma Coherent.of_control (hs : Coherent s) (hq : HasQueue s') (ht : s'.table.current = s.table.current)
    (hc : s'.control = s.control) : Coherent s' where
  queue := hq
  current := (congrArg Control.currentProcess hc).trans (hs.current.trans ht.symm)
  unlocked := (congrArg Control.locked hc).trans hs.unlocked

lemma sisVerifyPCB_iff : sisVerifyPCB s p = true ↔ s.table.Sealed p :=
  decide_eq_true_iff

lemma terminationAllowed_iff (hs : Coherent s) :
    terminationAllowed s s.currentProcess p = true ↔ s.table.Allows p := by
  rw [hs.current]
  simp only [terminationAllowed, sisValidateProcess, Bool.and_eq_true, Bool.or_eq_true,
    Bool.not_eq_true', Bool.and_eq_false_iff, decide_eq_true_eq, decide_eq_false_iff_not,
    sisVerifyPCB_iff]
  change _ ↔ (_ ∨ ¬(_ ∧ _) ∧ _ ∧ _) ∧ _ ∧ _
  rw [not_and_or, and_assoc]
  rfl

lemma killProcess_refines (hs : Coherent s) (he : killProcess s pid = .ok s') :
    HasQueue s' ∧ s'.table = s.table.kill pid ∧ s'.control = s.control := by
  rw [killProcess, terminateProcess, getCurrentProcessByPID_eq] at he
  rw [Table.kill]
  rcases hf : s.table.find pid with _ | p
  · rw [hf] at he
    cases he
    exact ⟨hs.queue, rfl, rfl⟩
  rw [hf] at he
  dsimp only at he ⊢
  rw [← State.table_state] at he
  by_cases hd : (s.table.state p).Dead
  case pos =>
    rw [if_pos hd] at he ⊢
    cases he
    exact ⟨hs.queue, rfl, rfl⟩
  rw [if_neg hd] at he ⊢
  by_cases ha : s.table.Allows p
  case neg =>
    have hc : ¬terminationAllowed s s.currentProcess p = true := mt (terminationAllowed_iff hs).mp ha
    rw [if_pos (by simpa using hc), hs.current] at he
    rw [if_pos ha]
    have ⟨hq', ht', hc', _⟩ := asTerminate_refines hs.queue he
    exact ⟨hq', ht', hc'⟩
  case pos =>
    have hc := (terminationAllowed_iff hs).mpr ha
    rw [if_neg (by simp [hc])] at he
    rw [if_neg (not_not.mpr ha)]
    have ⟨s1, he1, he⟩ := Except.of_bind he
    have ⟨_, hq1, ht1, hc1⟩ := retire_refines hs.queue he1
    cases he
    have hp : (s1.processes p).pid = (s.table.process p).pid := by
      rw [← Table.retire_pid, ← ht1]
      rfl
    refine ⟨by simpa using hq1, ?_, hc1⟩
    rw [hp]
    exact congrArg (Table.freePid · _) ht1

lemma wakeupTask_refines (hq : HasQueue s) (he : wakeupTask s (some p) = .ok s') :
    (s.table.state p = .blocked → s.table.queued p = false) ∧ HasQueue s' ∧
      (s'.table = if s.table.state p = .blocked then (s.table.setState p .ready).enqueue p
        else s.table) ∧
      s'.control = s.control := by
  unfold wakeupTask at he
  dsimp only at he
  rw [← State.table_state] at he
  by_cases hb : s.table.state p = .blocked
  case neg =>
    rw [if_pos hb] at he
    rw [if_neg hb]
    cases he
    exact ⟨fun h => absurd h hb, hq, rfl, rfl⟩
  case pos =>
    rw [if_neg (not_not.mpr hb)] at he
    rw [if_pos hb]
    let s1 := s.modifyProcess p fun pcb => { pcb with state := .ready, lastWakeup := s.getNS }
    have hq1 : HasQueue s1 := hq.modifyProcess (by intro; rfl) (by intro; rfl)
    have ht1 : s1.table = s.table.setState p .ready := table_modifyProcess rfl
    have hr1 : s1.table.state p = .ready := by simp [ht1, Table.setState, Table.setProcess, Table.state]
    obtain ⟨hn, hq', ht', hc'⟩ := enqueueTask_refines hq1 hr1 he
    rw [ht1] at hn ht'
    exact ⟨fun _ => hn, hq', ht', hc'⟩

lemma sendMessage_refines (hq : HasQueue s) (he : sendMessage s pid msg = (r, s')) :
    HasQueue s' ∧ s'.control = s.control ∧
      (s'.table = s.table ∧ (∀ p m, msg = some m → s.table.find pid = some p → s.table.state p = .blocked →
        s.choice.room p m.priority = false) ∨ ∃ p m, msg = some m ∧ s.table.find pid = some p ∧
        s.table.state p = .blocked ∧ s.choice.room p m.priority = true ∧
        s'.table = s.table.setState p .ready) := by
  unfold sendMessage at he
  split at he
  case h_1 =>
    cases he
    exact ⟨hq, rfl, .inl ⟨rfl, by simp⟩⟩
  case h_2 msg =>
    rw [getCurrentProcessByPID_eq] at he
    split at he
    case h_1 hf =>
      cases he
      exact ⟨hq, rfl, .inl ⟨rfl, by simp [hf]⟩⟩
    case h_2 p hf =>
      dsimp only at he
      split at he
      case h_1 hp =>
        cases he
        refine ⟨hq, rfl, .inl ⟨rfl, fun q m hm hq _ => ?_⟩⟩
        cases hm
        obtain rfl := Option.some.inj (hf.symm.trans hq)
        cases hr : (s.processes p).ipcQueue.reserve msg.priority
        case none => simp [State.choice, hr]
        case some => simp [Ipc.MessageQueue.push, hr] at hp
      case h_2 q hp =>
        obtain ⟨_, hm, _⟩ := Option.bind_eq_some_iff.mp hp
        generalize hs1 : (s.modifyProcess p fun pcb => { pcb with ipcQueue := q }).countMessage = s1
          at he
        have hq1 : HasQueue s1 := by
          rw [← hs1, hasQueue_countMessage]
          exact hq.modifyProcess (by intro; rfl) (by intro; rfl)
        have ht1 : s1.table = s.table := by
          rw [← hs1, State.countMessage_table]
          exact table_modifyProcess_self (by intro; rfl) (by intro; rfl)
        have hc1 : s1.control = s.control := hs1 ▸ rfl
        rw [← State.table_state] at he
        split at he <;> cases he
        case isTrue hb =>
          refine ⟨hq1.modifyProcess (by intro; rfl) (by intro; rfl), hc1,
            .inr ⟨p, msg, rfl, hf, ht1 ▸ hb, Option.isSome_of_eq_some hm, ?_⟩⟩
          rw [table_modifyProcess rfl, ← ht1]
          rfl
        case isFalse hb =>
          refine ⟨hq1, hc1, .inl ⟨ht1, fun q m _ hq hb' => absurd ?_ hb⟩⟩
          rwa [ht1, Option.some.inj (hf.symm.trans hq)]

lemma receiveMessage_refines (hs : Coherent s) (he : receiveMessage s = (r, s')) :
    HasQueue s' ∧ s'.control = s.control ∧
      s'.table = if 0 < (s.processes s.currentProcess).ipcQueue.count then s.table
        else s.table.setState s.table.current .blocked := by
  unfold receiveMessage at he
  dsimp only at he
  rw [hs.current] at he ⊢
  split at he
  case isTrue hc =>
    cases he
    rw [if_pos hc]
    exact ⟨hs.queue.modifyProcess (by intro; rfl) (by intro; rfl), rfl,
      table_modifyProcess_self (by intro; rfl) (by intro; rfl)⟩
  case isFalse hc =>
    cases he
    rw [if_neg hc]
    exact ⟨hs.queue.modifyProcess (by intro; rfl) (by intro; rfl), rfl, table_modifyProcess rfl⟩

lemma removeFromTerminationQueue_refines (h : removeFromTerminationQueue s = some (p, s')) :
    (HasQueue s' ↔ HasQueue s) ∧ s'.control = s.control ∧ s'.table = s.table.pop ∧
      s.table.ledger.waiting ≠ 0 ∧ s.table.ledger.queue s.table.ledger.head = p := by
  unfold removeFromTerminationQueue at h
  split at h <;> cases h
  case isFalse hc => exact ⟨hasQueue_congr rfl rfl rfl, rfl, rfl, hc, rfl⟩

lemma removeFromTerminationQueue_none (h : removeFromTerminationQueue s = none) :
    s.table.ledger.waiting = 0 := by
  unfold removeFromTerminationQueue at h
  split at h
  case isTrue hc => exact hc
  case isFalse => cases h

lemma freeSlotFast_refines :
    (HasQueue (freeSlotFast s p) ↔ HasQueue s) ∧ (freeSlotFast s p).control = s.control ∧
      (freeSlotFast s p).table =
        { s.table with active := if 0 < p then s.table.active &&& ~~~slotMask p else s.table.active } := by
  unfold freeSlotFast
  split
  · exact ⟨hasQueue_congr rfl rfl rfl, rfl, rfl⟩
  · exact ⟨.rfl, rfl, rfl⟩

lemma setProcess_table : (s.setProcess p pcb).table = { s.table.setProcess p pcb.identity with
      queued := Function.update s.table.queued p pcb.rbNode.isSome } := by
  refine Table.ext (funext fun q => ?_) (funext fun q => ?_) rfl rfl rfl rfl rfl
  · by_cases hq : q = p <;> simp [State.table, Table.setProcess, hq]
  · by_cases hq : q = p <;> simp [State.table, hq]

-- A process that is not queued may be replaced by another one that is not.
lemma HasQueue.setProcess (hq : HasQueue s)
    (hp : (s.processes p).rbNode = none) (hn : pcb.rbNode = none) : HasQueue (s.setProcess p pcb) := by
  refine hq.congr ⟨rfl, rfl, rfl, fun q => ?_, fun q hs => ?_⟩
  · by_cases hqp : q = p <;> simp [hqp, hp, hn]
  · have hqp : q ≠ p := fun h => by simp [h, hp] at hs
    rw [State.setProcess_processes_of_ne hqp]

lemma clear_refines (hq : HasQueue s) (hp : s.table.queued p = false) :
    HasQueue (freeSlotFast (s.setProcess p {}) p).countCleaned ∧
      (freeSlotFast (s.setProcess p {}) p).countCleaned.control = s.control ∧
      (freeSlotFast (s.setProcess p {}) p).countCleaned.table = s.table.clear p := by
  have hp : (s.processes p).rbNode = none := by simpa [State.table] using hp
  have ⟨hq1, hc1, ht1⟩ := freeSlotFast_refines (s := s.setProcess p {}) (p := p)
  refine ⟨hasQueue_countCleaned.mpr <| hq1.mpr <| hq.setProcess hp rfl, hc1, ?_⟩
  rw [State.countCleaned_table, ht1, setProcess_table]
  rfl

lemma pop_waiting_le (ht : s'.table = s.table.pop) (hf : s.table.ledger.waiting ≤ fuel + 1) :
    s'.table.ledger.waiting ≤ fuel := by
  rw [ht]
  exact Nat.sub_le_of_le_add hf

lemma cleanupLoop_refines (fuel n : Nat) (hf : s.table.ledger.waiting ≤ fuel) (hq : HasQueue s)
    (hz : ∀ p, s.table.queued p = true → s.table.state p ≠ .zombie) :
    HasQueue (cleanupLoop fuel n s) ∧ (cleanupLoop fuel n s).control = s.control ∧
      Table.Cleaned n s.table (cleanupLoop fuel n s).table := by
  fun_induction cleanupLoop fuel n s
  case case1 => exact ⟨hq, rfl, .refl (.inl (Nat.le_zero.mp hf))⟩
  case case2 h => exact ⟨hq, rfl, .refl (.inl (removeFromTerminationQueue_none h))⟩
  case case3 hn _ s1 h hs ih =>
    have ⟨hq1, hc1, ht1, hw, hp⟩ := removeFromTerminationQueue_refines h
    have hf1 := pop_waiting_le ht1 hf
    have ⟨hq', hc', ht'⟩ := ih hf1 (hq1.mpr hq) (ht1 ▸ hz)
    have hs : s1.table.state _ ≠ .zombie := hs
    rw [ht1, ← hp] at hs
    exact ⟨hq', hc'.trans hc1, .skip hn hw hs (ht1 ▸ ht')⟩
  case case4 hm p s1 h hs _ _ ih =>
    have ⟨hq1, hc1, ht1, hw, hp⟩ := removeFromTerminationQueue_refines h
    have hs : s1.table.state p = .zombie := not_not.mp hs
    rw [ht1] at hs
    have hn : s1.table.queued p = false := by
      rw [ht1]
      exact Bool.eq_false_iff.mpr fun hn => hz p hn hs
    have ⟨hq2, hc2, ht2⟩ := clear_refines (hq1.mpr hq) hn
    rw [ht1] at ht2
    have ⟨hq', hc', ht'⟩ := ih (by rw [ht2, ← ht1]; exact pop_waiting_le ht1 hf) hq2 fun q hq => by
      rw [ht2, Table.clear_queued] at hq
      rw [ht2, Table.clear_state]
      by_cases hqp : q = p
      · simp [hqp]
      · simpa [hqp] using hz q (by simpa [hqp] using hq)
    exact ⟨hq', (hc'.trans hc2).trans hc1, .step hm hw hp hs (ht2 ▸ ht')⟩
  case case5 hm => exact ⟨hq, rfl, .refl (.inr (Nat.not_lt.mp hm))⟩

lemma findFreeSlotFast_eq_some (h : findFreeSlotFast s = some (p, s')) :
    p ≠ 0 ∧ s.table.freeSlot = p ∧ s.activeBitmap.getLsbD p = false ∧ s' = s.takeSlot p := by
  unfold findFreeSlotFast at h
  dsimp only at h
  split at h
  case isTrue => cases h
  split at h <;> cases h
  case isFalse ha => exact ⟨(ofNat_ctz_free ha).1, rfl, (ofNat_ctz_free ha).2, rfl⟩

section

variable {pid : UInt32} {entry : UInt64} {priv : UInt8} {caps : BitVec 64} {stack : UInt64}

@[simp]
lemma sisGenerateProcessKey_processes :
    (sisGenerateProcessKey s p pid).processes = s.processes := rfl

lemma sisGenerateProcessKey_of_ne (hq : q ≠ p) :
    (sisGenerateProcessKey s p pid).processKeys q = s.processKeys q := by
  simp [sisGenerateProcessKey, hq]

@[simp]
lemma hasQueue_sisGenerateProcessKey : HasQueue (sisGenerateProcessKey s p pid) ↔ HasQueue s :=
  hasQueue_congr rfl rfl rfl

lemma HasQueue.installProcess (hq : HasQueue s) (hp : (s.processes p).rbNode = none) :
    HasQueue (installProcess s p pid entry priv caps stack) := by
  rw [EEVDF.installProcess, hasQueue_markReady, hasQueue_countCreated]
  refine HasQueue.modifyProcess ?_ (by intro; rfl) (by intro; rfl)
  refine HasQueue.sisUpdateSeal ?_
  refine HasQueue.modifyProcess ?_ (by intro; rfl) (by intro; rfl)
  rw [hasQueue_sisGenerateProcessKey]
  exact hq.setProcess hp (by rfl)

lemma installProcess_of_ne (hq : q ≠ p) :
    (installProcess s p pid entry priv caps stack).processes q = s.processes q := by
  simp [installProcess, State.markReady, State.countCreated, sisUpdateSeal, hq]

lemma installProcess_key_of_ne (hq : q ≠ p) :
    (installProcess s p pid entry priv caps stack).processKeys q = s.processKeys q :=
  sisGenerateProcessKey_of_ne hq

lemma installProcess_rbNode :
    ((installProcess s p pid entry priv caps stack).processes p).rbNode = none := by
  simp [installProcess, State.markReady, State.countCreated, sisUpdateSeal, initProcess, setTaskNice]

lemma installProcess_identity :
    let i := ((installProcess s p pid entry priv caps stack).processes p).identity
    i.pid = pid ∧ i.state = .ready ∧ i.privilegeLevel = priv ∧ i.token.magic = sisMagic ∧
      i.token.capabilities = caps ∧ i.stack = stack ∧ i.context = initialContext entry stack ∧
      i.sisSeal = sisFastHash (sisCritical pid priv .ready)
        ((installProcess s p pid entry priv caps stack).processKeys p) := by
  simp [installProcess, State.markReady, State.countCreated, sisUpdateSeal, ProcessControlBlock.identity,
    initProcess, setTaskNice, sisSealPCB]

lemma installProcess_table :
    (installProcess s p pid entry priv caps stack).table = { s.table with
      process := Function.update s.table.process p
        ((installProcess s p pid entry priv caps stack).processes p).identity
      queued := Function.update s.table.queued p false
      key := Function.update s.table.key p
        ((installProcess s p pid entry priv caps stack).processKeys p)
      ledger := s.table.ledger.countCreated } := by
  refine Table.ext (funext fun q => ?_) (funext fun q => ?_) (funext fun q => ?_) rfl rfl rfl rfl
  · by_cases hq : q = p <;> simp [State.table, hq, installProcess_of_ne]
  · by_cases hq : q = p <;> simp [State.table, hq, installProcess_of_ne, installProcess_rbNode]
  · by_cases hq : q = p <;> simp [State.table, hq, installProcess_key_of_ne]

lemma createSecureProcess_refines (hq : HasQueue s)
    (hf : ∀ p : Slot, s.table.active.getLsbD p = false → s.table.queued p = false)
    (he : createSecureProcess s entry priv caps stack = .ok r) :
    HasQueue r.2 ∧ r.2.control = s.control ∧ s.table.Create entry priv caps stack r.2.table := by
  unfold createSecureProcess at he
  split at he
  case isTrue => cases he
  case isFalse hentry =>
  split at he
  case isTrue => cases he
  split at he
  case h_1 => cases he
  case h_2 p s1 hs =>
    obtain ⟨hp, hfirst, ha, rfl⟩ := findFreeSlotFast_eq_some hs
    split at he
    case h_1 => cases he
    case h_2 pid hpid =>
      have ⟨hpos, hlt, hg⟩ := allocPid_eq_some hpid
      split at he
      case isTrue => cases he
      case isFalse hstack =>
      have ⟨s2, he2, he⟩ := Except.of_bind he
      have ⟨s3, he3, he⟩ := Except.of_bind he
      cases he
      have hn : (s.processes p).rbNode = none := by simpa [State.table] using hf p ha
      generalize hi : installProcess ((s.takeSlot p).takePid pid) p (UInt32.ofNat pid) entry priv caps
        stack = s1 at he2
      have hq1 : HasQueue s1 := hi ▸ HasQueue.installProcess (by simpa using hq) hn
      have hc1 : s1.control = s.control := hi ▸ rfl
      have ht1 := hi ▸ installProcess_table
      have ⟨hpid1, hst1, hpriv1, hm1, hcap1, hstack1, hctx1, hs1⟩ := hi ▸ installProcess_identity
      have ⟨hl, hq2, ht2, hc2⟩ := lockRunqueue_refines he2
      have hr2 : s2.table.state p = .ready := ht2 ▸ hst1
      have ⟨_, hq3, ht3, hc3⟩ := enqueueTask_refines (hq2.mpr hq1) hr2 he3
      refine ⟨hasQueue_unlockRunqueue.mpr hq3, ?_, ?_⟩
      · rw [State.unlockRunqueue_control, hc3, hc2, hc1]
        exact congrArg (Control.mk · _ _) (hc1 ▸ hl).symm
      · have ht : s3.table =
            s.table.install p pid (s1.processes p).identity (s1.processKeys p) := by
          rw [ht3, ht2, ht1]
          exact Table.ext rfl (Function.update_idem ..) rfl rfl rfl rfl rfl
        rw [State.unlockRunqueue_table, ht]
        refine .intro ⟨hentry, hp, hfirst, ha, hpos, hlt, hg, hpid1, hst1, hpriv1, hm1, hcap1, hstack,
          hstack1, hctx1, ?_⟩
        simp [Table.Sealed, Table.install, Table.expectedSeal, hs1, hpid1, hpriv1, hst1]

end

lemma postflightCheck_refines (hq : HasQueue s) (hp : p ≠ 0) (he : postflightCheck s p = .ok r) :
    HasQueue r.2 ∧ r.2.control = s.control ∧
      (r.1 = true ∧ s.table.Sealed p ∧ r.2 = s ∨
        r.1 = false ∧ ¬s.table.Sealed p ∧ r.2.table = s.table.asTerminate (s.table.process p).pid) := by
  unfold postflightCheck at he
  rw [if_neg hp] at he
  by_cases hs : s.table.Sealed p
  case pos =>
    rw [sisVerifyPCB_iff.mpr hs] at he
    cases he
    exact ⟨hq, rfl, .inl ⟨rfl, hs, rfl⟩⟩
  rw [Bool.eq_false_iff.mpr (mt sisVerifyPCB_iff.mp hs)] at he
  have ⟨s1, he1, he⟩ := Except.of_bind he
  have ⟨hq1, ht1, hc1, _⟩ := asTerminate_refines hq he1
  cases he
  exact ⟨hq1, hc1, .inr ⟨rfl, hs, ht1⟩⟩

lemma privilegeCheck_iff : privilegeCheck s p = true ↔ s.table.Privileged p := by
  simp [privilegeCheck, Table.Privileged, State.table, ProcessControlBlock.identity, imp_iff_not_or]

lemma preflightCheck_refines (hq : HasQueue s)
    (hp : s.table.state p ≠ .terminated) (he : preflightCheck s p = .ok r) :
    HasQueue r.2 ∧ r.2.control = s.control ∧
      (r.1 = true ∧ s.table.Admits p ∧ r.2 = s ∨
        r.1 = false ∧ ¬s.table.Admits p ∧ s.control.locked = false ∧
          r.2.table = s.table.asTerminate (s.table.process p).pid) := by
  -- The two checks fail in the same way.
  have failed (ha : ¬s.table.Admits p)
      (he : (do return (false, ← asTerminate s (s.processes p).pid)) = Except.ok r) :
      HasQueue r.2 ∧ r.2.control = s.control ∧
        (r.1 = true ∧ s.table.Admits p ∧ r.2 = s ∨
          r.1 = false ∧ ¬s.table.Admits p ∧ s.control.locked = false ∧
            r.2.table = s.table.asTerminate (s.table.process p).pid) := by
    have ⟨s1, he1, he⟩ := Except.of_bind he
    have ⟨hq1, ht1, hc1, hl⟩ := asTerminate_refines hq he1
    have ⟨q, hf⟩ := Table.exists_find hp
    cases he
    exact ⟨hq1, hc1, .inr ⟨rfl, ha, hl q hf, ht1⟩⟩
  unfold preflightCheck at he
  split at he
  case isTrue h0 =>
    cases he
    exact ⟨hq, rfl, .inl ⟨rfl, .inl h0, rfl⟩⟩
  case isFalse h0 =>
    split at he
    case isTrue hv =>
      have hs : ¬s.table.Sealed p := fun h => by simp [sisVerifyPCB_iff.mpr h] at hv
      exact failed (fun ha => ha.elim h0 fun h => hs h.1) he
    case isFalse hv =>
      have hs : s.table.Sealed p := sisVerifyPCB_iff.mp (by simpa using hv)
      split at he
      case isTrue hv =>
        have hs : ¬s.table.Privileged p := fun h => by simp [privilegeCheck_iff.mpr h] at hv
        exact failed (fun ha => ha.elim h0 fun h => hs h.2) he
      case isFalse hv =>
        have hp : s.table.Privileged p := privilegeCheck_iff.mp (by simpa using hv)
        cases he
        exact ⟨hq, rfl, .inl ⟨rfl, .inr ⟨hs, hp⟩, rfl⟩⟩

lemma updateMinVruntime_table : (updateMinVruntime s p).table = s.table := rfl

lemma HasQueue.updateMinVruntime (hq : HasQueue s) : HasQueue (updateMinVruntime s p) :=
  hq.congr (.setRq rfl rfl)

lemma updateMinVruntime_control : (updateMinVruntime s p).control = s.control := rfl

lemma updateCurr_control : (updateCurr s p).control = s.control := by
  unfold updateCurr
  dsimp only
  split
  · rfl
  · rw [updateMinVruntime_control, State.modifyProcess_control]

lemma account_identity {pcb : ProcessControlBlock} {now delta fair : UInt64} :
    (pcb.account now delta fair).identity = pcb.identity := rfl

lemma account_rbNode {pcb : ProcessControlBlock} {now delta fair : UInt64} :
    (pcb.account now delta fair).rbNode = pcb.rbNode := rfl

lemma updateCurr_table : (updateCurr s p).table = s.table := by
  unfold updateCurr
  dsimp only
  split
  · rfl
  · rw [updateMinVruntime_table]
    exact table_modifyProcess_self (fun _ => account_identity) fun _ => account_rbNode

lemma HasQueue.updateCurr (hq : HasQueue s) (hn : s.table.queued p = false) :
    HasQueue (updateCurr s p) := by
  have hn : (s.processes p).rbNode = none := by simpa [State.table] using hn
  unfold EEVDF.updateCurr
  dsimp only
  split
  · exact hq
  · exact (hq.congr (.modifyProcess hn fun _ => account_rbNode)).updateMinVruntime

-- A current process that is queued is ready. Its virtual runtime changes while it is queued, but the
-- kernel does not get far, as the process cannot be enqueued again.
lemma stopCurrent_refines (hq : HasQueue s) (hp : s.table.current = p)
    (h0 : p ≠ 0) (hr : s.table.queued p = true → s.table.state p = .ready)
    (he : stopCurrent s regs p = .ok s') : s'.control = s.control ∧ s'.table = s.table.stop regs ∧
      (HasQueue s' ∨ s'.table.queued p = true ∧ s'.table.state p = .ready) := by
  unfold stopCurrent at he
  rw [← State.table_state] at he
  simp only [Table.stop, hp]
  by_cases hd : (s.table.state p).Dead
  case pos =>
    rw [if_pos hd] at he ⊢
    cases he
    exact ⟨rfl, rfl, .inl hq⟩
  rw [if_neg hd] at he ⊢
  obtain ⟨⟨ok, s1⟩, he1, he2⟩ := Except.of_bind he
  obtain ⟨hq1, hc1, ⟨rfl, hs, rfl⟩ | ⟨rfl, hs, ht1⟩⟩ := postflightCheck_refines hq h0 he1
  case inr =>
    rw [if_pos hs]
    cases he2
    exact ⟨hc1, ht1, .inl hq1⟩
  case inl =>
    rw [if_neg (not_not.mpr hs)]
    dsimp only at he2 hq1
    rw [if_neg (by simp)] at he2
    generalize hs2 : updateCurr (s1.modifyProcess p fun pcb => { pcb with context := regs }) p = s2
      at he2
    have ht2 : s2.table = s1.table.save p regs := by
      rw [← hs2, updateCurr_table, table_modifyProcess rfl]
      rfl
    have hc2 : s2.control = s1.control := by
      rw [← hs2, updateCurr_control, State.modifyProcess_control]
    have hq2 (hn : s1.table.queued p = false) : HasQueue s2 := by
      rw [← hs2]
      refine HasQueue.updateCurr (hq1.modifyProcess (by intro; rfl) (by intro; rfl)) ?_
      rwa [table_modifyProcess rfl]
    rw [← State.table_state, ht2, Table.save_state] at he2
    split at he2 <;> cases he2
    case isTrue hrun =>
      have hn : s1.table.queued p = false := Bool.eq_false_iff.mpr fun h => by simp [hr h] at hrun
      rw [if_pos hrun]
      refine ⟨?_, ?_, .inl (hasQueue_markReady.mpr (hq2 hn).enter)⟩
      · rw [State.markReady_control, enter_control, hc2]
      · rw [State.markReady_table, enter_table, ht2]
    case isFalse hrun =>
      rw [if_neg hrun]
      refine ⟨hc2, ht2, ?_⟩
      cases hn : s1.table.queued p
      case false => exact .inl (hq2 hn)
      rw [ht2, Table.save_state]
      exact .inr ⟨hn, hr hn⟩

lemma preempt_refines (hq : HasQueue s) (hp : s.table.current = p)
    (h0 : p ≠ 0) (hr : s.table.queued p = true → s.table.state p = .ready)
    (he : preempt s regs p = .ok s') :
    s.control.locked = false ∧ HasQueue s' ∧ s'.control = { s.control with locked := true } ∧
      s'.table = (s.table.stop regs).requeue ∧
      ((s.table.stop regs).state p = .ready → (s.table.stop regs).queued p = false) := by
  obtain ⟨s1, he1, he⟩ := Except.of_bind he
  obtain ⟨s2, he2, he⟩ := Except.of_bind he
  have ⟨hc1, ht1, hq1⟩ := stopCurrent_refines hq hp h0 hr he1
  have ⟨hl, hq2, ht2, hc2⟩ := lockRunqueue_refines he2
  rw [← State.table_state, ht2, ht1] at he
  simp only [Table.requeue, Table.stop_current, hp]
  rw [ht1] at hq1 ht2
  rw [hc1] at hl hc2
  split at he
  case isTrue hs =>
    have hn : (s.table.stop regs).queued p = false := by
      have hn := rbNode_of_enqueueTask (ht2 ▸ hs) he
      rw [← ht2]
      simp [State.table, hn]
    have hq1 := hq1.resolve_right fun h => by simp [hn] at h
    have ⟨_, hq', ht', hc'⟩ := enqueueTask_refines (hq2.mpr hq1) (ht2 ▸ hs) he
    rw [if_pos hs]
    exact ⟨hl, hq', hc'.trans hc2, ht2 ▸ ht', fun _ => hn⟩
  case isFalse hs =>
    cases he
    rw [if_neg hs]
    exact ⟨hl, hq2.mpr (hq1.resolve_right fun h => hs h.2), hc2, ht2, fun h => absurd h hs⟩

lemma dispatch_refines (hq : HasQueue s) (he : dispatch s (pickNext s) = .ok r) :
    HasQueue r.2 ∧ r.2.control = s.control ∧ s.table.Dispatch r.1 r.2.table := by
  rcases hn : pickNext s with _ | p
  · rw [hn] at he
    cases he
    exact ⟨hq, rfl, .empty (hq.pickNext_none hn)⟩
  rw [hn] at he
  have hp := hq.pickNext_some hn
  rw [dispatch, ← State.table_state] at he
  split at he
  case isTrue hr =>
    have ⟨s1, he1, he⟩ := Except.of_bind he
    have ⟨hq1, ht1, hc1⟩ := dequeueTask_refines hq he1
    cases he
    exact ⟨hq1, hc1, ht1 ▸ .take hp hr⟩
  case isFalse hr =>
    cases he
    exact ⟨hq, rfl, .skip hp hr⟩

lemma selectNext_refines (hq : HasQueue s)
    (hs : ∀ p, s.table.queued p = true → s.table.state p ≠ .terminated)
    (he : selectNext s = .ok r) : HasQueue r.2 ∧ r.2.control = s.control ∧
      (s.table.Dispatch r.1 r.2.table ∨
        ∃ q, pickNext s = some q ∧ s.table.queued q = true ∧ ¬s.table.Admits q ∧
          s.control.locked = false ∧
          ((s.table.asTerminate (s.table.process q).pid).dequeue q).Dispatch r.1 r.2.table) := by
  unfold selectNext at he
  split at he
  case h_1 hn =>
    cases he
    exact ⟨hq, rfl, .inl (.empty (hq.pickNext_none hn))⟩
  case h_2 p hn =>
    have hp := hq.pickNext_some hn
    obtain ⟨⟨ok, s1⟩, he1, he2⟩ := Except.of_bind he
    obtain ⟨hq1, hc1, ⟨rfl, ha, rfl⟩ | ⟨rfl, ha, hl, ht1⟩⟩ := preflightCheck_refines hq (hs p hp) he1
    · dsimp only at he2 hn
      rw [if_pos rfl, ← hn] at he2
      have ⟨hq', hc', hd⟩ := dispatch_refines hq he2
      exact ⟨hq', hc', .inl hd⟩
    · obtain ⟨s2, he2, he3⟩ := Except.of_bind he2
      have ⟨hq2, ht2, hc2⟩ := dequeueTask_refines hq1 he2
      have ⟨hq', hc', hd⟩ := dispatch_refines hq2 he3
      rw [ht2, ht1] at hd
      exact ⟨hq', hc'.trans (hc2.trans hc1), .inr ⟨p, hn, hp, ha, hl, hd⟩⟩

lemma switchTo_refines (hq : HasQueue s) (he : switchTo s regs p = .ok r) :
    HasQueue r.2 ∧ r.2.control = s.control ∧
      (((s.table.process p).stack = 0 ∨ (s.table.process p).context.rip = 0) ∧
          r.2.table = s.table ∧ r.1 = regs ∨
        (s.table.process p).stack ≠ 0 ∧ (s.table.process p).context.rip ≠ 0 ∧
          r.2.table = s.table.enter p .running ∧ r.1 = (s.table.process p).context) := by
  unfold switchTo at he
  dsimp only at he
  split at he
  case isTrue h0 =>
    cases he
    exact ⟨hq, rfl, .inl ⟨h0, rfl, rfl⟩⟩
  case isFalse h0 =>
    generalize hs1 : State.clearReady
      (sisUpdateSeal (s.modifyProcess p fun pcb => { pcb with state := .running }) p) p = s1 at he
    have hq1 : HasQueue s1 := hs1 ▸ hasQueue_clearReady.mpr hq.enter
    have ht1 : s1.table = s.table.enter p .running := by
      rw [← hs1, State.clearReady_table, enter_table]
    have hc1 : s1.control = s.control := by
      rw [← hs1, State.clearReady_control, enter_control]
    obtain ⟨slice, -, he⟩ := Except.of_bind he
    generalize hs2 : (s1.modifyProcess p fun pcb => { pcb with execStart := s1.getNS }).modifyProcess p
      (fun pcb => { pcb with sliceNs := slice }) = s2 at he
    have hq2 : HasQueue s2 := hs2 ▸
      (hq1.modifyProcess (by intro; rfl) (by intro; rfl)).modifyProcess (by intro; rfl) (by intro; rfl)
    have ht2 : s2.table = s.table.enter p .running := by
      rw [← hs2, table_modifyProcess_self (by intro; rfl) (by intro; rfl),
        table_modifyProcess_self (by intro; rfl) (by intro; rfl), ht1]
    have hc2 : s2.control = s.control := by
      rw [← hs2, State.modifyProcess_control, State.modifyProcess_control, hc1]
    cases he
    have ⟨hs, hr⟩ := not_or.mp h0
    have hctx : (s2.table.process p).context = (s.table.process p).context := by
      rw [ht2, Table.enter_context]
    exact ⟨hq2, hc2, .inr ⟨hs, hr, ht2, hctx⟩⟩

lemma setCurrent_table : (s.setCurrent p).table = s.table.setCurrent p := rfl

lemma HasQueue.setCurrent (hq : HasQueue s) : HasQueue (s.setCurrent p) :=
  have hq' : HasQueue (s.setRq { s.rq with currentSlot := p }) := hq.congr (.setRq rfl rfl)
  hasQueue_congr (by rfl) (by rfl) (by rfl) |>.mpr hq'

lemma contextSwitch_refines (hq : HasQueue s) (he : contextSwitch s regs p = .ok r) :
    HasQueue r.2 ∧ r.2.control = { s.control with currentProcess := p } ∧
      s.table.Resume regs p r.1 r.2.table := by
  unfold contextSwitch at he
  split at he
  case isTrue h0 =>
    obtain ⟨hq1, hc1, ht1⟩ := switchTo_refines hq.setCurrent he
    rw [setCurrent_table] at ht1
    refine ⟨hq1, hc1, ?_⟩
    rcases ht1 with ⟨hs, ht, hr⟩ | ⟨hs, hi, ht, hr⟩
    · rw [ht, hr]
      exact .stay h0 hs
    · rw [ht, hr]
      exact .run h0 hs hi
  case isFalse h0 =>
    cases he
    exact ⟨hq.setCurrent, rfl, .idle (not_not.mp h0)⟩

lemma resume_refines (hq : HasQueue s)
    (hv : s.table.Valid) (hp : p ≠ 0 → s.table.state p = .ready ∧ s.table.queued p = false)
    (he : resume s regs p = .ok r) :
    HasQueue r.2 ∧ r.2.control = { s.control with currentProcess := p } ∧
      ∃ t, s.table.Resume regs p r.1 t ∧ (s.schedulerCalls % 100 = 0 → Table.Cleaned 0 t r.2.table) ∧
        (s.schedulerCalls % 100 ≠ 0 → r.2.table = t) := by
  obtain ⟨⟨regs', s1⟩, he1, he2⟩ := Except.of_bind he
  have ⟨hq1, hc1, ht1⟩ := contextSwitch_refines hq he1
  have hcalls : s1.schedulerCalls = s.schedulerCalls := congrArg Control.calls hc1
  cases he2
  dsimp only at ht1 ⊢
  rw [hcalls]
  by_cases hd : s.schedulerCalls % 100 = 0
  · rw [if_pos hd]
    have hv1 := hv.resume hp ht1
    have ⟨hq2, hc2, ht2⟩ := cleanupLoop_refines s1.termQueueCount 0 le_rfl hq1 fun q hq hz => by
      simpa [hz] using hv1.ready q hq
    exact ⟨hq2, hc2.trans hc1, _, ht1, fun _ => ht2, fun h => absurd hd h⟩
  · rw [if_neg hd]
    exact ⟨hq1, hc1, _, ht1, fun h => absurd h hd, fun _ => rfl⟩

lemma Coherent.resume (hv : s.table.Valid)
    (hq : HasQueue s1) (hl : s1.control.locked = false) (hc : s1.control.calls = s.schedulerCalls + 1)
    (ht : s.table.Tick s.choice.pick regs p s1.table) (he : EEVDF.resume s1 regs p = .ok r) :
    Coherent r.2 ∧ s.table.Schedule s.choice regs r.1 r.2.table := by
  obtain ⟨hq', hc', t, hr, hd, hn⟩ := resume_refines hq (hv.tick ht) ht.taken he
  have hcalls : s1.schedulerCalls = s.schedulerCalls + 1 := hc
  rw [hcalls] at hd hn
  have hcur : r.2.table.current = p := by
    by_cases h : (s.schedulerCalls + 1) % 100 = 0
    · rw [(hd h).current, hr.current]
    · rw [hn h, hr.current]
  refine ⟨⟨hq', ?_, ?_⟩, ?_⟩
  · exact (congrArg Control.currentProcess hc').trans hcur.symm
  · exact (congrArg Control.locked hc').trans hl
  · exact .intro ht hr (by simpa [State.choice] using hd) (by simpa [State.choice] using hn)

lemma schedule_refines (hs : Coherent s) (hv : s.table.Valid) (he : schedule s regs = .ok r) :
    Coherent r.2 ∧ s.table.Schedule s.choice regs r.1 r.2.table := by
  have hlive {t : Table} (hv : t.Valid) (p) (hp : t.queued p = true) : t.state p ≠ .terminated := by
    intro h
    simpa [h] using hv.ready p hp
  have hq : HasQueue s.countCall := hasQueue_countCall.mpr hs.queue
  unfold schedule at he
  dsimp only at he
  split at he
  case isTrue h0 =>
    obtain ⟨s1, he1, he⟩ := Except.of_bind he
    obtain ⟨⟨p, s2⟩, he2, he3⟩ := Except.of_bind he
    have hr (hp : s.table.queued s.table.current = true) : s.table.state s.table.current = .ready :=
      (hv.ready _ hp).resolve_right fun h => h0 h.1
    obtain ⟨hl, hq1, hc1, ht1, hn⟩ := preempt_refines hq rfl h0 hr he1
    rw [State.countCall_table] at ht1 hn
    have hv1 : s1.table.Valid := ht1 ▸ hv.stop.requeue
    obtain ⟨hq2, hc2, hd | ⟨_, _, _, _, hl', _⟩⟩ := selectNext_refines hq1 (hlive hv1) he2
    case inr => simp [hc1] at hl'
    refine Coherent.resume hv (hasQueue_unlockRunqueue.mpr hq2) rfl ?_ ?_ he3
    · rw [State.unlockRunqueue_control, hc2, hc1]
      rfl
    · exact .preempt h0 hn (ht1 ▸ hd)
  case isFalse h0 =>
    have h0 : s.table.current = 0 := not_not.mp h0
    obtain ⟨⟨p, s1⟩, he1, he2⟩ := Except.of_bind he
    obtain ⟨hq1, hc1, hd⟩ := selectNext_refines hq (hlive hv) he1
    refine Coherent.resume hv hq1 ?_ ?_ ?_ he2
    · exact (congrArg Control.locked hc1).trans hs.unlocked
    · exact congrArg Control.calls hc1
    · rcases hd with hd | ⟨q, hn, hq, ha, _, hd⟩
      · exact .idle h0 hd
      · exact .refuse h0 hn hq ha hd

lemma killAllProcesses_refines (hq : HasQueue s) (he : l.foldlM (fun s i =>
      let proc := s.processes i
      if proc.state ≠ .terminated ∧ proc.pid ≠ 0 then asTerminate s proc.pid else return s) s = .ok s') :
    HasQueue s' ∧ s'.control = s.control ∧ s'.table = s.table.purge l := by
  induction l generalizing s
  case nil =>
    cases he
    exact ⟨hq, rfl, rfl⟩
  case cons i l ih =>
    obtain ⟨s1, he1, he⟩ := Except.of_bind he
    dsimp only at he1
    rw [Table.purge, State.table_state, State.table_pid]
    split at he1
    case isTrue hi =>
      obtain ⟨hq1, ht1, hc1, _⟩ := asTerminate_refines hq he1
      obtain ⟨hq', hc', ht'⟩ := ih hq1 he
      rw [if_pos hi, ← ht1]
      exact ⟨hq', hc'.trans hc1, ht'⟩
    case isFalse hi =>
      cases he1
      rw [if_neg hi]
      exact ih hq he

lemma createSecureProcess_step {entry priv caps stack} (hs : Coherent s)
    (hv : s.table.Valid) (he : createSecureProcess s entry priv caps stack = .ok r) :
    Coherent r.2 ∧ s.table.Step s.choice (.create entry priv caps stack) r.2.table := by
  have hf (p : Slot) (ha : s.table.active.getLsbD p = false) : s.table.queued p = false :=
    Bool.eq_false_iff.mpr fun hp => by simpa [hv.free p ha] using hv.ready p hp
  have ⟨hq, hc, ht⟩ := createSecureProcess_refines hs.queue hf he
  exact ⟨hs.of_control hq ht.current hc, .create ht⟩

-- Every action of the kernel is a step of the table.
lemma exec_refines (hs : Coherent s) (hv : s.table.Valid) (he : exec s a = .ok s') :
    Coherent s' ∧ s.table.Step s.choice a s'.table := by
  cases a
  case create entry priv caps stack =>
    obtain ⟨r, hr, rfl⟩ := Except.of_map he
    exact createSecureProcess_step hs hv hr
  case schedule regs =>
    obtain ⟨r, hr, rfl⟩ := Except.of_map he
    have ⟨hs', ht⟩ := schedule_refines hs hv hr
    exact ⟨hs', .schedule ht⟩
  case kill pid =>
    have ⟨hq, ht, hc⟩ := killProcess_refines hs he
    exact ⟨hs.of_control hq (ht ▸ Table.kill_current) hc, ht ▸ .kill⟩
  case killCurrent =>
    have he : asTerminate s (s.processes s.currentProcess).pid = .ok s' := he
    rw [hs.current] at he
    have ⟨hq, ht, hc, _⟩ := asTerminate_refines hs.queue he
    exact ⟨hs.of_control hq (ht ▸ Table.asTerminate_current) hc, ht ▸ .killCurrent⟩
  case killAll =>
    have ⟨hq, hc, ht⟩ := killAllProcesses_refines hs.queue he
    exact ⟨hs.of_control hq (ht ▸ Table.purge_current) hc, ht ▸ .killAll⟩
  case wakeup p =>
    rcases p with _ | p
    · cases he
      exact ⟨hs, .awake (by simp)⟩
    have ⟨hn, hq, ht, hc⟩ := wakeupTask_refines hs.queue he
    refine ⟨hs.of_control hq (by rw [ht]; split <;> rfl) hc, ?_⟩
    rw [ht]
    split
    case isTrue hb => exact .wakeup hb (hn hb)
    case isFalse hb => exact .awake (by simpa using hb)
  case cleanup =>
    cases he
    have ⟨hq, hc, ht⟩ := cleanupLoop_refines s.termQueueCount 0 le_rfl hs.queue
      fun q hq hz => by simpa [hz] using hv.ready q hq
    exact ⟨hs.of_control hq ht.current hc, .cleanup ht⟩
  case send pid msg =>
    have he : sendMessage s pid msg = ((sendMessage s pid msg).1, s') :=
      Prod.ext rfl (Except.ok.inj he)
    have ⟨hq, hc, ht⟩ := sendMessage_refines hs.queue he
    rcases ht with ⟨ht, hn⟩ | ⟨p, m, rfl, hf, hb, hm, ht⟩
    · refine ⟨hs.of_control hq (ht ▸ rfl) hc, ?_⟩
      rw [ht]
      exact .send hn
    · refine ⟨hs.of_control hq (ht ▸ rfl) hc, ?_⟩
      rw [ht]
      exact .resume hf hb hm
  case receive =>
    have he : receiveMessage s = ((receiveMessage s).1, s') := Prod.ext rfl (Except.ok.inj he)
    have ⟨hq, hc, ht⟩ := receiveMessage_refines hs he
    refine ⟨hs.of_control hq (by rw [ht]; split <;> rfl) hc, ?_⟩
    rw [ht]
    split
    case isTrue hb => exact .receive (decide_eq_false hb.ne')
    case isFalse hb => exact .block (decide_eq_true (Nat.eq_zero_of_not_pos hb))
  case clock ticks hz =>
    cases he
    exact ⟨⟨(hasQueue_congr (by rfl) (by rfl) (by rfl)).mpr hs.queue, hs.current, hs.unlocked⟩, .clock⟩

section

variable {ticks hz : UInt32}

lemma schedInit_state :
    (schedInit ticks hz).table.state p = if p = 0 then .running else .terminated := by
  by_cases hp : p = 0 <;>
    simp [schedInit, State.table, Table.state, ProcessControlBlock.identity, hp, sisUpdateSeal,
      sisGenerateProcessKey, State.modifyProcess, State.setProcess, setTaskNice]

lemma schedInit_pid : ((schedInit ticks hz).table.process p).pid = 0 := by
  by_cases hp : p = 0 <;>
    simp [schedInit, State.table, ProcessControlBlock.identity, hp, sisUpdateSeal,
      sisGenerateProcessKey, State.modifyProcess, State.setProcess, setTaskNice]

lemma schedInit_sealed : (schedInit ticks hz).table.Sealed 0 := by
  simp [schedInit, Table.Sealed, Table.expectedSeal, State.table, ProcessControlBlock.identity,
    sisUpdateSeal, sisGenerateProcessKey, State.modifyProcess, State.setProcess, setTaskNice, sisSealPCB]

lemma schedInit_privileged : (schedInit ticks hz).table.Privileged 0 := by
  simp [schedInit, Table.Privileged, State.table, ProcessControlBlock.identity, sisUpdateSeal,
    sisGenerateProcessKey, State.modifyProcess, State.setProcess, setTaskNice]
  decide

lemma schedInit_queued : (schedInit ticks hz).table.queued p = false := by
  simp [State.table, schedInit_rbNode]

lemma schedInit_active : (schedInit ticks hz).table.active = 1 :=
  BitVec.zero_or

lemma schedInit_pids : (schedInit ticks hz).table.pids = fun _ => 0 := rfl

lemma schedInit_coherent : Coherent (schedInit ticks hz) where
  queue := ⟨_, _, _, Queue.init ticks hz⟩
  current := rfl
  unlocked := rfl

lemma schedInit_valid : (schedInit ticks hz).table.Valid where
  ready p hp := by simp [schedInit_queued] at hp
  free p ha := by
    rw [schedInit_state, if_neg]
    rintro rfl
    rw [schedInit_active] at ha
    exact absurd ha (by decide)

-- An invariant of the table that the admitted actions keep holds in every state that they reach.
lemma Run.invariant {ok : State → Action → Prop} {I : Table → Prop} (valid : ∀ t, I t → t.Valid)
    (init : ∀ ticks hz, I (schedInit ticks hz).table)
    (step : ∀ s a t, Coherent s → I s.table → ok s a → s.table.Step s.choice a t → I t)
    (hs : Run ok s) : Coherent s ∧ I s.table := by
  induction hs
  case init ticks hz => exact ⟨schedInit_coherent, init ticks hz⟩
  case step s s' a hs ha he ih =>
    have ⟨hc, ht⟩ := exec_refines ih.1 (valid _ ih.2) he
    exact ⟨hc, step s a _ ih.1 ih.2 ha ht⟩

end

end EEVDF
