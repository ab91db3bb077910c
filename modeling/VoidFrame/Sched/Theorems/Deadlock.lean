import VoidFrame.Sched.EEVDF.Theorems.Refinement
import VoidFrame.Sched.MLFQ.Theorems.Selection

-- A tick that waits for the lock which it holds itself.

namespace EEVDF

variable {s t : State} {p : Slot} {pid : UInt32} {regs : Registers} {reason : TerminationReason}
  {code : UInt32} {α : Type}

-- The parts of the scheduler that do not take the lock.
abbrev Lockless (x : Except Fault α) : Prop :=
  x.Safe .deadlock fun _ => True

lemma calcSlice_lockless : Lockless (calcSlice rq pcb) := by
  unfold calcSlice
  split
  · exact .ok trivial
  · split
    · exact .error nofun
    · exact .ok trivial

lemma ofTree_lockless {x : Option α} : Lockless (ofTree x) := by
  cases x
  case none => exact .error nofun
  case some a => exact .ok trivial

lemma rbInsert_lockless : Lockless (rbInsert s p) := by
  unfold rbInsert
  split
  · exact .error nofun
  · split
    · exact .ok trivial
    · exact ofTree_lockless.bind fun _ _ => .ok trivial

lemma updateLeftmost_lockless : Lockless (updateLeftmost s n) := by
  unfold updateLeftmost
  split
  · exact ofTree_lockless
  · exact .ok trivial

lemma rbDelete_lockless : Lockless (rbDelete s p) := by
  unfold rbDelete
  split
  · exact .ok trivial
  · exact updateLeftmost_lockless.bind fun _ _ => ofTree_lockless.bind fun _ _ => .ok trivial

lemma control_locked : s.control.locked = s.runqueueLock := rfl

lemma Frame.lock (h : Frame s t) : t.runqueueLock = s.runqueueLock :=
  congrArg Control.locked h.control

lemma enqueueTask_lock :
    (enqueueTask s (some p)).Safe .deadlock fun t => t.runqueueLock = s.runqueueLock := by
  refine .of_returns ?_ (enqueueTask_frame.mono fun _ => Frame.lock)
  unfold enqueueTask
  dsimp only
  split
  · exact .ok trivial
  · exact calcSlice_lockless.bind fun _ _ => rbInsert_lockless

lemma dequeueTask_lock :
    (dequeueTask s (some p)).Safe .deadlock fun t => t.runqueueLock = s.runqueueLock := by
  refine .of_returns ?_ (dequeueTask_frame.mono fun _ => Frame.lock)
  unfold dequeueTask
  dsimp only
  split
  · exact .ok trivial
  · exact rbDelete_lockless

-- A call that finds the lock free and leaves it free.
abbrev Unlocked (x : Except Fault State) : Prop :=
  x.Safe .deadlock fun t => t.runqueueLock = false

lemma lockRunqueue_safe (h : s.runqueueLock = false) :
    s.lockRunqueue.Safe .deadlock fun t => t = { s with runqueueLock := true } := by
  unfold State.lockRunqueue
  rw [h]
  exact .ok rfl

lemma addToTerminationQueue_lock :
    (addToTerminationQueue s p).Safe .deadlock fun t => t.runqueueLock = s.runqueueLock := by
  unfold addToTerminationQueue
  split
  · exact .error nofun
  · exact .ok rfl

lemma retire_unlocked (h : s.runqueueLock = false) : Unlocked (retire s p reason code) := by
  have hz : (zombify s p reason code).runqueueLock = false := h
  exact (lockRunqueue_safe hz).bind fun _ _ =>
    dequeueTask_lock.bind fun _ _ => addToTerminationQueue_lock

lemma asTerminate_unlocked (h : s.runqueueLock = false) : Unlocked (asTerminate s pid) := by
  unfold asTerminate
  split
  · exact .ok h
  · split
    · exact .ok h
    · exact (retire_unlocked h).bind fun _ ht => .ok ht

lemma terminateProcess_unlocked (h : s.runqueueLock = false) :
    Unlocked (terminateProcess s pid reason code) := by
  unfold terminateProcess
  split
  · exact .ok h
  · split
    · exact .ok h
    · split
      · exact asTerminate_unlocked h
      · exact (retire_unlocked h).bind fun _ ht => .ok ht

lemma killAllProcesses_unlocked (h : s.runqueueLock = false) : Unlocked (killAllProcesses s) := by
  unfold killAllProcesses
  generalize List.finRange maxProcesses = l
  induction l generalizing s
  case nil => exact .ok h
  case cons i l ih =>
    rw [List.foldlM_cons]
    refine .bind (P := fun t => t.runqueueLock = false) ?_ fun t ht => ih ht
    dsimp only
    split
    · exact asTerminate_unlocked h
    · exact .ok h

lemma wakeupTask_unlocked (h : s.runqueueLock = false) :
    ∀ p, Unlocked (wakeupTask s p)
  | none => .ok h
  | some p => by
    unfold wakeupTask
    dsimp only
    split
    · exact .ok h
    · exact enqueueTask_lock.mono fun _ ht => ht.trans h

lemma removeFromTerminationQueue_lock (h : removeFromTerminationQueue s = some (p, t)) :
    t.runqueueLock = s.runqueueLock := by
  unfold removeFromTerminationQueue at h
  split at h <;> cases h
  rfl

lemma freeSlotFast_lock : (freeSlotFast s p).runqueueLock = s.runqueueLock := by
  unfold freeSlotFast
  split <;> rfl

lemma cleanupLoop_lock : (cleanupLoop fuel count s).runqueueLock = s.runqueueLock := by
  fun_induction cleanupLoop fuel count s
  case case1 => rfl
  case case2 => rfl
  case case3 hs _ ih => exact ih.trans (removeFromTerminationQueue_lock hs)
  case case4 hs _ _ _ ih =>
    refine (ih.trans ?_).trans (removeFromTerminationQueue_lock hs)
    exact freeSlotFast_lock
  case case5 => rfl

lemma createSecureProcess_unlocked (h : s.runqueueLock = false) :
    (createSecureProcess s entryPoint priv capabilities stack).Safe .deadlock
      fun r => r.2.runqueueLock = false := by
  unfold createSecureProcess
  split
  · exact .error nofun
  · split
    · exact .error nofun
    · split
      case h_1 => exact .error nofun
      case h_2 p s1 hs =>
        obtain ⟨_, _, _, rfl⟩ := findFreeSlotFast_eq_some hs
        split
        case h_1 => exact .error nofun
        case h_2 pid _ =>
          split
          · exact .error nofun
          · have hi : (installProcess ((s.takeSlot p).takePid pid) p (UInt32.ofNat pid) entryPoint priv
                capabilities stack).runqueueLock = false := h
            exact (lockRunqueue_safe hi).bind fun _ _ => enqueueTask_lock.bind fun _ _ => .ok rfl

lemma postflightCheck_unlocked (h : s.runqueueLock = false) :
    (postflightCheck s p).Safe .deadlock fun r => r.2.runqueueLock = false := by
  unfold postflightCheck
  split
  · exact .ok h
  · split
    · exact (asTerminate_unlocked h).bind fun _ ht => .ok ht
    · exact .ok h

-- The control part is rewritten, as `updateCurr` is better not unfolded.
lemma updateCurr_lock : (updateCurr s p).runqueueLock = s.runqueueLock := by
  rw [← control_locked, updateCurr_control, control_locked]

lemma enterReady_lock : ((sisUpdateSeal (s.modifyProcess p fun pcb =>
    { pcb with state := .ready }) p).markReady p).runqueueLock = s.runqueueLock := by
  rw [← control_locked, State.markReady_control, enter_control, control_locked]

lemma stopCurrent_unlocked (h : s.runqueueLock = false) : Unlocked (stopCurrent s regs p) := by
  unfold stopCurrent
  split
  · exact .ok h
  · refine (postflightCheck_unlocked h).bind ?_
    rintro ⟨ok, t⟩ ht
    cases ok
    case false => exact .ok ht
    dsimp only
    rw [if_neg (by simp)]
    generalize hu : updateCurr (t.modifyProcess p fun pcb => { pcb with context := regs }) p = u
    have hl : u.runqueueLock = false := by
      rw [← hu, updateCurr_lock]
      exact ht
    split
    · exact .ok (enterReady_lock.trans hl)
    · exact .ok hl

lemma preempt_locked (h : s.runqueueLock = false) :
    (preempt s regs p).Safe .deadlock fun t => t.runqueueLock = true := by
  refine (stopCurrent_unlocked h).bind fun t ht => (lockRunqueue_safe ht).bind fun u hu => ?_
  cases hu
  split
  · exact enqueueTask_lock
  · exact .ok rfl

-- A process passes the check before it runs, or there is nothing to terminate.
def Clears (s : State) (p : Slot) : Prop :=
  p = 0 ∨ sisVerifyPCB s p ∧ privilegeCheck s p ∨
    s.getCurrentProcessByPID (s.processes p).pid = none

instance : Decidable (Clears s p) :=
  inferInstanceAs (Decidable (_ ∨ _ ∨ _))

lemma asTerminate_lock (h : s.runqueueLock = false ∨ s.getCurrentProcessByPID pid = none) :
    (asTerminate s pid).Safe .deadlock fun t => t.runqueueLock = s.runqueueLock := by
  rcases h with h | h
  · exact (asTerminate_unlocked h).mono fun _ ht => ht.trans h.symm
  · unfold asTerminate
    rw [h]
    exact .ok rfl

lemma preflightCheck_lock (h : s.runqueueLock = false ∨ Clears s p) :
    (preflightCheck s p).Safe .deadlock fun r => r.2.runqueueLock = s.runqueueLock := by
  unfold preflightCheck
  split
  case isTrue => exact .ok rfl
  case isFalse h0 =>
    split
    case isTrue hv =>
      have h : s.runqueueLock = false ∨ s.getCurrentProcessByPID (s.processes p).pid = none := by
        rcases h with h | h | h | h
        · exact .inl h
        · exact absurd h h0
        · simp [h.1] at hv
        · exact .inr h
      exact (asTerminate_lock h).bind fun _ ht => .ok ht
    case isFalse hv =>
      split
      case isTrue hp =>
        have h : s.runqueueLock = false ∨ s.getCurrentProcessByPID (s.processes p).pid = none := by
          rcases h with h | h | h | h
          · exact .inl h
          · exact absurd h h0
          · simp [h.2] at hp
          · exact .inr h
        exact (asTerminate_lock h).bind fun _ ht => .ok ht
      case isFalse => exact .ok rfl

lemma dispatch_lock : ∀ p, (dispatch s p).Safe .deadlock fun r => r.2.runqueueLock = s.runqueueLock
  | none => .ok rfl
  | some p => by
    unfold dispatch
    dsimp only
    split
    · exact dequeueTask_lock.bind fun _ ht => .ok ht
    · exact .ok rfl

lemma selectNext_lock (h : s.runqueueLock = false ∨ ∀ p ∈ pickNext s, Clears s p) :
    (selectNext s).Safe .deadlock fun r => r.2.runqueueLock = s.runqueueLock := by
  unfold selectNext
  split
  case h_1 => exact .ok rfl
  case h_2 p hp =>
    refine (preflightCheck_lock (h.imp_right (· p hp))).bind fun r hr => ?_
    dsimp only
    split
    · exact (dispatch_lock _).mono fun _ ht => ht.trans hr
    · exact dequeueTask_lock.bind fun t ht => (dispatch_lock _).mono fun _ hu => (hu.trans ht).trans hr

lemma switchTo_lock : (switchTo s regs p).Safe .deadlock fun r => r.2.runqueueLock = s.runqueueLock := by
  unfold switchTo
  dsimp only
  split
  · exact .ok rfl
  · exact calcSlice_lockless.bind fun _ _ => .ok rfl

lemma resume_lock : (resume s regs p).Safe .deadlock fun r => r.2.runqueueLock = s.runqueueLock := by
  have hc : (contextSwitch s regs p).Safe .deadlock fun r => r.2.runqueueLock = s.runqueueLock := by
    unfold contextSwitch
    split
    · exact switchTo_lock
    · exact .ok rfl
  refine hc.bind fun r hr => .ok ?_
  dsimp only
  split
  · exact cleanupLoop_lock.trans hr
  · exact hr

-- The process that the locked part of a tick chooses passes the check.
def KeepsLock (s : State) (regs : Registers) : Prop :=
  s.rq.currentSlot ≠ 0 → (preempt s.countCall regs s.rq.currentSlot).Returns fun t =>
    ∀ p ∈ pickNext t, Clears t p

instance : Decidable (KeepsLock s regs) :=
  inferInstanceAs (Decidable (_ → _))

lemma schedule_unlocked (h : s.runqueueLock = false) (hk : KeepsLock s regs) :
    (schedule s regs).Safe .deadlock fun r => r.2.runqueueLock = false := by
  unfold schedule
  dsimp only
  split
  case isTrue h0 =>
    have hp : (preempt s.countCall regs s.rq.currentSlot).Safe .deadlock fun t => t.runqueueLock = true :=
      preempt_locked h
    rcases he : preempt s.countCall regs s.rq.currentSlot with e | t
    · rw [he] at hp
      exact hp
    exact (selectNext_lock (.inr (hk h0 t he))).bind fun _ _ => resume_lock
  case isFalse =>
    exact (selectNext_lock (s := s.countCall) (.inl h)).bind fun _ ht =>
      resume_lock.mono fun _ hu => hu.trans (ht.trans h)

lemma sendMessage_lock : (sendMessage s pid msg).2.runqueueLock = s.runqueueLock := by
  unfold sendMessage
  split
  · rfl
  · split
    · rfl
    · dsimp only
      split
      · rfl
      · dsimp only
        split <;> rfl

lemma receiveMessage_lock : (receiveMessage s).2.runqueueLock = s.runqueueLock := by
  unfold receiveMessage
  dsimp only
  split <;> rfl

lemma schedule_lock (h : s.runqueueLock = false) :
    (schedule s regs).Returns fun r => r.2.runqueueLock = false := by
  unfold schedule
  dsimp only
  split
  · exact .skip fun _ => .skip fun _ => resume_lock.returns
  · refine .bind (selectNext_lock (s := s.countCall) (.inl h)).returns fun _ ht => ?_
    exact resume_lock.returns.mono fun _ hu => hu.trans (ht.trans h)

lemma exec_unlocked (h : s.runqueueLock = false) (he : exec s a = .ok t) :
    t.runqueueLock = false := by
  cases a
  case create =>
    have ⟨_, hr, ht⟩ := Except.of_map he
    exact ht ▸ (createSecureProcess_unlocked h).returns.of_eq hr
  case schedule =>
    have ⟨_, hr, ht⟩ := Except.of_map he
    exact ht ▸ (schedule_lock h).of_eq hr
  case kill => exact (terminateProcess_unlocked h).returns.of_eq he
  case killCurrent => exact (asTerminate_unlocked h).returns.of_eq he
  case killAll => exact (killAllProcesses_unlocked h).returns.of_eq he
  case wakeup p => exact (wakeupTask_unlocked h p).returns.of_eq he
  case cleanup =>
    cases he
    exact cleanupLoop_lock.trans h
  case send =>
    cases he
    exact sendMessage_lock.trans h
  case receive =>
    cases he
    exact receiveMessage_lock.trans h
  case clock =>
    cases he
    exact h

lemma Run.unlocked (hs : Run ok s) : s.runqueueLock = false := by
  induction hs
  case init => rfl
  case step ha he ih => exact exec_unlocked ih he

end EEVDF

namespace MLFQ

open EEVDF (Slot Registers)

variable {astra : Bool} {s t : State} {p : Slot} {regs : Registers}

-- The process that is running has a valid token.
def Trusted (s : State) : Prop :=
  let proc := s.processes s.currentRunning
  s.currentRunning ≠ 0 → ¬proc.state.Dead → validateToken proc.token proc.pid = true

instance : Decidable (Trusted s) :=
  inferInstanceAs (Decidable (_ → ¬_ → _))

lemma Trusted.aged (h : Trusted s) (ha : Aged s t) : Trusted t := by
  have ⟨_, _, _, hp⟩ := ha.processes s.currentRunning
  unfold Trusted
  dsimp only
  rw [ha.currentRunning, hp]
  exact h

lemma level_lockless : (State.level n).Safe .deadlock fun _ => True := by
  unfold State.level
  split
  · exact .ok trivial
  · exact .error nofun

lemma stopCurrent_lockless (h : ¬(s.processes s.currentRunning).state.Dead →
    validateToken (s.processes s.currentRunning).token (s.processes s.currentRunning).pid = true) :
    (stopCurrent s regs).Safe .deadlock fun _ => True := by
  unfold stopCurrent
  dsimp only
  split
  case isTrue => exact .ok trivial
  case isFalse hd =>
    refine level_lockless.bind fun l _ => ?_
    rw [if_neg (by simp [h hd])]
    split
    · exact .ok trivial
    · exact .ok trivial

lemma prepare_lockless (hk : s.schedulerLock = false) (h : Trusted s) :
    (prepare s regs).Safe .deadlock fun _ => True := by
  unfold prepare
  rw [lockScheduler_eq hk]
  refine age_aged.bind fun t ht => ?_
  have h : Trusted t := Trusted.aged (s := s.locked) h ht
  split
  case isTrue h0 => exact stopCurrent_lockless (h h0)
  case isFalse => exact .ok trivial

lemma selectNext_lockless (h : astra → ∀ u ∈ rounds fuel s, ∀ r ∈ candidate u, cleared r.2 r.1) :
    (selectNext astra fuel s).Safe .deadlock fun _ => True := by
  induction fuel generalizing s
  case zero => exact .error nofun
  case succ fuel ih =>
    unfold selectNext
    rcases hb : findBestQueue s with _ | b
    · exact .ok trivial
    rcases hl : State.level b with e | l
    · have he := level_lockless (n := b)
      rw [hl] at he
      simp only [hl, bind, Except.bind]
      exact he
    simp only [hl, bind, Except.bind]
    rcases hd : deQueue s l with _ | r
    · cases astra
      case false => exact ih nofun
      case true => exact .error nofun
    obtain ⟨slot, t⟩ := r
    have hc : candidate s = some (slot, t) := by
      simp [candidate, hb, hl, hd, Except.toOption]
    have hok : preflight astra t slot = .ok (true, t) :=
      preflight_of_cleared fun ha => h ha s (.head _) _ hc
    simp only [hok]
    split
    case isFalse => exact .ok trivial
    case isTrue hst =>
      have hst : (t.processes slot).state ≠ .ready := by simpa using hst
      refine ih fun ha u hu => h ha u <| List.mem_cons_of_mem _ ?_
      rw [hc]
      simpa [hst] using hu

lemma contextSwitch_lockless : (contextSwitch s regs p).Safe .deadlock fun _ => True := by
  unfold contextSwitch
  dsimp only
  split
  · exact .ok trivial
  · exact level_lockless.bind fun _ _ => .ok trivial

-- No process that a tick checks is terminated.
def KeepsLock (astra : Bool) (s : State) (regs : Registers) : Prop :=
  Trusted s ∧ (astra → (prepare s regs).Returns fun r =>
    r.1 = true → ∀ u ∈ rounds loopFuel r.2, ∀ c ∈ candidate u, cleared c.2 c.1)

instance : Decidable (KeepsLock astra s regs) :=
  inferInstanceAs (Decidable (_ ∧ (_ → _)))

lemma schedule_unlocked (h : s.schedulerLock = false) (hk : KeepsLock astra s regs) :
    (schedule astra s regs).Safe .deadlock fun r => r.2.schedulerLock = false := by
  have hp : (prepare s regs).Safe .deadlock fun _ => True := prepare_lockless h hk.1
  unfold schedule
  rcases he : prepare s regs with e | r
  · rw [he] at hp
    exact hp
  obtain ⟨select, t⟩ := r
  cases select
  case false => exact .ok rfl
  have hs := selectNext_lockless fun ha => hk.2 ha _ he rfl
  exact hs.bind fun _ _ => contextSwitch_lockless.bind fun _ _ => .ok rfl

end MLFQ

-- The lock is free between the calls of every run. A tick that finds it free does not wait for it, whatever
-- the processes and their tokens hold, if no process fails a check while the tick holds the lock; and then
-- it releases the lock.
theorem ticks_avoid_deadlock (s : EEVDF.State) (t : MLFQ.State) (astra : Bool) :
    (∀ ok, EEVDF.Run ok s → s.runqueueLock = false) ∧
    (∀ regs, s.runqueueLock = false → EEVDF.KeepsLock s regs →
      (EEVDF.schedule s regs).Safe .deadlock fun r => r.2.runqueueLock = false) ∧
    (∀ ok, MLFQ.Run astra ok t → t.schedulerLock = false) ∧
    ∀ regs, t.schedulerLock = false → MLFQ.KeepsLock astra t regs →
      (MLFQ.schedule astra t regs).Safe .deadlock fun r => r.2.schedulerLock = false :=
  ⟨fun _ => EEVDF.Run.unlocked, fun _ => EEVDF.schedule_unlocked, fun _ => MLFQ.Run.unlocked,
    fun _ => MLFQ.schedule_unlocked⟩

-- Two processes that pass every check take turns.
theorem ticks_avoid_deadlock_created :
    (∃ s, [.create 0x1000 1 0 0x8000, .create 0x2000 1 0 0x9000, .schedule {}].foldlM EEVDF.exec
      (EEVDF.schedInit 0 250) = .ok s ∧ s.rq.currentSlot ≠ 0 ∧
      (EEVDF.schedule s {}).Safe .deadlock fun r => r.2.runqueueLock = false) ∧
    ∃ s, [.create 0x1000 1 0 0x8000, .create 0x2000 1 0 0x9000, .schedule {}].foldlM (MLFQ.exec true)
      (MLFQ.schedInit 0) = .ok s ∧ s.currentRunning ≠ 0 ∧
      (MLFQ.schedule true s {}).Safe .deadlock fun r => r.2.schedulerLock = false := by
  have he : ∃ s, [.create 0x1000 1 0 0x8000, .create 0x2000 1 0 0x9000, .schedule {}].foldlM EEVDF.exec
      (EEVDF.schedInit 0 250) = .ok s ∧ s.rq.currentSlot ≠ 0 ∧ s.runqueueLock = false ∧
      EEVDF.KeepsLock s {} :=
    EEVDF.exists_exec (P := fun s : EEVDF.State => s.rq.currentSlot ≠ 0 ∧ s.runqueueLock = false ∧
      EEVDF.KeepsLock s {}) (by decide +kernel)
  have hm : ∃ s, [.create 0x1000 1 0 0x8000, .create 0x2000 1 0 0x9000, .schedule {}].foldlM
      (MLFQ.exec true) (MLFQ.schedInit 0) = .ok s ∧ s.currentRunning ≠ 0 ∧ s.schedulerLock = false ∧
      MLFQ.KeepsLock true s {} :=
    Machine.exists_exec (P := fun s : MLFQ.State => s.currentRunning ≠ 0 ∧ s.schedulerLock = false ∧
      MLFQ.KeepsLock true s {}) (by decide +kernel)
  obtain ⟨s, hs, h0, hl, hk⟩ := he
  obtain ⟨t, ht, h0', hl', hk'⟩ := hm
  have ⟨_, h₁, _, h₂⟩ := ticks_avoid_deadlock s t true
  exact ⟨⟨s, hs, h0, h₁ {} hl hk⟩, ⟨t, ht, h0', h₂ {} hl' hk'⟩⟩

-- A process of the system without the capabilities that it needs is terminated while the tick holds the
-- lock.
theorem tick_deadlocks :
    (∃ s, [.create 0x1000 1 0 0x8000, .create 0x2000 0 0 0x9000, .schedule {}].foldlM EEVDF.exec
      (EEVDF.schedInit 0 250) = .ok s ∧ EEVDF.schedule s {} = .error .deadlock) ∧
    ∃ s, [.create 0x1000 0 0 0x8000].foldlM (MLFQ.exec true) (MLFQ.schedInit 0) = .ok s ∧
      MLFQ.schedule true s {} = .error .deadlock := by
  have he : ∃ s, [.create 0x1000 1 0 0x8000, .create 0x2000 0 0 0x9000, .schedule {}].foldlM EEVDF.exec
      (EEVDF.schedInit 0 250) = .ok s ∧ ¬(EEVDF.schedule s {}).Safe .deadlock fun _ => True :=
    EEVDF.exists_exec (P := fun s : EEVDF.State => ¬(EEVDF.schedule s {}).Safe .deadlock fun _ => True)
      (by decide +kernel)
  have hm : ∃ s, [.create 0x1000 0 0 0x8000].foldlM (MLFQ.exec true) (MLFQ.schedInit 0) = .ok s ∧
      ¬(MLFQ.schedule true s {}).Safe .deadlock fun _ => True :=
    Machine.exists_exec
      (P := fun s : MLFQ.State => ¬(MLFQ.schedule true s {}).Safe .deadlock fun _ => True)
      (by decide +kernel)
  obtain ⟨s, hs, h⟩ := he
  obtain ⟨t, ht, h'⟩ := hm
  exact ⟨⟨s, hs, Except.Safe.eq_error h⟩, ⟨t, ht, Except.Safe.eq_error h'⟩⟩
