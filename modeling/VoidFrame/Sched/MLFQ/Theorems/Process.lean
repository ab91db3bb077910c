import VoidFrame.Sched.EEVDF.Theorems.Table
import VoidFrame.Sched.MLFQ.Theorems.Queue

-- What the actions of the kernel other than a tick can do.

namespace MLFQ

open EEVDF (Slot maxProcesses ProcessState TerminationReason Registers privSystem slotMask allocPid
  initialContext cleanupMaxPerCall)

variable {s t : State} {p slot : Slot} {pid : UInt32} {reason : TerminationReason} {code : UInt32}

def State.locked (s : State) : State :=
  { s with schedulerLock := true }

lemma lockScheduler_eq (h : s.schedulerLock = false) : s.lockScheduler = .ok s.locked :=
  if_neg (by simp [h])

lemma unlock_locked (h : s.schedulerLock = false) : s.locked.unlockScheduler = s := by
  cases s
  cases h
  rfl

lemma alive_of_getCurrentProcessByPID (h : s.getCurrentProcessByPID pid = some p) :
    (s.processes p).pid = pid ∧ (s.processes p).state ≠ .terminated := by
  simpa using List.find?_some h

-- The queues, the processes and their number are those of a state in which a process has been retired.
structure Retired (s t : State) (p : Slot) : Prop where
  eq : ∃ reason code quantum queue tail count pids lock,
    t = { countTerminated (removeFromScheduler (zombify s p reason code) p) with
      quantumRemaining := quantum
      terminationQueue := queue
      termQueueTail := tail
      termQueueCount := count
      pidBitmap := pids
      schedulerLock := lock }
  quantumRemaining : t.quantumRemaining ≤ s.quantumRemaining

lemma addToTerminationQueue_eq (h : addToTerminationQueue s p = .ok t) :
    t = { s with
      terminationQueue := Function.update s.terminationQueue s.termQueueTail p
      termQueueTail := s.termQueueTail + 1
      termQueueCount := s.termQueueCount + 1 } := by
  unfold addToTerminationQueue at h
  split at h
  · cases h
  · exact (Except.ok.inj h).symm

lemma retire_retired (h : retire s p reason code = .ok t) : Retired s t p := by
  obtain ⟨u, hu, ht⟩ := Except.of_bind h
  cases addToTerminationQueue_eq hu
  cases ht
  refine ⟨⟨reason, code, _, _, _, _, _, _, rfl⟩, ?_⟩
  have hq : (removeFromScheduler (zombify s p reason code) p).quantumRemaining = s.quantumRemaining :=
    requeued_removeFromScheduler.quantumRemaining
  change (dropQuantum (removeFromScheduler (zombify s p reason code) p) p).quantumRemaining ≤ _
  unfold dropQuantum
  dsimp only
  split
  · exact UInt32.zero_le
  · exact UInt32.le_of_eq hq

lemma Retired.release (h : Retired s t p) :
    Retired s { t with pidBitmap := pids }.unlockScheduler p := by
  obtain ⟨⟨reason, code, q, Q, tail, count, _, _, he⟩, hq⟩ := h
  exact ⟨⟨reason, code, q, Q, tail, count, pids, false, by rw [he]; rfl⟩, hq⟩

lemma asTerminate_cases (hk : s.schedulerLock = false) (h : asTerminate s pid = .ok t) :
    s.getCurrentProcessByPID pid = none ∧ t = s ∨
    ∃ slot, s.getCurrentProcessByPID pid = some slot ∧ Retired s.locked t slot ∧
      t.schedulerLock = false := by
  have hl : s.locked.getCurrentProcessByPID pid = s.getCurrentProcessByPID pid := rfl
  unfold asTerminate at h
  rw [lockScheduler_eq hk] at h
  simp only [bind, Except.bind, hl] at h
  rcases hp : s.getCurrentProcessByPID pid with _ | slot
  · rw [hp] at h
    exact .inl ⟨rfl, (Except.ok.inj h).symm.trans (unlock_locked hk)⟩
  rw [hp] at h
  obtain ⟨u, hu, ht⟩ := Except.of_bind h
  cases ht
  exact .inr ⟨slot, rfl, (retire_retired hu).release, rfl⟩

def living (s : State) (pid : UInt32) : Option Slot :=
  (s.getCurrentProcessByPID pid).filter fun p => !decide (s.processes p).state.Dead

lemma terminateUnchecked_cases (hk : s.schedulerLock = false)
    (h : terminateUnchecked s pid reason code = .ok t) :
    living s pid = none ∧ t = s ∨
    ∃ slot, living s pid = some slot ∧ Retired s.locked t slot ∧ t.schedulerLock = false := by
  have hl : s.locked.getCurrentProcessByPID pid = s.getCurrentProcessByPID pid := rfl
  unfold terminateUnchecked at h
  unfold living
  rw [lockScheduler_eq hk] at h
  simp only [bind, Except.bind, hl] at h
  rcases hp : s.getCurrentProcessByPID pid with _ | slot
  · rw [hp] at h
    exact .inl ⟨rfl, (Except.ok.inj h).symm.trans (unlock_locked hk)⟩
  rw [hp] at h
  dsimp only at h
  have hproc : s.locked.processes slot = s.processes slot := rfl
  rw [hproc] at h
  by_cases hd : (s.processes slot).state.Dead
  case pos =>
    rw [if_pos hd] at h
    exact .inl ⟨by simp [hd], (Except.ok.inj h).symm.trans (unlock_locked hk)⟩
  rw [if_neg hd] at h
  obtain ⟨u, hu, ht⟩ := Except.of_bind h
  cases ht
  exact .inr ⟨slot, by simp [hd], (retire_retired hu).release, rfl⟩

lemma terminateUnchecked_of_dead (hk : s.schedulerLock = false) (hl : living s pid = none)
    (h : terminateUnchecked s pid reason code = .ok t) : t = s := by
  obtain ⟨_, he⟩ | ⟨slot, hs, _⟩ := terminateUnchecked_cases hk h
  · exact he
  · rw [hl] at hs
    cases hs

def terminates (s : State) (pid : UInt32) (reason : TerminationReason) : Option Slot :=
  (living s pid).bind fun slot =>
    if reason = .security ∨ terminationAllowed s slot then some slot
    else living s (s.processes s.currentProcess).pid

lemma terminateProcess_cases (hk : s.schedulerLock = false)
    (h : terminateProcess s pid reason code = .ok t) :
    terminates s pid reason = none ∧ t = s ∨
    ∃ slot, terminates s pid reason = some slot ∧ Retired s.locked t slot ∧ t.schedulerLock = false := by
  unfold terminateProcess at h
  unfold terminates
  rcases hp : s.getCurrentProcessByPID pid with _ | slot
  · rw [hp] at h
    have hl : living s pid = none := by simp [living, hp]
    exact .inl ⟨by rw [hl]; rfl, terminateUnchecked_of_dead hk hl h⟩
  rw [hp] at h
  dsimp only at h
  by_cases hd : (s.processes slot).state.Dead
  case pos =>
    rw [if_pos (.inl hd)] at h
    have hl : living s pid = none := by simp [living, hp, hd]
    exact .inl ⟨by rw [hl]; rfl, terminateUnchecked_of_dead hk hl h⟩
  have hl : living s pid = some slot := by simp [living, hp, hd]
  by_cases ha : reason = .security ∨ terminationAllowed s slot
  case pos =>
    rw [if_pos (.inr ha)] at h
    rw [hl, Option.bind_some, if_pos ha, ← hl]
    exact terminateUnchecked_cases hk h
  rw [if_neg (by tauto), lockScheduler_eq hk] at h
  have h : terminateUnchecked s.locked.unlockScheduler _ _ _ = .ok t := h
  rw [unlock_locked hk] at h
  rw [hl, Option.bind_some, if_neg ha]
  exact terminateUnchecked_cases hk h

lemma alive_of_living (h : living s pid = some p) : (s.processes p).state ≠ .terminated :=
  (alive_of_getCurrentProcessByPID (Option.filter_eq_some_iff.mp h).1).2

lemma alive_of_terminates (h : terminates s pid reason = some p) :
    (s.processes p).state ≠ .terminated := by
  obtain ⟨slot, hs, hp⟩ := Option.bind_eq_some_iff.mp h
  split at hp
  · cases hp; exact alive_of_living hs
  · exact alive_of_living hp

-- A creation that ends with the creator.
def creationRefused (s : State) (privilege : UInt8) : Prop :=
  creationDenied s privilege ∨
    validateToken (s.processes s.currentProcess).token (s.processes s.currentProcess).pid = false

instance {privilege : UInt8} : Decidable (creationRefused s privilege) :=
  inferInstanceAs (Decidable (_ ∨ _))

section

variable {entryPoint : UInt64} {privilege : UInt8} {flags : UInt32} {stack : UInt64} {r : UInt32 × State}

lemma findFreeSlotFast_eq_some (h : findFreeSlotFast s = some (slot, u)) :
    slot ≠ 0 ∧ s.activeProcessBitmap.getLsbD slot = false ∧
      u = { s with activeProcessBitmap := s.activeProcessBitmap ||| slotMask slot } := by
  unfold findFreeSlotFast at h
  dsimp only at h
  split at h
  case isTrue => cases h
  split at h <;> cases h
  case isFalse ha => exact ⟨(EEVDF.ofNat_ctz_free ha).1, (EEVDF.ofNat_ctz_free ha).2, rfl⟩

lemma createSecureProcess_cases (hk : s.schedulerLock = false)
    (h : createSecureProcess s entryPoint privilege flags stack = .ok r) :
    creationRefused s privilege ∧ (∃ violations, asTerminate
      { s with securityViolationCount := violations } (s.processes s.currentProcess).pid = .ok r.2) ∨
    ¬creationRefused s privilege ∧ ∃ slot u pid, findFreeSlotFast s.locked = some (slot, u) ∧
      allocPid u.pidBitmap = some pid ∧
      r.2 = (addToScheduler (enroll u slot pid entryPoint privilege flags stack) slot).unlockScheduler := by
  unfold createSecureProcess at h
  rw [lockScheduler_eq hk] at h
  change (if entryPoint = 0 then _ else if creationDenied s privilege then _
    else if !validateToken (s.processes s.currentProcess).token (s.processes s.currentProcess).pid
      then _ else if maxProcesses ≤ s.processCount.toNat then _ else _) = _ at h
  rw [unlock_locked hk] at h
  split at h
  case isTrue => cases h
  split at h
  case isTrue hd =>
    obtain ⟨u, hu, hr⟩ := Except.of_bind h
    cases hr
    exact .inl ⟨.inl hd, s.securityViolationCount, hu⟩
  case isFalse hd =>
    split at h
    case isTrue hv =>
      obtain ⟨u, hu, hr⟩ := Except.of_bind h
      cases hr
      unfold securityViolationHandler at hu
      dsimp only at hu
      split at hu
      · cases hu
      · exact .inl ⟨.inr (by simpa using hv), s.securityViolationCount + 1, hu⟩
    case isFalse hv =>
      have hn : ¬creationRefused s privilege := by
        unfold creationRefused
        simp_all
      refine .inr ⟨hn, ?_⟩
      split at h
      case isTrue => cases h
      split at h
      case h_1 => cases h
      case h_2 slot u hf =>
        split at h
        case h_1 => cases h
        case h_2 pid ha =>
          split at h
          case isTrue => cases h
          cases h
          exact ⟨slot, u, pid, hf, ha, rfl⟩

end

def counted (s : State) (p : Slot) (io : UInt32) (history : Fin cpuBurstHistory → UInt32) : State :=
  s.modifyProcess p fun pcb => { pcb with ioOperations := io, cpuBurstHistory := history }

lemma countBlocked_cases (h : countBlocked s p = .ok t) :
    p = s.currentRunning ∧ (∃ l, State.level (s.processes p).priority.toNat = .ok l ∧
      t = { counted s p ((s.processes p).ioOperations + 1)
        (recordBurst ((s.queues l).quantum - s.quantumRemaining) (s.processes p)).cpuBurstHistory with
          quantumRemaining := 0 }) ∨
    p ≠ s.currentRunning ∧
      t = counted s p ((s.processes p).ioOperations + 1) (s.processes p).cpuBurstHistory := by
  unfold countBlocked at h
  dsimp only at h
  split at h
  case isTrue hc =>
    obtain ⟨l, hl, ht⟩ := Except.of_bind h
    rw [State.modifyProcess_self] at hl
    cases ht
    refine .inl ⟨hc, l, hl, ?_⟩
    simp only [counted, State.modifyProcess, State.setProcess, Function.update_self, Function.update_idem]
    rfl
  case isFalse hc =>
    cases h
    exact .inr ⟨hc, rfl⟩

lemma countBlocked_eq (h : countBlocked s p = .ok t) : ∃ io history quantum,
    io = (s.processes p).ioOperations + 1 ∧
      t = { counted s p io history with quantumRemaining := quantum } := by
  obtain ⟨_, l, _, rfl⟩ | ⟨_, rfl⟩ := countBlocked_cases h
  · exact ⟨_, _, 0, rfl, rfl⟩
  · exact ⟨_, _, s.quantumRemaining, rfl, rfl⟩

lemma counted_self : (counted s p io history).processes p =
      { s.processes p with ioOperations := io, cpuBurstHistory := history } :=
  Function.update_self ..

lemma counted_of_ne (h : q ≠ p) : (counted s p io history).processes q = s.processes q :=
  Function.update_of_ne h ..

lemma boostBlocked_frame : (boostBlocked s p).schedulerLock = s.schedulerLock ∧
    (boostBlocked s p).currentRunning = s.currentRunning ∧
    (boostBlocked s p).quantumRemaining = s.quantumRemaining := by
  have hr {t : State} (ht : Requeued s t) (f : ProcessControlBlock → ProcessControlBlock) :
      (addToScheduler (t.modifyProcess p f) p).schedulerLock = s.schedulerLock ∧
      (addToScheduler (t.modifyProcess p f) p).currentRunning = s.currentRunning ∧
      (addToScheduler (t.modifyProcess p f) p).quantumRemaining = s.quantumRemaining := by
    obtain ⟨_, he⟩ | ⟨_, hu⟩ := addToScheduler_cases (t.modifyProcess p f) p
    · rw [he]
      exact ⟨ht.schedulerLock, ht.currentRunning, ht.quantumRemaining⟩
    · exact ⟨hu.schedulerLock.trans ht.schedulerLock, hu.currentRunning.trans ht.currentRunning,
        hu.quantumRemaining.trans ht.quantumRemaining⟩
  unfold boostBlocked
  dsimp only
  split
  · exact hr requeued_removeFromScheduler _
  · exact hr (.refl s) _

lemma processBlocked_lock (h : processBlocked s p = .ok t) : t.schedulerLock = s.schedulerLock := by
  obtain ⟨u, hu, ht⟩ := Except.of_bind h
  obtain ⟨io, history, q, _, rfl⟩ := countBlocked_eq hu
  cases ht
  split
  case isFalse => rfl
  case isTrue => exact boostBlocked_frame.1

lemma removeFromTerminationQueue_eq (h : removeFromTerminationQueue s = some (p, t)) :
    ∃ head count, t = { s with termQueueHead := head, termQueueCount := count } := by
  unfold removeFromTerminationQueue at h
  split at h <;> cases h
  exact ⟨_, _, rfl⟩

lemma cleanupLoop_induction {P : State → Prop} {fuel count : Nat}
    (hq : ∀ {s head count}, P s → P { s with termQueueHead := head, termQueueCount := count })
    (hc : ∀ {s p}, (s.processes p).state = .zombie → P s → P (reclaim s p)) (h : P s) :
    P (cleanupLoop fuel count s) := by
  fun_induction cleanupLoop fuel count s
  case case1 => exact h
  case case2 => exact h
  case case3 hs _ ih =>
    obtain ⟨head, count, rfl⟩ := removeFromTerminationQueue_eq hs
    exact ih (hq h)
  case case4 hs hz ih =>
    obtain ⟨head, count, rfl⟩ := removeFromTerminationQueue_eq hs
    exact ih (hc (not_not.mp hz) (hq h))
  case case5 => exact h

lemma prepare_eq (regs : Registers) (hk : s.schedulerLock = false) (hu : age s.locked = .ok u) :
    prepare s regs = if u.currentRunning ≠ 0 then stopCurrent u regs else .ok (true, u) := by
  unfold prepare
  rw [lockScheduler_eq hk]
  change age s.locked >>= _ = _
  rw [hu]
  rfl

lemma schedInit_processes (h : p ≠ 0) : (schedInit apicTicks).processes p = {} :=
  State.setProcess_of_ne h

lemma lists_schedInit (apicTicks : UInt32) :
    Lists (schedInit apicTicks) (fun _ => []) ∧ Active (schedInit apicTicks) fun _ => [] := by
  refine ⟨⟨⟨fun _ => Linked.Holds.nil, nofun⟩, fun _ => rfl, fun n => ?_, fun {p n} h => ?_⟩, fun i => ?_⟩
  · simp [schedInit, State.setProcess, Bitmap.get]
  · by_cases h0 : p = 0
    · subst h0
      cases h
    · rw [schedInit_processes h0] at h
      cases h
  · simp [schedInit, State.setProcess]

-- The process that an action takes out of its queue.
def Action.removes (s : State) : Action → Option Slot
  | .create _ privilege _ _ =>
    if creationRefused s privilege then s.getCurrentProcessByPID (s.processes s.currentProcess).pid
    else none
  | .terminate pid reason _ => terminates s pid reason
  | .asTerminate pid => s.getCurrentProcessByPID pid
  | .blocked slot => if ioBoosted (s.processes slot) then some slot else none
  | _ => none

-- What the lists and the bits of the queues are read off.
def queueing (s : State) :=
  (s.links, s.queues, s.nodeBitmap, s.nodeSlots, s.activeBitmap, s.rtBitmap, s.processes)

def core (s : State) :=
  (queueing s, s.activeProcessBitmap, s.totalProcesses, s.currentRunning)

-- A property of the queues is kept by an action if every change that the action can make to them keeps it.
lemma exec_rule {P : State → Prop} (hk : s.schedulerLock = false) (he : exec astra s a = .ok t) (h : P s)
    (hc : ∀ {t u}, P t → core u = core t → u.quantumRemaining = t.quantumRemaining → P u)
    (hr : ∀ {p u v}, p ∈ a.removes s → (s.processes p).state ≠ .terminated →
      Retired { s with securityViolationCount := v, schedulerLock := true } u p → P u)
    (hn : ∀ {entryPoint privilege flags stack slot u pid}, a = .create entryPoint privilege flags stack →
      ¬creationRefused s privilege → findFreeSlotFast s.locked = some (slot, u) →
      allocPid u.pidBitmap = some pid →
      P (addToScheduler (enroll u slot pid entryPoint privilege flags stack) slot))
    (hs : ∀ {regs r}, a = .schedule regs → schedule astra s regs = .ok r → P r.2)
    (hb : ∀ {slot t}, a = .blocked slot → processBlocked s slot = .ok t → P t)
    (hz : ∀ {u p}, (u.processes p).state = .zombie → P u → P (reclaim u p)) : P t := by
  cases a
  case create entryPoint privilege flags stack =>
    obtain ⟨r, hr', rfl⟩ := Except.of_map he
    obtain ⟨hd, v, hv⟩ | ⟨hd, slot, u, pid, hf, hp, he⟩ := createSecureProcess_cases hk hr'
    · have hk' : ({ s with securityViolationCount := v } : State).schedulerLock = false := hk
      obtain ⟨_, ht⟩ | ⟨slot, hp, ht, _⟩ := asTerminate_cases hk' hv
      · rw [ht]
        exact hc h rfl rfl
      · exact hr (by rw [Action.removes, if_pos hd]; exact hp) (alive_of_getCurrentProcessByPID hp).2 ht
    · rw [he]
      exact hc (hn rfl hd hf hp) rfl rfl
  case schedule regs =>
    obtain ⟨r, hr', rfl⟩ := Except.of_map he
    exact hs rfl hr'
  case terminate pid reason code =>
    obtain ⟨_, rfl⟩ | ⟨slot, hp, ht, _⟩ := terminateProcess_cases hk he
    · exact h
    · exact hr hp (alive_of_terminates hp) ht
  case asTerminate pid =>
    obtain ⟨_, rfl⟩ | ⟨slot, hp, ht, _⟩ := asTerminate_cases hk he
    · exact h
    · exact hr hp (alive_of_getCurrentProcessByPID hp).2 ht
  case blocked slot => exact hb rfl he
  case cleanup =>
    unfold exec cleanupTerminatedProcess at he
    rw [lockScheduler_eq hk] at he
    cases he
    have hl : P s.locked := hc h rfl rfl
    exact hc (cleanupLoop_induction (P := P) (fun h => hc h rfl rfl) hz hl) rfl rfl
  case clock apicTicks =>
    cases he
    exact hc h rfl rfl

lemma asTerminate_unlocked (h : s.schedulerLock = false)
    (he : asTerminate s pid = .ok t) : t.schedulerLock = false := by
  obtain ⟨_, ht⟩ | ⟨_, _, _, hk⟩ := asTerminate_cases h he
  · rw [ht]
    exact h
  · exact hk

-- No call leaves the lock behind.
lemma exec_unlocked (h : s.schedulerLock = false) (he : exec astra s a = .ok t) :
    t.schedulerLock = false := by
  cases a
  case create =>
    have ⟨_, hr, ht⟩ := Except.of_map he
    subst ht
    obtain ⟨_, violations, ha⟩ | ⟨_, _, _, _, _, _, hr⟩ := createSecureProcess_cases h hr
    · exact asTerminate_unlocked (s := { s with securityViolationCount := violations }) h ha
    · rw [hr]
      rfl
  case schedule =>
    have ⟨_, hr, ht⟩ := Except.of_map he
    subst ht
    unfold schedule at hr
    obtain ⟨⟨select, u⟩, _, hr⟩ := Except.of_bind hr
    cases select
    case false => cases hr; rfl
    obtain ⟨_, _, hr⟩ := Except.of_bind hr
    obtain ⟨_, _, hr⟩ := Except.of_bind hr
    cases hr
    rfl
  case terminate =>
    obtain ⟨_, ht⟩ | ⟨_, _, _, hk⟩ := terminateProcess_cases h he
    · rw [ht]
      exact h
    · exact hk
  case asTerminate => exact asTerminate_unlocked h he
  case blocked => exact (processBlocked_lock he).trans h
  case cleanup =>
    obtain ⟨_, _, ht⟩ := Except.of_bind he
    cases ht
    rfl
  case clock =>
    cases he
    exact h

lemma Run.unlocked (hs : Run astra ok s) : s.schedulerLock = false := by
  refine hs.invariant (P := fun s => s.schedulerLock = false) ?_ fun h _ he => exec_unlocked h he
  rintro _ ⟨_, rfl⟩
  rfl

end MLFQ
