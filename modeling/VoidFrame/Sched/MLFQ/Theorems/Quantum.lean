import VoidFrame.Sched.MLFQ.Theorems.RealTime

-- The quantum of the process that is running: what it is charged for, and what happens at its end.

namespace MLFQ

open EEVDF (Slot maxProcesses ProcessState TerminationReason Registers privSystem allocPid)
open Function (update)

variable {astra : Bool} {s t u : State} {l : Level} {n : NodeId} {p q slot : Slot}

-- The loop only takes processes out of their queues, because a process that does not pass the check
-- would stop the kernel.
lemma selectNext_requeued (hk : s.schedulerLock = true)
    (h : selectNext astra fuel s = .ok r) : Requeued s r.2 := by
  induction fuel generalizing s
  case zero => cases h
  case succ fuel ih =>
    unfold selectNext at h
    rcases hb : findBestQueue s with _ | b
    · rw [hb] at h
      cases h
      exact .refl s
    rw [hb] at h
    obtain ⟨l, _, h⟩ := Except.of_bind h
    cases hd : deQueue s l
    case none =>
      rw [hd] at h
      dsimp only at h
      split at h
      · cases h
      · exact ih hk h
    case some d =>
      obtain ⟨slot, t⟩ := d
      have ht := requeued_deQueue hd
      have hkt : t.schedulerLock = true := ht.schedulerLock.trans hk
      rw [hd] at h
      obtain ⟨q, hq, h⟩ := Except.of_bind h
      cases preflight_eq hkt hq
      dsimp only at h
      split at h
      · exact ht.trans (ih hkt h)
      · cases h
        exact ht

-- Aging takes the process for one that has waited for too long.
def Lifts (s : State) (p : Slot) : Prop :=
  ((ticked s).processes p).priority ≠ (s.processes p).priority ∨
    boostInterval * 2 ≤ (ticked s).tickCounter - (ticked s).lastBoostTick ∧
      ∃ n, (ticked s).nodeSlots n = p ∧ Overdue (agingThreshold (ticked s)) (ticked s) n

instance decidableLifts : Decidable (Lifts s p) :=
  inferInstanceAs (Decidable (_ ∨ _ ∧ ∃ _, _))

-- What the promotions of other processes leave alone.
structure Kept (p : Slot) (s t : State) : Prop where
  process : t.processes p = s.processes p
  quantum : ∀ l, (t.queues l).quantum = (s.queues l).quantum
  quantumRemaining : t.quantumRemaining = s.quantumRemaining
  nodeSlots : t.nodeSlots = s.nodeSlots
  tickCounter : t.tickCounter = s.tickCounter

lemma Kept.refl (p : Slot) (s : State) : Kept p s s :=
  ⟨rfl, fun _ => rfl, rfl, rfl, rfl⟩

lemma Kept.trans (h : Kept p s t) (h' : Kept p t u) : Kept p s u :=
  ⟨h'.process.trans h.process, fun l => (h'.quantum l).trans (h.quantum l),
    h'.quantumRemaining.trans h.quantumRemaining, h'.nodeSlots.trans h.nodeSlots,
    h'.tickCounter.trans h.tickCounter⟩

-- A process that has not waited for too long has not done so after the promotion of another one.
lemma Kept.not_overdue (h : Kept p s t) (hs : ∀ n, s.nodeSlots n = p → ¬Overdue threshold s n) :
    ∀ n, t.nodeSlots n = p → ¬Overdue threshold t n := by
  intro n hn ho
  rw [h.nodeSlots] at hn
  refine hs n hn ?_
  unfold Overdue waitTime at ho ⊢
  rw [h.nodeSlots, hn, h.process, h.tickCounter] at ho
  rw [hn]
  exact ho

lemma kept_promote (h : s.nodeSlots n ≠ p) : Kept p s (promote s l n) := by
  let t := (s.setLinks l (Linked.unlink s.links (s.queues l).toEnds n)).modifyQueue l
    fun q => { q with count := q.count - 1 }
  let u := t.modifyProcess (s.nodeSlots n) fun pcb =>
    { pcb with priority := 0, lastScheduledTick := s.tickCounter.toUInt64 }
  have ht : Requeued s t := requeued_relink _ (· - 1)
  have hu := requeued_relink (s := u) (l := 0) (Linked.append u.links (u.queues 0).toEnds n) (· + 1)
  exact ⟨Function.update_of_ne h.symm .., fun k => (hu.quantum k).trans (ht.quantum k), rfl, rfl, rfl⟩

lemma agingLoop_kept (h : ∀ n, s.nodeSlots n = p → ¬Overdue threshold s n) :
    (agingLoop threshold l fuel s m).Returns (Kept p s) := by
  fun_induction agingLoop threshold l fuel s m
  case case1 s => exact .ok (.refl p s)
  case case2 => exact .error
  case case3 fuel s n next wait t ih =>
    have ht : Kept p s t := by
      unfold t
      split
      case isTrue ho => exact kept_promote fun hn => h n hn ho
      case isFalse => exact .refl p s
    exact (ih (ht.not_overdue h)).mono fun _ => ht.trans

lemma ageLevel_kept (h : ∀ n, s.nodeSlots n = p → ¬Overdue threshold s n) :
    (ageLevel threshold s l).Returns (Kept p s) := by
  refine (agingLoop_kept h).bind fun t ht => .ok ?_
  split
  · exact ht.trans ⟨rfl, fun _ => rfl, rfl, rfl, rfl⟩
  · exact ht

lemma smartAging_kept (h : ∀ n, s.nodeSlots n = p → ¬Overdue (agingThreshold s) s n) :
    (smartAging s).Returns (Kept p s) :=
  (ageLevel_kept h).bind fun _ ht => (ageLevel_kept (ht.not_overdue h)).mono fun _ => ht.trans

lemma ticked_frame : (ticked s).queues = s.queues ∧ (ticked s).quantumRemaining = s.quantumRemaining ∧
    (ticked s).nodeSlots = s.nodeSlots := by
  unfold ticked
  dsimp only
  split <;> exact ⟨rfl, rfl, rfl⟩

lemma boosted_eq (h : (boosted s p).priority = (s.processes p).priority) :
    boosted s p = s.processes p := by
  unfold boosted at h ⊢
  dsimp only at h ⊢
  split
  case isFalse => rfl
  case isTrue hw =>
    rw [if_pos hw] at h
    split
    case isTrue hc => rw [if_pos hc] at h; exact absurd hc.2 (by simp [← h])
    case isFalse hc =>
      rw [if_neg hc] at h
      split
      case isFalse => rfl
      case isTrue hr => rw [if_pos hr] at h; exact absurd hr.2 (by simp [← h])

lemma ticked_process (h : ((ticked s).processes p).priority = (s.processes p).priority) :
    (ticked s).processes p = s.processes p := by
  unfold ticked at h ⊢
  dsimp only at h ⊢
  split
  case isFalse => rfl
  case isTrue hc =>
    rw [if_pos hc] at h
    exact boosted_eq (s := { s with tickCounter := s.tickCounter + 1 }) h

lemma age_kept (h : ¬Lifts s p) (ht : age s = .ok t) : t.processes p = s.processes p ∧
    (∀ l, (t.queues l).quantum = (s.queues l).quantum) ∧ t.quantumRemaining = s.quantumRemaining := by
  rw [Lifts, not_or, not_not, not_and] at h
  have hp := ticked_process h.1
  have ⟨hq, hr, hn⟩ := ticked_frame (s := s)
  rw [age_eq] at ht
  split at ht
  case isFalse =>
    cases ht
    exact ⟨hp, fun _ => by rw [hq], hr⟩
  case isTrue hdue =>
    obtain ⟨u, hu, ht⟩ := Except.of_bind ht
    cases ht
    have hk := (smartAging_kept fun n hn ho => h.2 hdue ⟨n, hn, ho⟩).of_eq hu
    exact ⟨hk.process.trans hp, fun l => by rw [← hq]; exact hk.quantum l, hk.quantumRemaining.trans hr⟩

lemma lifts_locked : Lifts s.locked p ↔ Lifts s p := by
  unfold Lifts
  rw [ticked_locked]
  exact Iff.rfl

section

variable {regs : Registers}

lemma prepare_cases (hk : s.schedulerLock = false) (h : prepare s regs = .ok r) :
    ∃ u, age s.locked = .ok u ∧ u.schedulerLock = true ∧
      (u.currentRunning = 0 ∧ r = (true, u) ∨ u.currentRunning ≠ 0 ∧ stopCurrent u regs = .ok r) := by
  have hp := h
  unfold prepare at h
  rw [lockScheduler_eq hk] at h
  change age s.locked >>= _ = _ at h
  obtain ⟨u, hu, _⟩ := Except.of_bind h
  refine ⟨u, hu, (age_aged.returns.of_eq hu).schedulerLock, ?_⟩
  rw [prepare_eq regs hk hu] at hp
  by_cases h0 : u.currentRunning = 0
  · exact .inl ⟨h0, by rw [if_neg (not_not.mpr h0)] at hp; exact (Except.ok.inj hp).symm⟩
  · exact .inr ⟨h0, by rwa [if_pos h0] at hp⟩

lemma charged_eq : charged s regs cpuBurst =
    { s.modifyProcess s.currentRunning fun pcb => { recordBurst cpuBurst pcb with
        cpuTimeAccumulated := pcb.cpuTimeAccumulated + cpuBurst.toUInt64
        context := regs } with
      quantumRemaining := if 0 < s.quantumRemaining then s.quantumRemaining - 1 else s.quantumRemaining } := by
  unfold charged saveContext accountBurst
  simp only [State.modifyProcess, State.setProcess, Function.update_self, Function.update_idem]
  split <;> rfl

-- A context switch resumes a process that has been selected.
structure Switched (s t : State) : Prop where
  process : ∀ p, t.processes p = { s.processes p with
    state := (t.processes p).state
    lastScheduledTick := (t.processes p).lastScheduledTick }
  queues : t.queues = s.queues

lemma contextSwitch_switched (h : contextSwitch s regs next = .ok r) : Switched s r.2 := by
  unfold contextSwitch at h
  dsimp only at h
  split at h
  case isTrue =>
    cases h
    exact ⟨fun _ => rfl, rfl⟩
  obtain ⟨l, _, h⟩ := Except.of_bind h
  cases h
  refine ⟨fun p => ?_, rfl⟩
  by_cases hp : p = next
  · simp [resume, hp]
  · simp only [resume, State.modifyProcess_of_ne hp]

lemma stopCurrent_lock (hk : s.schedulerLock = true)
    (h : stopCurrent s regs = .ok r) : r.2.schedulerLock = true := by
  obtain ⟨_, rfl⟩ | ⟨_, _, _, _, _, _, _, ⟨_, rfl⟩ | ⟨_, rfl⟩⟩ := stopCurrent_cases hk h
  · exact hk
  · rw [charged_eq]
    exact hk
  · refine addToScheduler_lock.trans ?_
    rw [charged_eq]
    exact hk

-- The two ways in which a tick ends.
lemma schedule_cases (hk : s.schedulerLock = false) (h : schedule astra s regs = .ok r) : ∃ u,
      prepare s regs = .ok (false, u) ∧ r.2 = u.unlockScheduler ∨
      prepare s regs = .ok (true, u) ∧ ∃ v w, Requeued u v ∧ Switched v w ∧ r.2 = w.unlockScheduler := by
  obtain ⟨⟨select, u⟩, hu, h⟩ := Except.of_bind h
  refine ⟨u, ?_⟩
  cases select
  case false =>
    cases h
    exact .inl ⟨hu, rfl⟩
  have hku : u.schedulerLock = true := by
    obtain ⟨v, _, hkv, ⟨_, he⟩ | ⟨_, hs⟩⟩ := prepare_cases hk hu
    · cases he
      exact hkv
    · exact stopCurrent_lock hkv hs
  obtain ⟨⟨next, v⟩, hv, h⟩ := Except.of_bind h
  obtain ⟨⟨regs', w⟩, hw, h⟩ := Except.of_bind h
  cases h
  exact .inr ⟨hu, v, w, selectNext_requeued hku hv, contextSwitch_switched hw, rfl⟩

end

section

def bursts (pcb : ProcessControlBlock) : (Fin cpuBurstHistory → UInt32) × UInt64 :=
  (pcb.cpuBurstHistory, pcb.cpuTimeAccumulated)

-- At most one burst is recorded for a process, and it is one that `P` admits.
def Records (P : UInt32 → Prop) (s t : State) (p : Slot) : Prop :=
  bursts (t.processes p) = bursts (s.processes p) ∨
    ∃ burst, P burst ∧ (t.processes p).cpuBurstHistory =
      (recordBurst burst (s.processes p)).cpuBurstHistory ∧
      ((t.processes p).cpuTimeAccumulated = (s.processes p).cpuTimeAccumulated ∨
        (t.processes p).cpuTimeAccumulated = (s.processes p).cpuTimeAccumulated + burst.toUInt64)

variable {P : UInt32 → Prop}

lemma Records.congr (h : Records P s t p) (he : bursts (u.processes p) = bursts (t.processes p)) :
    Records P s u p := by
  have ⟨hh, ht⟩ := Prod.mk.inj he
  refine h.imp he.trans ?_
  rintro ⟨burst, hb, h1, h2⟩
  exact ⟨burst, hb, hh.trans h1, by rwa [ht]⟩

lemma Records.mono (h : Records P s t p) (hq : ∀ burst, P burst → Q burst) : Records Q s t p := by
  refine h.imp_right ?_
  rintro ⟨burst, hb, hr⟩
  exact ⟨burst, hq burst hb, hr⟩

lemma Requeued.bursts (h : Requeued s t) (p : Slot) :
    bursts (t.processes p) = bursts (s.processes p) := by
  rw [h.process p]
  rfl

lemma bursts_modifyProcess (hf : ∀ pcb, bursts (f pcb) = bursts pcb) (q : Slot) :
    bursts ((s.modifyProcess p f).processes q) = bursts (s.processes q) := by
  by_cases h : q = p
  · rw [h, State.modifyProcess_self, hf]
  · rw [State.modifyProcess_of_ne h]

lemma addToScheduler_bursts (q : Slot) :
    bursts ((addToScheduler s p).processes q) = bursts (s.processes q) := by
  obtain ⟨_, he⟩ | ⟨_, h⟩ := addToScheduler_cases s p
  · rw [he]
  · rw [h.bursts q]
    exact bursts_modifyProcess (by exact fun _ => rfl) q

lemma boostBlocked_bursts (q : Slot) :
    bursts ((boostBlocked s p).processes q) = bursts (s.processes q) := by
  have hb {t : State} (ht : Requeued s t) :
      bursts ((addToScheduler (t.modifyProcess p fun pcb =>
        { pcb with priority := UInt8.ofNat rtPriorityThreshold }) p).processes q) =
      bursts (s.processes q) := by
    rw [addToScheduler_bursts, ← ht.bursts q]
    exact bursts_modifyProcess (by exact fun _ => rfl) q
  unfold boostBlocked
  dsimp only
  split
  · exact hb requeued_removeFromScheduler
  · exact hb (.refl s)

-- The burst of the process that is running, measured by the quantum of its queue.
def Measured (s : State) (p : Slot) (burst : UInt32) : Prop :=
  p = s.currentRunning ∧ ∃ l, State.level (s.processes p).priority.toNat = .ok l ∧
    burst = (s.queues l).quantum - s.quantumRemaining

def Charges (s : State) : Prop :=
  s.currentRunning ≠ 0 ∧ ¬(s.processes s.currentRunning).state.Dead

lemma Aged.charges (h : Aged s.locked u) (h0 : u.currentRunning ≠ 0)
    (hd : ¬(u.processes u.currentRunning).state.Dead) : Charges s := by
  have hcur : u.currentRunning = s.currentRunning := h.currentRunning
  have ⟨_, _, _, hp⟩ := h.processes s.currentRunning
  rw [hcur, hp] at hd
  exact ⟨hcur ▸ h0, hd⟩

lemma charged_records (h : p = s.currentRunning → P burst) :
    Records P s (charged s regs burst) p := by
  rw [charged_eq]
  by_cases hp : p = s.currentRunning
  case pos =>
    refine .inr ⟨burst, h hp, ?_⟩
    subst hp
    simp [recordBurst]
  refine .inl ?_
  dsimp only
  rw [State.modifyProcess_of_ne hp]

lemma stopCurrent_records (hk : s.schedulerLock = true)
    (h : stopCurrent s regs = .ok r) (p : Slot) : Records (Measured s p) s r.2 p := by
  obtain ⟨_, rfl⟩ | ⟨_, l, hl, quantum, cpuBurst, rfl, rfl, hr⟩ := stopCurrent_cases hk h
  · exact .inl rfl
  · have hc : Records (Measured s p) s (charged s regs ((s.queues l).quantum - s.quantumRemaining)) p :=
      charged_records fun hp => ⟨hp, l, hp ▸ hl, rfl⟩
    obtain ⟨_, rfl⟩ | ⟨_, rfl⟩ := hr
    · exact hc
    · refine hc.congr ?_
      rw [addToScheduler_bursts]
      exact bursts_modifyProcess (by exact fun _ => rfl) p

lemma prepare_records (hk : s.schedulerLock = false)
    (hl : Charges s → ¬Lifts s s.currentRunning) (h : prepare s regs = .ok r) (p : Slot) :
    Records (fun burst => Charges s ∧ Measured s p burst) s r.2 p := by
  obtain ⟨u, hu, hku, hr⟩ := prepare_cases hk h
  have ha := age_aged.returns.of_eq hu
  have hcur : u.currentRunning = s.currentRunning := ha.currentRunning
  have hb : bursts (u.processes p) = bursts (s.processes p) := by
    have ⟨_, _, _, hp⟩ := ha.processes p
    rw [hp]
    rfl
  obtain ⟨_, rfl⟩ | ⟨h0, hs⟩ := hr
  · exact .inl hb
  · obtain ⟨_, rfl⟩ | ⟨hd, _⟩ := stopCurrent_cases hku hs
    · exact .inl hb
    · -- the burst is measured in the state after aging
      have hc := ha.charges h0 hd
      have ⟨hpcb, hq, hrem⟩ := age_kept (lifts_locked.not.mpr (hl hc)) hu
      have hm {burst : UInt32} (h : Measured u p burst) : Measured s p burst := by
        obtain ⟨rfl, l, hl, rfl⟩ := h
        rw [hcur, hpcb] at hl
        exact ⟨hcur, l, by rw [hcur]; exact hl, by rw [hq, hrem]; rfl⟩
      obtain h | ⟨burst, h, hh, ht⟩ := stopCurrent_records hku hs p
      · exact .inl (h.trans hb)
      · have ⟨hb1, hb2⟩ := Prod.mk.inj hb
        refine .inr ⟨burst, ⟨hc, hm h⟩, ?_, by rwa [hb2] at ht⟩
        rw [hh]
        unfold recordBurst
        dsimp only
        rw [hb1]

lemma schedule_records (hk : s.schedulerLock = false)
    (hl : Charges s → ¬Lifts s s.currentRunning) (h : schedule astra s regs = .ok r) (p : Slot) :
    Records (fun burst => Charges s ∧ Measured s p burst) s r.2 p := by
  obtain ⟨u, ⟨hu, he⟩ | ⟨hu, v, w, hv, hw, he⟩⟩ := schedule_cases hk h
  · rw [he]
    exact (prepare_records hk hl hu p).congr rfl
  · rw [he]
    refine (prepare_records hk hl hu p).congr ?_
    rw [← hv.bursts p]
    change bursts (w.processes p) = _
    rw [hw.process p]
    rfl

lemma processBlocked_records (h : processBlocked s slot = .ok t) (p : Slot) :
    Records (fun burst => p = slot ∧ Measured s p burst) s t p := by
  obtain ⟨u, hu, ht⟩ := Except.of_bind h
  have hr : Records (fun burst => p = slot ∧ Measured s p burst) s u p := by
    by_cases hp : p = slot
    case neg =>
      obtain ⟨_, l, hl, rfl⟩ | ⟨_, rfl⟩ := countBlocked_cases hu
      · exact .inl (by dsimp only; rw [counted_of_ne hp])
      · exact .inl (by rw [counted_of_ne hp])
    subst hp
    obtain ⟨hc, l, hl, rfl⟩ | ⟨_, rfl⟩ := countBlocked_cases hu
    · refine .inr ⟨_, ⟨rfl, hc, l, hl, rfl⟩, ?_, .inl ?_⟩
      · dsimp only
        rw [counted_self]
      · dsimp only
        rw [counted_self]
    · exact .inl (by rw [counted_self]; rfl)
  cases ht
  split
  · exact hr.congr (boostBlocked_bursts p)
  · exact hr

end

section

-- The kernel together with the quantum that the process of a slot was granted when it was switched in.
structure Metered where
  kernel : State
  granted : Slot → UInt32

def Action.switches (s : State) : Action → Bool
  | .schedule regs => (prepare s regs).toOption.any (·.1)
  | _ => false

def Metered.exec (astra : Bool) (m : Metered) (a : Action) : Except Fault Metered := do
  let t ← MLFQ.exec astra m.kernel a
  return {
    kernel := t
    granted := if a.switches m.kernel then update m.granted t.currentRunning t.quantumRemaining
      else m.granted }

abbrev Metered.Run (astra : Bool) (ok : Metered → Action → Prop) : Metered → Prop :=
  Machine.Run (fun m => ∃ apicTicks, m = ⟨schedInit apicTicks, fun _ => 0⟩) (Metered.exec astra) ok

-- The process that is running has been switched in, with the quantum of the queue that it belongs to now.
def Metered.Granted (m : Metered) : Prop :=
  (m.kernel.processes m.kernel.currentRunning).state = .running ∧
    ∀ l ∈ (State.level (m.kernel.processes m.kernel.currentRunning).priority.toNat).toOption,
      m.granted m.kernel.currentRunning = (m.kernel.queues l).quantum

-- The process that is running is charged by the quantum that it was granted.
def Metered.Fair (m : Metered) : Action → Prop
  | .schedule _ => Charges m.kernel → m.Granted ∧ ¬Lifts m.kernel m.kernel.currentRunning
  | .blocked slot => slot = m.kernel.currentRunning → m.Granted
  | _ => True

variable {m : Metered}

-- The rest of the quantum is a part of what was granted.
structure Metered.Sound (m : Metered) : Prop where
  unlocked : m.kernel.schedulerLock = false
  remaining : m.kernel.quantumRemaining ≤ m.granted m.kernel.currentRunning

-- Only a tick switches to another process or grants a quantum.
structure Spends (s t : State) : Prop where
  currentRunning : t.currentRunning = s.currentRunning
  quantumRemaining : t.quantumRemaining ≤ s.quantumRemaining

lemma Retired.spends (h : Retired s t p) : Spends s t := by
  refine ⟨?_, h.quantumRemaining⟩
  obtain ⟨reason, code, _, _, _, _, _, _, rfl⟩ := h.eq
  exact requeued_removeFromScheduler.currentRunning

lemma reclaim_spends : Spends s (reclaim s p) := by
  unfold reclaim freeSlotFast
  dsimp only
  split <;> exact ⟨rfl, UInt32.le_refl _⟩

lemma processBlocked_spends (h : processBlocked s p = .ok t) : Spends s t := by
  obtain ⟨u, hu, ht⟩ := Except.of_bind h
  have hs : Spends s u := by
    obtain ⟨_, l, _, rfl⟩ | ⟨_, rfl⟩ := countBlocked_cases hu
    · exact ⟨rfl, UInt32.zero_le⟩
    · exact ⟨rfl, UInt32.le_refl _⟩
  cases ht
  split
  · have ⟨_, hc, hq⟩ := boostBlocked_frame (s := u) (p := p)
    exact ⟨hc.trans hs.currentRunning, hq ▸ hs.quantumRemaining⟩
  · exact hs

lemma addToScheduler_spends : Spends s (addToScheduler s p) := by
  obtain ⟨_, he⟩ | ⟨_, h⟩ := addToScheduler_cases s p
  · rw [he]
    exact ⟨rfl, UInt32.le_refl _⟩
  · exact ⟨h.currentRunning, UInt32.le_of_eq h.quantumRemaining⟩

lemma exec_spends (hk : s.schedulerLock = false) (ha : ∀ regs, a ≠ .schedule regs)
    (h : exec astra s a = .ok t) : Spends s t := by
  refine exec_rule (P := Spends s) hk h ⟨rfl, UInt32.le_refl _⟩ ?frame
    (fun _ _ hr => ⟨hr.spends.currentRunning, hr.spends.quantumRemaining⟩) ?create
    (fun he _ => absurd he (ha _)) (fun _ hb => processBlocked_spends hb) ?reclaim
  case frame =>
    intro t u h hc hq
    exact ⟨(congrArg (fun c => c.2.2.2) hc).trans h.currentRunning, hq ▸ h.quantumRemaining⟩
  case create =>
    intro entryPoint privilege flags stack slot u pid _ _ hf _
    obtain ⟨_, _, rfl⟩ := findFreeSlotFast_eq_some hf
    have hs := addToScheduler_spends (p := slot) (s := enroll
      { s.locked with activeProcessBitmap := s.activeProcessBitmap ||| EEVDF.slotMask slot } slot pid
      entryPoint privilege flags stack)
    exact ⟨hs.currentRunning, hs.quantumRemaining⟩
  case reclaim =>
    intro u p _ h
    exact ⟨reclaim_spends.1.trans h.1, UInt32.le_trans reclaim_spends.2 h.2⟩

lemma prepare_spends (hk : s.schedulerLock = false)
    (hl : Charges s → ¬Lifts s s.currentRunning) (h : prepare s regs = .ok (false, t)) : Spends s t := by
  obtain ⟨u, hu, hku, ⟨_, he⟩ | ⟨h0, hs⟩⟩ := prepare_cases hk h
  · cases he
  · have ha : Aged s.locked u := age_aged.returns.of_eq hu
    obtain ⟨_, he⟩ | ⟨hd, l, _, quantum, cpuBurst, _, _, ⟨_, he⟩ | ⟨_, he⟩⟩ := stopCurrent_cases hku hs
    · cases he
    · cases he
      have ⟨_, _, hrem⟩ := age_kept (lifts_locked.not.mpr (hl (ha.charges h0 hd))) hu
      rw [charged_eq]
      refine ⟨ha.currentRunning, ?_⟩
      dsimp only
      rw [hrem]
      change (if 0 < s.quantumRemaining then s.quantumRemaining - 1 else s.quantumRemaining) ≤ _
      split
      case isTrue hpos =>
        have hle : 1 ≤ s.quantumRemaining :=
          UInt32.le_iff_toNat_le.mpr (UInt32.lt_iff_toNat_lt.mp hpos)
        rw [UInt32.le_iff_toNat_le, UInt32.toNat_sub_of_le _ _ hle]
        exact Nat.sub_le ..
      case isFalse => exact UInt32.le_refl _
    · cases he

lemma Metered.Fair.not_lifts (h : m.Fair (.schedule regs)) :
    Charges m.kernel → ¬Lifts m.kernel m.kernel.currentRunning :=
  fun hc => (h hc).2

lemma Metered.Sound.exec (h : m.Sound) (ha : m.Fair a)
    (hm : m.exec astra a = .ok m') : m'.Sound := by
  obtain ⟨t, ht, hm⟩ := Except.of_bind hm
  cases hm
  have hk : t.schedulerLock = false := exec_unlocked h.unlocked ht
  have hother (hs : Spends m.kernel t) : Metered.Sound
      ⟨t, if a.switches m.kernel then update m.granted t.currentRunning t.quantumRemaining
        else m.granted⟩ := by
    refine ⟨hk, ?_⟩
    dsimp only
    split
    · rw [Function.update_self]
      exact UInt32.le_refl _
    · rw [hs.currentRunning]
      exact UInt32.le_trans hs.quantumRemaining h.remaining
  by_cases hn : ∀ regs, a ≠ .schedule regs
  case pos => exact hother (exec_spends h.unlocked hn ht)
  simp only [ne_eq, not_forall, not_not] at hn
  obtain ⟨regs, rfl⟩ := hn
  obtain ⟨r, hr, rfl⟩ := Except.of_map ht
  obtain ⟨u, ⟨hu, he⟩ | ⟨hu, v, w, _, _, he⟩⟩ := schedule_cases h.unlocked hr
  · have hs := prepare_spends h.unlocked ha.not_lifts hu
    refine hother ?_
    rw [he]
    exact ⟨hs.currentRunning, hs.quantumRemaining⟩
  · have hsw : (Action.schedule regs).switches m.kernel = true := by
      change (prepare m.kernel regs).toOption.any _ = true
      rw [hu]
      rfl
    refine ⟨hk, ?_⟩
    rw [if_pos hsw]
    dsimp only
    rw [Function.update_self]
    exact UInt32.le_refl _

lemma Metered.Run.sound (h : Metered.Run astra Metered.Fair m) : m.Sound := by
  refine h.invariant (P := Metered.Sound) ?_ fun hs ha he => hs.exec ha he
  rintro _ ⟨apicTicks, rfl⟩
  exact ⟨rfl, UInt32.le_refl _⟩

instance decidableGranted : Decidable m.Granted :=
  inferInstanceAs (Decidable (_ ∧ ∀ _ ∈ _, _))

instance decidableCharges : Decidable (Charges s) :=
  inferInstanceAs (Decidable (_ ∧ _))

instance decidableFair : ∀ a : Action, Decidable (m.Fair a)
  | .schedule _ => inferInstanceAs (Decidable (_ → _ ∧ _))
  | .blocked _ => inferInstanceAs (Decidable (_ → _))
  | .create .. | .terminate .. | .asTerminate _ | .cleanup | .clock _ => isTrue trivial

def Action.records : Action → Prop
  | .schedule _ => True
  | .blocked _ => True
  | _ => False

-- A burst is the part of the quantum that is gone, and not more than what was granted.
def Metered.Used (m : Metered) (p : Slot) (burst : UInt32) : Prop :=
  burst ≤ m.granted p ∧ ∃ l, State.level (m.kernel.processes p).priority.toNat = .ok l ∧
    burst.toNat + m.kernel.quantumRemaining.toNat = (m.kernel.queues l).quantum.toNat

lemma Metered.Sound.used (h : m.Sound) (hg : m.Granted)
    (hb : Measured m.kernel p burst) : m.Used p burst := by
  obtain ⟨rfl, l, hl, rfl⟩ := hb
  have hq := hg.2 l (by rw [hl]; rfl)
  have hle : m.kernel.quantumRemaining ≤ (m.kernel.queues l).quantum := hq ▸ h.remaining
  have hnat := UInt32.le_iff_toNat_le.mp hle
  have hsub := UInt32.toNat_sub_of_le _ _ hle
  refine ⟨?_, l, hl, by omega⟩
  rw [UInt32.le_iff_toNat_le, hq, hsub]
  exact Nat.sub_le ..

-- Every burst that is recorded is within the quantum that was granted.
theorem Metered.Run.burst_bounded {a : Action} (h : Metered.Run astra Metered.Fair m) (ha : m.Fair a)
    (hr : a.records) (ht : MLFQ.exec astra m.kernel a = .ok t) (p : Slot) :
    Records (m.Used p) m.kernel t p := by
  have hs := h.sound
  cases a
  case schedule regs =>
    obtain ⟨r, hr, rfl⟩ := Except.of_map ht
    refine (schedule_records hs.unlocked ha.not_lifts hr p).mono ?_
    rintro burst ⟨hc, hb⟩
    exact hs.used (ha hc).1 hb
  case blocked slot =>
    refine (processBlocked_records ht p).mono ?_
    rintro burst ⟨rfl, hb⟩
    exact hs.used (ha hb.1) hb
  case create => exact hr.elim
  case terminate => exact hr.elim
  case asTerminate => exact hr.elim
  case cleanup => exact hr.elim
  case clock => exact hr.elim

-- A process is in the middle of its quantum, and the next tick records half of it.
theorem Metered.Run.burst_bounded_tick : ∃ m t, Metered.Run true Metered.Fair m ∧
    m.kernel.currentRunning = 1 ∧ MLFQ.exec true m.kernel (.schedule {}) = .ok t ∧
    (t.processes 1).cpuBurstHistory 0 = 1 ∧ Records (m.Used 1) m.kernel t 1 := by
  obtain ⟨m, hm, hc, hf, ht⟩ := (Machine.Run.init ⟨0, rfl⟩ : Metered.Run true Metered.Fair _).exists_of_all
    (l := [.create 0x1000 1 0 0x8000, .schedule {}, .schedule {}])
    (P := fun m => m.kernel.currentRunning = 1 ∧ m.Fair (.schedule {}) ∧
      (MLFQ.exec true m.kernel (.schedule {})).toOption.any
        fun t => (t.processes 1).cpuBurstHistory 0 = 1)
    (by decide +kernel)
  cases he : MLFQ.exec true m.kernel (.schedule {})
  case error e => simp [he, Except.toOption] at ht
  case ok t =>
    have ht : (t.processes 1).cpuBurstHistory 0 = 1 := by simpa [he, Except.toOption] using ht
    exact ⟨m, t, hm, hc, he, ht, Metered.Run.burst_bounded hm hf trivial he 1⟩

-- A process that waits often gets a quantum of `24` ticks in a queue whose quantum is `16`. After the
-- first tick its burst is `-8`.
theorem burst_wraps : ∃ m : Metered, [.create 0x1000 1 0 0x8000, .schedule {}, .blocked 1, .blocked 1,
      .blocked 1, .schedule {}, .schedule {}].foldlM (Metered.exec true) ⟨schedInit 0, fun _ => 0⟩ = .ok m ∧
    m.kernel.currentRunning = 1 ∧ m.granted 1 = 24 ∧
    (m.kernel.processes 1).cpuBurstHistory 0 = 4294967288 ∧
    (m.kernel.processes 1).cpuTimeAccumulated = 4294967290 :=
  Machine.exists_exec (P := fun m : Metered => m.kernel.currentRunning = 1 ∧ m.granted 1 = 24 ∧
    (m.kernel.processes 1).cpuBurstHistory 0 = 4294967288 ∧
    (m.kernel.processes 1).cpuTimeAccumulated = 4294967290) (by decide +kernel)

end

def demotion (priority : Nat) : Nat :=
  min (priority + 1) (maxPriorityLevels - 1)

-- A process of a user is running, and this tick is the last one of its quantum.
structure Expires (s : State) : Prop where
  charges : Charges s
  user : (s.processes s.currentRunning).privilegeLevel ≠ privSystem
  quantum : s.quantumRemaining ≤ 1

instance decidableExpires : Decidable (Expires s) :=
  decidable_of_iff (Charges s ∧ (s.processes s.currentRunning).privilegeLevel ≠ privSystem ∧
      s.quantumRemaining ≤ 1)
    ⟨fun h => ⟨h.1, h.2.1, h.2.2⟩, fun h => ⟨h.1, h.2, h.3⟩⟩

-- A process whose quantum expires belongs to the queue below by what is recorded about it, and a node is
-- left for it.
def Demotes (s : State) : Action → Prop
  | .schedule _ => Expires s → Spare s ∧ ¬Lifts s s.currentRunning ∧
    ∀ l ∈ (State.level (s.processes s.currentRunning).priority.toNat).toOption,
      (classifyProcess (recordBurst ((s.queues l).quantum - s.quantumRemaining)
        (s.processes s.currentRunning))).val = demotion (s.processes s.currentRunning).priority.toNat
  | _ => True

instance decidableDemotes : ∀ a : Action, Decidable (Demotes s a)
  | .schedule _ => inferInstanceAs (Decidable (_ → _ ∧ _ ∧ ∀ _ ∈ _, _))
  | .create .. | .terminate .. | .asTerminate _ | .blocked _ | .cleanup | .clock _ => isTrue trivial

-- The priority depends on the privileges of a process, on what it waited for, and on its bursts.
lemma classifyProcess_congr
    (hp : pcb'.privilegeLevel = pcb.privilegeLevel) (ht : pcb'.token = pcb.token)
    (hio : pcb'.ioOperations = pcb.ioOperations) (hh : pcb'.cpuBurstHistory = pcb.cpuBurstHistory) :
    classifyProcess pcb' = classifyProcess pcb := by
  unfold classifyProcess averageBurst
  rw [hp, ht, hio, hh]

lemma charged_quantum (h : s.quantumRemaining ≤ 1) :
    (charged s regs burst).quantumRemaining = 0 := by
  have h := UInt32.le_iff_toNat_le.mp h
  rw [charged_eq]
  dsimp only
  split
  case isTrue hpos =>
    have hpos := UInt32.lt_iff_toNat_lt.mp hpos
    have he : s.quantumRemaining = 1 := UInt32.toNat_inj.mp (Nat.le_antisymm h hpos)
    rw [he]
    rfl
  case isFalse hpos =>
    rw [UInt32.lt_iff_toNat_lt, Nat.not_lt] at hpos
    exact UInt32.toNat_inj.mp (Nat.le_zero.mp hpos)

lemma shouldPreempt_of_eq_zero (h : s.quantumRemaining = 0) :
    shouldPreempt s priority = true := by
  unfold shouldPreempt
  simp [h]

lemma preempted_process
    (h : pcb = (preempt (charged s regs burst) s.currentRunning quantum burst).processes s.currentRunning) :
    pcb.state = .ready ∧
      classifyProcess pcb = classifyProcess (recordBurst burst (s.processes s.currentRunning)) := by
  unfold preempt at h
  rw [State.modifyProcess_self, charged_eq] at h
  dsimp only at h
  rw [State.modifyProcess_self] at h
  subst h
  exact ⟨rfl, classifyProcess_congr rfl rfl rfl rfl⟩

lemma toNat_level : ∀ l : Level, (UInt8.ofNat l).toNat = l.val := by
  decide

lemma added_priority : ((added s p n).processes p).priority =
    UInt8.ofNat (classifyProcess (s.processes p)) := by
  simp [added, activate, enqueued, classified, State.setSchedulerNode]

lemma added_queue : ((added s p n).queues (classifyProcess (s.processes p))).tail = some n ∧
    (added s p n).nodeSlots n = p := by
  simp [added, activate, enqueued, classified, State.modifyProcess, State.setProcess, Linked.append]

-- A process whose quantum has expired waits at the end of the queue below.
structure Demoted (s t : State) : Prop where
  priority : (t.processes s.currentRunning).priority.toNat =
    demotion (s.processes s.currentRunning).priority.toNat
  queue : ∃ (l : Level) (n : NodeId), l.val = demotion (s.processes s.currentRunning).priority.toNat ∧
    (t.queues l).tail = some n ∧ t.nodeSlots n = s.currentRunning

lemma Expires.prepare (h : Expires s)
    (hk : s.schedulerLock = false) (hd : Demotes s (.schedule regs)) (hr : prepare s regs = .ok r) :
    r.1 = true ∧ Demoted s r.2 := by
  obtain ⟨⟨n0, hn0⟩, hl, hclass⟩ := hd h
  obtain ⟨u, hu, hku, hr⟩ := prepare_cases hk hr
  have ha : Aged s.locked u := age_aged.returns.of_eq hu
  have hcur : u.currentRunning = s.currentRunning := ha.currentRunning
  have ⟨hpcb, hq, hrem⟩ := age_kept (lifts_locked.not.mpr hl) hu
  have hpcb : u.processes u.currentRunning = s.processes s.currentRunning := by rw [hcur]; exact hpcb
  obtain ⟨h0, _⟩ | ⟨h0, hs⟩ := hr
  · exact absurd (hcur ▸ h0) h.charges.1
  · obtain ⟨hdead, _⟩ | ⟨_, l, hlev, quantum, burst, rfl, rfl, ⟨hp, _⟩ | ⟨_, rfl⟩⟩ :=
      stopCurrent_cases hku hs
    · exact absurd (hpcb ▸ hdead) h.charges.2
    · rw [shouldPreempt_of_eq_zero (charged_quantum (by rw [hrem]; exact h.quantum))] at hp
      cases hp
    · obtain ⟨v, hv⟩ : ∃ v, v = preempt (charged u regs ((u.queues l).quantum - u.quantumRemaining))
        u.currentRunning (u.queues l).quantum ((u.queues l).quantum - u.quantumRemaining) := ⟨_, rfl⟩
      rw [← hv]
      have ⟨hready, hc⟩ := preempted_process (congrArg (·.processes u.currentRunning) hv)
      have hc : (classifyProcess (v.processes u.currentRunning)).val =
          demotion (s.processes s.currentRunning).priority.toNat := by
        rw [hc, hpcb, hq, hrem]
        refine hclass l ?_
        rw [hpcb] at hlev
        rw [hlev]
        rfl
      have hspare : Spare v := by
        refine ⟨n0, ?_⟩
        rw [hv, (preempt_frame rfl).2.1, ha.nodeBitmap]
        exact hn0
      obtain ⟨hno, _⟩ | ⟨_, _, n, _, he⟩ := hspare.addToScheduler_cases u.currentRunning
      · exact (hno.elim h0 (· hready)).elim
      · refine ⟨rfl, ?_⟩
        dsimp only
        rw [he]
        refine ⟨?_, _, n, hc, added_queue.1, added_queue.2.trans hcur⟩
        calc ((added v u.currentRunning n).processes s.currentRunning).priority.toNat
          _ = ((added v u.currentRunning n).processes u.currentRunning).priority.toNat := by rw [hcur]
          _ = (classifyProcess (v.processes u.currentRunning)).val := by rw [added_priority, toNat_level]
          _ = demotion (s.processes s.currentRunning).priority.toNat := hc

-- The priority of a process whose quantum does not expire changes only if it is boosted because it has
-- waited or because it is blocked, or if it is preempted before its quantum is used up. The slot stays
-- with the process.
def Action.passes (s : State) (p : Slot) : Action → Prop
  | .create .. => s.activeProcessBitmap.getLsbD p = true
  | .schedule regs => ¬Lifts s p ∧
    (s.currentRunning = p → ∀ r ∈ (prepare s regs).toOption, r.1 = false)
  | .blocked slot => slot = p → ioBoosted (s.processes p) = false
  | .cleanup => (s.processes p).state ≠ .zombie
  | _ => True

lemma Requeued.priority (h : Requeued s t) (p : Slot) :
    (t.processes p).priority = (s.processes p).priority := by
  rw [h.process p]

lemma Retired.priority (h : Retired s t q) (p : Slot) :
    (t.processes p).priority = (s.processes p).priority := by
  obtain ⟨reason, code, _, _, _, _, _, _, rfl⟩ := h.eq
  refine (requeued_removeFromScheduler.priority p).trans ?_
  by_cases hp : p = q
  · rw [hp, zombify, State.modifyProcess_self]
  · rw [zombify, State.modifyProcess_of_ne hp]

lemma asTerminate_priority (hk : s.schedulerLock = false)
    (h : asTerminate s pid = .ok t) (p : Slot) : (t.processes p).priority = (s.processes p).priority := by
  obtain ⟨_, rfl⟩ | ⟨slot, _, hr, _⟩ := asTerminate_cases hk h
  · rfl
  · exact hr.priority p

lemma addToScheduler_priority (h : p ≠ q) :
    ((addToScheduler s q).processes p).priority = (s.processes p).priority := by
  obtain ⟨_, he⟩ | ⟨_, hr⟩ := addToScheduler_cases s q
  · rw [he]
  · rw [hr.priority p, classified, State.modifyProcess_of_ne h]

lemma processBlocked_priority (h : processBlocked s slot = .ok t)
    (hp : slot = p → ioBoosted (s.processes p) = false) :
    (t.processes p).priority = (s.processes p).priority := by
  obtain ⟨u, hu, ht⟩ := Except.of_bind h
  obtain ⟨io, history, quantum, _, rfl⟩ := countBlocked_eq hu
  cases ht
  by_cases he : slot = p
  · subst he
    have hb : ioBoosted ((counted s slot io history).processes slot) = false := by
      rw [counted_self]
      exact hp rfl
    dsimp only
    rw [if_neg (by rw [hb]; decide)]
    dsimp only
    rw [counted_self]
  · have hc : (({ counted s slot io history with quantumRemaining := quantum } : State).processes p).priority =
        (s.processes p).priority := by
      dsimp only
      rw [counted_of_ne (Ne.symm he)]
    have hb {v : State} (hv : Requeued { counted s slot io history with quantumRemaining := quantum } v)
        (f : ProcessControlBlock → ProcessControlBlock) :
        ((addToScheduler (v.modifyProcess slot f) slot).processes p).priority = (s.processes p).priority := by
      rw [addToScheduler_priority (Ne.symm he), State.modifyProcess_of_ne (Ne.symm he), hv.priority p, hc]
    split
    case isFalse => exact hc
    unfold boostBlocked
    dsimp only
    split
    · exact hb requeued_removeFromScheduler _
    · exact hb (.refl _) _

lemma prepare_priority (hk : s.schedulerLock = false)
    (hl : ¬Lifts s p) (hp : s.currentRunning = p → r.1 = false) (h : prepare s regs = .ok r) :
    (r.2.processes p).priority = (s.processes p).priority := by
  obtain ⟨u, hu, hku, hr⟩ := prepare_cases hk h
  have ha : Aged s.locked u := age_aged.returns.of_eq hu
  have hcur : u.currentRunning = s.currentRunning := ha.currentRunning
  have hpcb : (u.processes p).priority = (s.processes p).priority := by
    rw [(age_kept (lifts_locked.not.mpr hl) hu).1]
    rfl
  have hc {burst : UInt32} : ((charged u regs burst).processes p).priority = (s.processes p).priority := by
    rw [← hpcb, charged_eq]
    dsimp only
    by_cases he : p = u.currentRunning
    · rw [he, State.modifyProcess_self]; rfl
    · rw [State.modifyProcess_of_ne he]
  obtain ⟨_, rfl⟩ | ⟨_, hs⟩ := hr
  · exact hpcb
  · obtain ⟨_, rfl⟩ | ⟨_, l, _, quantum, burst, _, _, ⟨_, rfl⟩ | ⟨_, rfl⟩⟩ := stopCurrent_cases hku hs
    · exact hpcb
    · exact hc
    · have hne : p ≠ u.currentRunning := by
        intro he
        cases hp (hcur ▸ he.symm)
      dsimp only
      rw [addToScheduler_priority hne, preempt, State.modifyProcess_of_ne hne, hc]

lemma schedule_priority (hk : s.schedulerLock = false)
    (h : schedule astra s regs = .ok r) : ∃ q, prepare s regs = .ok q ∧
      ∀ p, (r.2.processes p).priority = (q.2.processes p).priority := by
  obtain ⟨u, ⟨hu, he⟩ | ⟨hu, v, w, hv, hw, he⟩⟩ := schedule_cases hk h
  · exact ⟨_, hu, fun p => by rw [he]; rfl⟩
  · refine ⟨_, hu, fun p => ?_⟩
    rw [he, ← hv.priority p]
    change (w.processes p).priority = _
    rw [hw.process p]

lemma Action.passes.priority (hk : s.schedulerLock = false) (ha : a.passes s p)
    (h : exec astra s a = .ok t) : (t.processes p).priority = (s.processes p).priority := by
  cases a
  case create entryPoint privilege flags stack =>
    obtain ⟨r, hr, rfl⟩ := Except.of_map h
    obtain ⟨_, v, hv⟩ | ⟨_, slot, u, pid, hf, _, he⟩ := createSecureProcess_cases hk hr
    · exact asTerminate_priority (s := { s with securityViolationCount := v }) hk hv p
    · obtain ⟨_, hfree, rfl⟩ := findFreeSlotFast_eq_some hf
      have hne : p ≠ slot := by
        rintro rfl
        have ha : s.activeProcessBitmap.getLsbD p = true := ha
        have hfree : s.activeProcessBitmap.getLsbD p = false := hfree
        rw [ha] at hfree
        cases hfree
      rw [he]
      refine (addToScheduler_priority hne).trans ?_
      rw [enroll, State.setProcess_of_ne hne]
      rfl
  case schedule regs =>
    obtain ⟨r, hr, rfl⟩ := Except.of_map h
    obtain ⟨q, hq, he⟩ := schedule_priority hk hr
    rw [he p]
    exact prepare_priority hk ha.1 (fun hc => ha.2 hc q (by rw [hq]; rfl)) hq
  case terminate pid reason code =>
    obtain ⟨_, rfl⟩ | ⟨slot, _, hr, _⟩ := terminateProcess_cases hk h
    · rfl
    · exact hr.priority p
  case asTerminate pid => exact asTerminate_priority hk h p
  case blocked slot => exact processBlocked_priority h ha
  case cleanup =>
    unfold exec cleanupTerminatedProcess at h
    rw [lockScheduler_eq hk] at h
    cases h
    change ((cleanupLoop s.termQueueCount 0 s.locked).processes p).priority = _
    refine congrArg _ (cleanupLoop_induction (P := fun t => t.processes p = s.processes p) id ?_ rfl)
    intro t q hz ht
    have hne : p ≠ q := by
      rintro rfl
      exact ha (ht ▸ hz)
    rw [← ht]
    unfold reclaim freeSlotFast
    dsimp only
    split <;> exact State.setProcess_of_ne hne
  case clock apicTicks =>
    cases h
    rfl

-- A process uses up its quantum for a number of times, and is not boosted.
inductive Hogs (astra : Bool) (p : Slot) (s : State) : Nat → State → Prop
  | refl : Hogs astra p s 0 s
  | expire {k : Nat} {t u : State} {regs : Registers} : Hogs astra p s k t → t.currentRunning = p →
      Expires t → Demotes t (.schedule regs) → exec astra t (.schedule regs) = .ok u →
      Hogs astra p s (k + 1) u
  | pass {k : Nat} {t u : State} {a : Action} : Hogs astra p s k t → a.passes t p →
      exec astra t a = .ok u → Hogs astra p s k u

lemma Hogs.priority (hk : s.schedulerLock = false) (h : Hogs astra p s k t) :
    t.schedulerLock = false ∧
      (t.processes p).priority.toNat = demotion^[k] (s.processes p).priority.toNat := by
  induction h
  case refl => exact ⟨hk, rfl⟩
  case expire k t u regs _ hc hx hd he ih =>
    refine ⟨exec_unlocked ih.1 he, ?_⟩
    obtain ⟨r, hr, rfl⟩ := Except.of_map he
    obtain ⟨q, hq, hpr⟩ := schedule_priority ih.1 hr
    have hdem := (hx.prepare ih.1 hd hq).2.priority
    rw [hc] at hdem
    rw [hpr p, hdem, ih.2, Function.iterate_succ_apply']
  case pass k t u a _ ha he ih =>
    refine ⟨exec_unlocked ih.1 he, ?_⟩
    rw [ha.priority ih.1 he, ih.2]

lemma iterate_demotion (hk : maxPriorityLevels - 1 ≤ k) :
    demotion^[k] priority = maxPriorityLevels - 1 := by
  have h (i : Nat) : demotion^[i + 1] priority = min (priority + (i + 1)) (maxPriorityLevels - 1) := by
    induction i
    case zero => rfl
    case succ i ih =>
      rw [Function.iterate_succ_apply', ih, demotion]
      omega
  obtain ⟨i, rfl⟩ := Nat.exists_eq_succ_of_ne_zero (n := k) (by rintro rfl; exact absurd hk (by decide))
  rw [Nat.succ_eq_add_one, h, Nat.min_eq_right (hk.trans (Nat.le_add_left ..))]

-- A process of a user whose quantum expires is queued one level below, and one that always uses up its
-- quantum ends in the last queue.
theorem Run.expiry_demotes (h : Run astra Demotes s) :
    (∀ {regs r}, Expires s → Demotes s (.schedule regs) → prepare s regs = .ok r →
      r.1 = true ∧ Demoted s r.2) ∧
    ∀ {p k t}, Hogs astra p s k t →
      (t.processes p).priority.toNat = demotion^[k] (s.processes p).priority.toNat ∧
      (maxPriorityLevels - 1 ≤ k → (t.processes p).priority.toNat = maxPriorityLevels - 1) := by
  refine ⟨fun hx hd hr => hx.prepare h.unlocked hd hr, fun {p k t} hh => ?_⟩
  have hp := (hh.priority h.unlocked).2
  exact ⟨hp, fun hk => hp.trans (iterate_demotion hk)⟩

-- A process that has used up the quantum of the fourth queue goes to the last one.
theorem Run.expiry_demotes_last : ∃ s r, Run true Demotes s ∧ (s.processes 1).priority = 3 ∧
    Expires s ∧ prepare s {} = .ok r ∧ r.1 = true ∧ Demoted s r.2 := by
  obtain ⟨s, hs, hp, hx, hd, hr⟩ := (Machine.Run.init ⟨0, rfl⟩ : Run true Demotes _).exists_of_all
    (l := [.create 0x1000 1 0 0x8000, .schedule {}, .create 0x2000 1 0 0x9000, .create 0x3000 1 0 0xa000,
      .blocked 2, .blocked 2, .blocked 3, .blocked 3, .schedule {}, .terminate 3 .killed 1,
      .terminate 2 .killed 1, .schedule {}, .schedule {}, .schedule {}, .schedule {}, .blocked 1])
    (P := fun s => (s.processes 1).priority = 3 ∧ Expires s ∧ Demotes s (.schedule {}) ∧
      (prepare s {}).toOption.isSome)
    (by decide +kernel)
  cases he : prepare s {}
  case error e => simp [he, Except.toOption] at hr
  case ok r => exact ⟨s, r, hs, hp, hx, he, (Run.expiry_demotes hs).1 hx hd he⟩

-- A process that uses up the quantum of the last queue moves up.
theorem expiry_promotes : ∃ s, [.create 0x1000 1 0 0x8000, .schedule {}, .schedule {}].foldlM (exec true)
      (schedInit 0) = .ok s ∧ s.currentRunning = 1 ∧ (s.processes 1).priority = 4 ∧ Expires s ∧
    (prepare s {}).toOption.any fun r => r.1 ∧ (r.2.processes 1).priority = 3 ∧
      (r.2.queues 4).tail = none ∧ (r.2.queues 3).tail ≠ none :=
  Machine.exists_exec (P := fun s : State => s.currentRunning = 1 ∧ (s.processes 1).priority = 4 ∧
    Expires s ∧ (prepare s {}).toOption.any fun r => r.1 ∧ (r.2.processes 1).priority = 3 ∧
      (r.2.queues 4).tail = none ∧ (r.2.queues 3).tail ≠ none) (by decide +kernel)

end MLFQ
