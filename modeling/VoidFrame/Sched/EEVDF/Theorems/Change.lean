import VoidFrame.Sched.EEVDF.Theorems.Refinement

-- What the functions of the scheduler do to the control blocks, one by one.

namespace EEVDF

variable {s t u : State} {p : Slot} {pid : UInt32} {f : ProcessControlBlock → ProcessControlBlock}
  {pcb : ProcessControlBlock} {reason : TerminationReason} {code : UInt32} {regs : Registers}
  {R : ProcessControlBlock → ProcessControlBlock → Prop}

def ProcessControlBlock.Runnable (pcb : ProcessControlBlock) : Prop :=
  pcb.state = .ready ∨ pcb.state = .running

-- A change of a control block that leaves its messages alone, and does not revive the process.
structure Tunes (a b : ProcessControlBlock) : Prop where
  queue : b.ipcQueue = a.ipcQueue
  state : b.state = a.state ∨ b.state = .zombie ∨ a.Runnable ∧ b.Runnable

-- What the kernel does to a control block between two ticks, while the virtual time is `m`: A process that
-- enters the run queue is not behind.
inductive Alters (m : UInt64) (a b : ProcessControlBlock) : Prop
  | tune (h : Tunes a b) (hv : b.vruntime = a.vruntime) (hq : b.rbNode.isSome → a.rbNode.isSome)
  | enter (h : Tunes a b) (hv : m ≤ b.vruntime)
  | clear (h : b = {})

structure Altered (s t : State) : Prop where
  min : t.rq.minVruntime = s.rq.minVruntime
  current : t.rq.currentSlot = s.rq.currentSlot
  process : ∀ p, Alters s.rq.minVruntime (s.processes p) (t.processes p)

def Evolves : State → State → Prop :=
  Relation.ReflTransGen Altered

lemma Tunes.rfl : Tunes pcb pcb :=
  ⟨.refl _, .inl (.refl _)⟩

lemma Tunes.dead {a b : ProcessControlBlock} (h : Tunes a b) (ha : a.state.Dead) : b.state.Dead := by
  obtain he | hz | ⟨hr, -⟩ := h.state
  · exact he ▸ ha
  · exact .inr (.inl hz)
  · obtain hr | hr := hr <;> simp [hr, ProcessState.Dead] at ha

namespace Evolves

lemma refl : Evolves s s :=
  Relation.ReflTransGen.refl

lemma trans (h1 : Evolves s t) (h2 : Evolves t u) : Evolves s u :=
  Relation.ReflTransGen.trans h1 h2

lemma single (h : Altered s t) : Evolves s t :=
  Relation.ReflTransGen.single h

lemma of_eq (h : (t.processes, t.rq.minVruntime, t.rq.currentSlot) =
    (s.processes, s.rq.minVruntime, s.rq.currentSlot)) : Evolves s t := by
  simp only [Prod.mk.injEq] at h
  exact .single ⟨h.2.1, h.2.2, fun _ => h.1 ▸ .tune .rfl rfl id⟩

lemma setProcess (h : Alters s.rq.minVruntime (s.processes p) pcb) : Evolves s (s.setProcess p pcb) := by
  refine .single ⟨rfl, rfl, fun q => ?_⟩
  by_cases hq : q = p
  · simpa [hq] using h
  · simpa [hq] using .tune .rfl rfl id

lemma modify (ht : ∀ pcb, Tunes pcb (f pcb)) (hv : ∀ pcb, (f pcb).vruntime = pcb.vruntime)
    (hn : ∀ pcb, (f pcb).rbNode = pcb.rbNode) : Evolves s (s.modifyProcess p f) :=
  setProcess <| .tune (ht _) (hv _) (by simp [hn])

lemma sisUpdateSeal (h : Evolves s t) : Evolves s (sisUpdateSeal t p) :=
  h.trans (.modify (fun _ => ⟨rfl, .inl rfl⟩) (fun _ => rfl) fun _ => rfl)

lemma clearReady (h : Evolves s t) : Evolves s (t.clearReady p) :=
  h.trans (.of_eq (by rfl))

lemma requestSchedule (h : Evolves s t) : Evolves s (t.requestSchedule p) :=
  h.trans (.of_eq (by rfl))

lemma unlockRunqueue (h : Evolves s t) : Evolves s t.unlockRunqueue :=
  h.trans (.of_eq (by rfl))

lemma setRbNode_none : Evolves s (s.setRbNode p none) :=
  setProcess <| .tune ⟨rfl, .inl rfl⟩ rfl (by simp)

lemma min (h : Evolves s t) : t.rq.minVruntime = s.rq.minVruntime := by
  induction h
  case refl => rfl
  case tail _ h ih => exact h.min.trans ih

lemma current (h : Evolves s t) : t.rq.currentSlot = s.rq.currentSlot := by
  induction h
  case refl => rfl
  case tail _ h ih => exact h.current.trans ih

end Evolves

lemma allocRBNode_evolves : (allocRBNode s p).Returns fun r =>
    Evolves s r.2 ∧ r.2.processes = s.processes :=
  .skip fun _ => .some ⟨.of_eq (by rfl), by rfl⟩

lemma rbInsert_evolves (hp : s.rq.minVruntime ≤ (s.processes p).vruntime) :
    (rbInsert s p).Returns (Evolves s) := by
  unfold rbInsert
  split
  case isTrue => exact .error
  split
  case h_1 => exact .ok .refl
  case h_2 i s1 ha =>
    obtain ⟨h1, he⟩ := allocRBNode_evolves.of_eq ha
    have hm : s1.rq.minVruntime = s.rq.minVruntime := h1.min
    have h2 : Evolves s1 (s1.setRbNode p (some i)) := by
      refine .setProcess (.enter ⟨rfl, .inl rfl⟩ ?_)
      rw [hm, he]
      exact hp
    exact .skip fun _ => .ok <| h1.trans <| h2.trans <| .of_eq (by rfl)

lemma rbDelete_evolves : (rbDelete s p).Returns (Evolves s) := by
  unfold rbDelete
  split
  case h_1 => exact .ok .refl
  refine .skip fun _ => .skip fun _ => .ok ?_
  exact .trans (.of_eq (by rfl)) .setRbNode_none

lemma raiseVruntime_evolves : Evolves s (raiseVruntime s p) ∧
    (raiseVruntime s p).rq = s.rq ∧ s.rq.minVruntime ≤ ((raiseVruntime s p).processes p).vruntime := by
  unfold raiseVruntime
  split
  case isTrue => exact ⟨.setProcess (.enter ⟨rfl, .inl rfl⟩ (UInt64.le_refl _)), rfl, by simp⟩
  case isFalse hv => exact ⟨.refl, rfl, UInt64.not_lt.mp hv⟩

lemma enqueueTask_evolves : ∀ p, (enqueueTask s p).Returns (Evolves s)
  | none => .ok .refl
  | some p => by
    unfold enqueueTask
    dsimp only
    split
    case isTrue => exact .ok .refl
    have ⟨h1, hrq, hv⟩ := raiseVruntime_evolves (s := s) (p := p)
    refine .skip fun slice => (rbInsert_evolves ?_).mono fun _ h => h1.trans (.trans ?_ h)
    · simpa [hrq] using hv
    · exact .trans (.modify (f := fun pcb => { pcb with deadline := pcb.vruntime + slice })
        (fun _ => ⟨rfl, .inl rfl⟩) (fun _ => rfl) fun _ => rfl) (.of_eq (by rfl))

lemma dequeueTask_evolves : ∀ p, (dequeueTask s p).Returns (Evolves s)
  | none => .ok .refl
  | some p => by
    unfold dequeueTask
    dsimp only
    split
    · exact .ok .refl
    · exact rbDelete_evolves.mono fun _ h => .trans (.of_eq (by rfl)) h

lemma lockRunqueue_evolves : s.lockRunqueue.Returns (Evolves s) := by
  unfold State.lockRunqueue
  split
  · exact .error
  · exact .ok (.of_eq (by rfl))

lemma addToTerminationQueue_evolves : (addToTerminationQueue s p).Returns (Evolves s) := by
  unfold addToTerminationQueue
  split
  · exact .error
  · exact .ok (.of_eq (by rfl))

lemma zombify_evolves : Evolves s (zombify s p reason code) :=
  .sisUpdateSeal <| .requestSchedule <| .clearReady <|
    .modify (fun _ => ⟨rfl, .inr (.inl rfl)⟩) (fun _ => rfl) fun _ => rfl

lemma retire_evolves : (retire s p reason code).Returns (Evolves s) := by
  refine lockRunqueue_evolves.bind fun _ h1 => (dequeueTask_evolves _).bind fun _ h2 => ?_
  refine addToTerminationQueue_evolves.mono fun _ h3 => ?_
  exact (zombify_evolves.trans (h1.trans h2)).unlockRunqueue.trans h3

lemma asTerminate_evolves : (asTerminate s pid).Returns (Evolves s) := by
  unfold asTerminate
  split
  · exact .ok .refl
  · split
    · exact .ok .refl
    · exact retire_evolves.bind fun _ h => .ok (h.trans (.of_eq (by rfl)))

lemma killProcess_evolves : (killProcess s pid).Returns (Evolves s) := by
  unfold killProcess terminateProcess
  split
  · exact .ok .refl
  · split
    · exact .ok .refl
    · split
      · exact asTerminate_evolves
      · exact retire_evolves.bind fun _ h => .ok (h.trans (.of_eq (by rfl)))

lemma killAllProcesses_evolves : (killAllProcesses s).Returns (Evolves s) := by
  unfold killAllProcesses
  generalize List.finRange maxProcesses = l
  induction l generalizing s
  case nil => exact .ok .refl
  case cons i l ih =>
    rw [List.foldlM_cons]
    refine .bind (P := Evolves s) ?_ fun _ h => ih.mono fun _ => h.trans
    dsimp only
    split
    · exact asTerminate_evolves
    · exact .ok .refl

lemma removeFromTerminationQueue_evolves : (removeFromTerminationQueue s).Returns (Evolves s ·.2) := by
  unfold removeFromTerminationQueue
  split
  · exact .none
  · exact .some (.of_eq (by rfl))

lemma freeSlotFast_evolves : Evolves s (freeSlotFast s p) := by
  unfold freeSlotFast
  split
  · exact .of_eq (by rfl)
  · exact .refl

lemma cleanupLoop_evolves : Evolves s (cleanupLoop fuel count s) := by
  fun_induction cleanupLoop fuel count s
  case case1 => exact .refl
  case case2 => exact .refl
  case case3 hs _ ih => exact (removeFromTerminationQueue_evolves.of_eq hs).trans ih
  case case4 hs _ _ _ ih =>
    refine (removeFromTerminationQueue_evolves.of_eq hs).trans (.trans ?_ ih)
    exact .trans (.setProcess (.clear rfl)) (freeSlotFast_evolves.trans (.of_eq (by rfl)))
  case case5 => exact .refl

lemma postflightCheck_evolves : (postflightCheck s p).Returns (Evolves s ·.2) := by
  unfold postflightCheck
  split
  · exact .ok .refl
  · split
    · exact asTerminate_evolves.bind fun _ h => .ok h
    · exact .ok .refl

lemma preflightCheck_evolves : (preflightCheck s p).Returns (Evolves s ·.2) := by
  unfold preflightCheck
  split
  · exact .ok .refl
  · split
    · exact asTerminate_evolves.bind fun _ h => .ok h
    · split
      · exact asTerminate_evolves.bind fun _ h => .ok h
      · exact .ok .refl

-- A relation between control blocks that allows such changes, and the clearing of a block.
structure Lax (R : ProcessControlBlock → ProcessControlBlock → Prop) : Prop where
  trans : ∀ {a b c}, R a b → R b c → R a c
  tunes : ∀ {a b}, Tunes a b → R a b
  clear : ∀ a, R a {}

def Change (R : ProcessControlBlock → ProcessControlBlock → Prop) (s t : State) : Prop :=
  ∀ p, R (s.processes p) (t.processes p)

variable (hR : Lax R)

namespace Change

include hR

lemma refl (s : State) : Change R s s :=
  fun _ => hR.tunes .rfl

lemma trans (h : Change R s t) (h' : Change R t u) : Change R s u :=
  fun p => hR.trans (h p) (h' p)

lemma of_evolves (h : Evolves s t) : Change R s t := by
  induction h
  case refl => exact .refl hR s
  case tail _ h ih =>
    refine .trans hR ih fun p => ?_
    cases h.process p
    case tune ht _ _ => exact hR.tunes ht
    case enter ht _ => exact hR.tunes ht
    case clear he => exact he ▸ hR.clear _

lemma of_processes (h : t.processes = s.processes) : Change R s t :=
  fun p => by
    rw [h]
    exact hR.tunes .rfl

lemma setProcess (h : R (s.processes p) pcb) : Change R s (s.setProcess p pcb) := by
  intro q
  by_cases hq : q = p
  · simpa [hq] using h
  · simpa [hq] using hR.tunes .rfl

lemma modify (h : Change R s t) (hq : ∀ pcb, (f pcb).ipcQueue = pcb.ipcQueue)
    (hs : ∀ pcb, (f pcb).state = pcb.state) : Change R s (t.modifyProcess p f) :=
  trans hR h (setProcess hR (hR.tunes ⟨hq _, .inl (hs _)⟩))

lemma sisUpdateSeal (h : Change R s t) : Change R s (sisUpdateSeal t p) :=
  modify hR h (fun _ => rfl) fun _ => rfl

lemma clearReady (h : Change R s t) : Change R s (t.clearReady p) :=
  trans hR h (of_processes hR rfl)

lemma markReady (h : Change R s t) : Change R s (t.markReady p) :=
  trans hR h (of_processes hR rfl)

end Change

include hR

-- The variables stand for values of the clock, which are better not looked at.
lemma account_change : Change R s (s.modifyProcess p (·.account now delta fair)) :=
  .modify hR (.refl hR s) (fun _ => rfl) fun _ => rfl

lemma updateMinVruntime_change : Change R s (updateMinVruntime s p) :=
  .of_processes hR rfl

lemma updateCurr_change : Change R s (updateCurr s p) := by
  unfold updateCurr
  dsimp only
  split
  · exact .refl hR s
  · refine .trans hR ?_ (updateMinVruntime_change hR)
    exact account_change hR

lemma ready_change (h : (s.processes p).state = .running) :
    Change R s (s.modifyProcess p fun pcb => { pcb with state := .ready }) :=
  .setProcess hR (hR.tunes ⟨rfl, .inr (.inr ⟨.inr h, .inl rfl⟩)⟩)

lemma stopCurrent_change : (stopCurrent s regs p).Returns (Change R s) := by
  unfold stopCurrent
  split
  · exact .ok (.refl hR s)
  · refine postflightCheck_evolves.bind ?_
    rintro ⟨ok, t⟩ ht
    replace ht := Change.of_evolves hR ht
    cases ok
    case false => exact .ok ht
    dsimp only
    rw [if_neg (by simp)]
    generalize hu : updateCurr (t.modifyProcess p fun pcb => { pcb with context := regs }) p = u
    have hq : Change R s u := by
      rw [← hu]
      refine .trans hR ?_ (updateCurr_change hR)
      exact .modify hR ht (fun _ => rfl) fun _ => rfl
    split
    case isTrue hrun => exact .ok <| .markReady hR <| .sisUpdateSeal hR <| .trans hR hq <| ready_change hR hrun
    case isFalse => exact .ok hq

lemma preempt_change : (preempt s regs p).Returns (Change R s) := by
  refine (stopCurrent_change hR).bind fun _ h1 => lockRunqueue_evolves.bind fun _ h2 => ?_
  have hk := Change.trans hR h1 (.of_evolves hR h2)
  split
  · exact (enqueueTask_evolves _).mono fun _ h => .trans hR hk (.of_evolves hR h)
  · exact .ok hk

lemma dispatch_change : ∀ p, (dispatch s p).Returns fun r =>
    Change R s r.2 ∧ (r.1 ≠ 0 → (r.2.processes r.1).state = .ready)
  | none => .ok ⟨.refl hR s, fun h => absurd rfl h⟩
  | some p => by
    unfold dispatch
    dsimp only
    split
    case isTrue hr =>
      intro r he
      obtain ⟨t, ht, he⟩ := Except.of_bind he
      cases he
      exact ⟨.of_evolves hR ((dequeueTask_evolves _).of_eq ht), fun _ =>
        (congrArg Identity.state ((dequeueTask_frame.of_eq ht).identity p)).trans hr⟩
    case isFalse => exact .ok ⟨.refl hR s, fun h => absurd rfl h⟩

lemma selectNext_change : (selectNext s).Returns fun r =>
    Change R s r.2 ∧ (r.1 ≠ 0 → (r.2.processes r.1).state = .ready) := by
  unfold selectNext
  split
  · exact .ok ⟨.refl hR s, fun h => absurd rfl h⟩
  · refine preflightCheck_evolves.bind fun r hr => ?_
    replace hr := Change.of_evolves hR hr
    dsimp only
    split
    · exact (dispatch_change hR _).mono fun _ h => ⟨.trans hR hr h.1, h.2⟩
    · refine (dequeueTask_evolves _).bind fun _ h1 => (dispatch_change hR _).mono fun _ h => ?_
      exact ⟨.trans hR (.trans hR hr (.of_evolves hR h1)) h.1, h.2⟩

lemma switchTo_change (hp : (s.processes p).Runnable) : (switchTo s regs p).Returns fun r =>
    Change R s r.2 ∧ r.2.rq.currentSlot = s.rq.currentSlot := by
  unfold switchTo
  dsimp only
  split
  · exact .ok ⟨.refl hR s, rfl⟩
  · refine .skip fun _ => .ok ⟨?_, rfl⟩
    dsimp only
    have h1 : Change R s (s.modifyProcess p fun pcb => { pcb with state := .running }) :=
      .setProcess hR (hR.tunes ⟨rfl, .inr (.inr ⟨hp, .inr rfl⟩)⟩)
    refine .modify hR (.modify hR (.clearReady hR <| .sisUpdateSeal hR h1) ?_ ?_) ?_ ?_
    all_goals exact fun _ => rfl

lemma resume_change (hp : p ≠ 0 → (s.processes p).Runnable) : (resume s regs p).Returns fun r =>
    Change R s r.2 ∧ r.2.rq.currentSlot = p := by
  have hc : (contextSwitch s regs p).Returns fun r => Change R s r.2 ∧ r.2.rq.currentSlot = p := by
    unfold contextSwitch
    split
    case isTrue h0 =>
      refine (switchTo_change hR (s := s.setCurrent p) (hp h0)).mono fun r h => ⟨.trans hR ?_ h.1, h.2⟩
      exact .of_processes hR rfl
    case isFalse => exact .ok ⟨.of_processes hR rfl, rfl⟩
  refine hc.bind fun r h => .ok ?_
  split
  · exact ⟨.trans hR h.1 (.of_evolves hR cleanupLoop_evolves), cleanupLoop_evolves.current.trans h.2⟩
  · exact h

lemma schedule_change : (schedule s regs).Returns fun r => Change R s r.2 ∧
    (r.2.rq.currentSlot ≠ 0 → ∃ t, Change R s t ∧ (t.processes r.2.rq.currentSlot).Runnable) := by
  have hs : Change R s s.countCall := .of_processes hR rfl
  unfold schedule
  dsimp only
  split
  · refine (preempt_change hR).bind fun _ h1 => (selectNext_change hR).bind fun r h2 => ?_
    refine (resume_change hR (s := r.2.unlockRunqueue) fun h0 => .inl (h2.2 h0)).mono fun _ h3 => ?_
    have hsel : Change R s r.2.unlockRunqueue := .trans hR (.trans hR (.trans hR hs h1) h2.1) (.of_processes hR rfl)
    exact ⟨.trans hR hsel h3.1, fun h0 => ⟨_, hsel, h3.2 ▸ .inl (h2.2 (h3.2 ▸ h0))⟩⟩
  · refine (selectNext_change hR).bind fun r h1 => ?_
    refine (resume_change hR fun h0 => .inl (h1.2 h0)).mono fun _ h2 => ?_
    have hsel : Change R s r.2 := .trans hR hs h1.1
    exact ⟨.trans hR hsel h2.1, fun h0 => ⟨_, hsel, h2.2 ▸ .inl (h1.2 (h2.2 ▸ h0))⟩⟩

end EEVDF
