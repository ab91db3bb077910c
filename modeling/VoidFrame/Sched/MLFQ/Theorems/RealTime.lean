import VoidFrame.Sched.MLFQ.Theorems.Selection

-- The queues for real-time processes come before all others.

namespace MLFQ

open EEVDF (Slot maxProcesses ProcessState TerminationReason Registers privSystem allocPid)
open Function (update update_of_ne update_self)

def State.rtActive (s : State) : BitVec 32 :=
  s.activeBitmap &&& s.rtBitmap

-- The first queue counts as active although it is empty.
def Stale (s : State) : Prop :=
  s.rtActive.getLsbD 0 = true ∧ (s.queues 0).head = none

instance decidableStale {s : State} : Decidable (Stale s) :=
  inferInstanceAs (Decidable (_ ∧ _))

-- The bits of the real-time queues. No process is ever put into the last of these queues.
structure RealTime (s : State) (L : Level → List NodeId) : Prop where
  lists : Lists s L
  bounded : ∀ {i}, s.rtBitmap.getLsbD i = true → i < rtPriorityThreshold
  marked : ∀ {l : Level}, l.val < rtPriorityThreshold → L l ≠ [] → s.rtActive.getLsbD l = true
  unused : L 2 = []
  first : s.rtActive.getLsbD 0 = true → L 0 = [] → L 1 = []

variable {astra : Bool} {s t : State} {L : Level → List NodeId} {l : Level} {n : NodeId} {p slot : Slot}
  {xs ys : List NodeId}

lemma level_cases : ∀ l : Level, l.val < rtPriorityThreshold → l = 0 ∨ l = 1 ∨ l = 2 := by
  decide

lemma findBestQueue_of_rtActive (hb : s.rtActive.getLsbD b = true)
    (hlt : ∀ i < b, s.rtActive.getLsbD i = false) : findBestQueue s = some b := by
  have hne : s.rtActive ≠ 0 := by
    intro h
    simp [h] at hb
  have ha : s.activeBitmap ≠ 0 := by
    intro h
    simp [State.rtActive, h] at hb
  have hctz : s.rtActive.ctz.toNat = b := by
    have hc := BitVec.getLsbD_true_ctz_of_ne_zero hne
    apply Nat.le_antisymm
    · by_contra hn
      have := BitVec.getLsbD_false_of_lt_ctz (Nat.lt_of_not_le hn)
      simp [hb] at this
    · by_contra hn
      have := hlt _ (Nat.lt_of_not_le hn)
      simp [hc] at this
  unfold findBestQueue
  rw [if_neg ha]
  exact (if_pos hne).trans (congrArg some hctz)

lemma classifyProcess_ne_two (pcb : ProcessControlBlock) : classifyProcess pcb ≠ 2 := by
  -- the bound on the bursts of such a process is `0`
  have hq : quantumBase / 6 = 0 := by decide
  unfold classifyProcess
  rw [hq]
  split
  · decide
  · split
    · decide
    · split
      case isTrue h => exact absurd h (by simp)
      case isFalse => split <;> decide

-- A process is interactive because of what it waited for, whatever its bursts are.
lemma classifyProcess_eq_one : classifyProcess pcb = 1 ↔
    ¬(pcb.privilegeLevel = privSystem ∧ pcb.token.flags &&& procFlagCritical ≠ 0) ∧
      ioBoostThreshold < pcb.ioOperations := by
  unfold classifyProcess
  split
  case isTrue h => simp [h]
  case isFalse h =>
    split
    case isTrue hio => simp [h, hio]
    case isFalse hio =>
      refine iff_of_false ?_ (by simp [hio])
      split
      · decide
      · split <;> decide

namespace RealTime

lemma findBestQueue (h : RealTime s L) (hl : l.val < rtPriorityThreshold) (hne : L l ≠ []) :
    ∃ b : Level, findBestQueue s = some b ∧ L b ≠ [] ∧ ∀ k < b, L k = [] := by
  by_cases h0 : L 0 = []
  case neg =>
    refine ⟨0, findBestQueue_of_rtActive (h.marked (by decide) h0) fun i hi => ?_, h0, fun k hk => ?_⟩
    · exact absurd hi (Nat.not_lt_zero i)
    · exact absurd hk (Fin.not_lt_zero k)
  have h1 : L 1 ≠ [] := by
    obtain rfl | rfl | rfl := level_cases l hl
    · exact absurd h0 hne
    · exact hne
    · exact absurd h.unused hne
  have hb : s.rtActive.getLsbD 0 = false := by
    by_contra hb
    exact h1 (h.first (by simpa using hb) h0)
  refine ⟨1, findBestQueue_of_rtActive (h.marked (by decide) h1) fun i hi => ?_, h1, fun k hk => ?_⟩
  · have hi : i = 0 := by
      change i < 1 at hi
      omega
    rw [hi, hb]
  · have hk : k = 0 := (by decide : ∀ k : Level, k < 1 → k = 0) k hk
    rw [hk, h0]

lemma congr (h : RealTime s L) (hc : queueing t = queueing s) : RealTime t L := by
  simp only [queueing, Prod.mk.injEq] at hc
  obtain ⟨hl, hq, hb, hn, ha, hr, hp⟩ := hc
  have he : t.rtActive = s.rtActive := by
    unfold State.rtActive
    rw [ha, hr]
  constructor
  case lists => exact h.lists.congr hl hq hb hn fun p => by rw [hp]
  case bounded => rw [hr]; exact h.bounded
  case marked => rw [he]; exact h.marked
  case unused => exact h.unused
  case first => rw [he]; exact h.first

lemma setProcess (h : RealTime s L)
    (hn : pcb.schedulerNode = (s.processes p).schedulerNode ∨ pcb.schedulerNode = none) :
    RealTime (s.setProcess p pcb) L :=
  ⟨h.lists.setProcess hn, h.bounded, h.marked, h.unused, h.first⟩

lemma modifyProcess (h : RealTime s L) (f : ProcessControlBlock → ProcessControlBlock)
    (hf : ∀ pcb, (f pcb).schedulerNode = pcb.schedulerNode) : RealTime (s.modifyProcess p f) L :=
  h.setProcess (.inl (hf _))

lemma stale_iff (h : RealTime s L) : Stale s ↔ s.rtActive.getLsbD 0 = true ∧ L 0 = [] := by
  unfold Stale
  rw [h.lists.head_eq_none]

lemma rtActive_removed (h : RealTime s L) (hl : L l = xs ++ n :: ys) :
    (removed s p l n).rtActive.getLsbD i =
      (s.rtActive.getLsbD i && !decide (i = l ∧ xs ++ ys = [])) := by
  have hc := h.lists.count_sub (l := l) (r := xs ++ ys) (by rw [hl]; simp; omega)
  have hz : (s.queues l).count - 1 = 0 ↔ xs ++ ys = [] := by
    rw [← UInt32.toNat_inj, hc]
    exact List.length_eq_zero_iff
  unfold State.rtActive MLFQ.removed
  dsimp only
  by_cases h0 : xs ++ ys = []
  · rw [if_pos (hz.mpr h0), BitVec.getLsbD_and, Bitmap.getLsbD_and_not_twoPow]
    by_cases hi : i = l
    case pos => simp [hi, h0]
    split
    · rw [Bitmap.getLsbD_and_not_twoPow]
      simp [hi]
    · simp [hi]
  · rw [if_neg (hz.not.mpr h0), if_neg fun h => h0 (hz.mp h.1)]
    simp [h0]

lemma of_stale_removed (h : RealTime s L) (hl : L l = xs ++ n :: ys)
    (hb : (MLFQ.removed s p l n).rtActive.getLsbD 0 = true) (h0 : update L l (xs ++ ys) 0 = []) :
    s.rtActive.getLsbD 0 = true ∧ L 0 = [] := by
  rw [h.rtActive_removed hl, Bool.and_eq_true] at hb
  have hl0 : l ≠ 0 := by
    rintro rfl
    rw [update_self] at h0
    simp [h0] at hb
  rw [update_of_ne hl0.symm] at h0
  exact ⟨hb.1, h0⟩

lemma removed (h : RealTime s L) (hn : (s.processes p).schedulerNode = some n)
    (hl : L l = xs ++ n :: ys) : RealTime (removed s p l n) (update L l (xs ++ ys)) := by
  constructor
  case lists => exact h.lists.removed hn hl
  case bounded =>
    intro i hi
    unfold MLFQ.removed at hi
    dsimp only at hi
    split at hi
    · rw [Bitmap.getLsbD_and_not_twoPow, Bool.and_eq_true] at hi
      exact h.bounded hi.2
    · exact h.bounded hi
  case marked =>
    intro k hk hne
    rw [h.rtActive_removed hl]
    by_cases hkl : k = l
    case pos =>
      subst hkl
      rw [update_self] at hne
      simp [hne, h.marked hk (by simp [hl])]
    rw [update_of_ne hkl] at hne
    simp [Fin.val_inj, hkl, h.marked hk hne]
  case unused =>
    have h2 : l ≠ 2 := by
      rintro rfl
      simp [h.unused] at hl
    rw [update_of_ne h2.symm]
    exact h.unused
  case first =>
    intro hb h0
    have ⟨hb, h0⟩ := h.of_stale_removed hl hb h0
    have h1 := h.first hb h0
    have hl1 : l ≠ 1 := by
      rintro rfl
      simp [h1] at hl
    rw [update_of_ne hl1.symm]
    exact h1

-- A process is put into a queue. The second queue only gets one if the first is not taken for active.
lemma added (h : RealTime s L) (hn : s.nodeBitmap.get n = false)
    (hs : classifyProcess (s.processes p) = 1 → ¬Stale s) :
    RealTime (added s p n) (update L (classifyProcess (s.processes p))
      (L (classifyProcess (s.processes p)) ++ [n])) := by
  have hlists := h.lists.added (p := p) hn
  have h2 := classifyProcess_ne_two (s.processes p)
  generalize hk : classifyProcess (s.processes p) = k at hs hlists h2
  have hbit {i : Nat} : (MLFQ.added s p n).rtActive.getLsbD i =
      (s.rtActive.getLsbD i || decide (i = k ∧ k < rtPriorityThreshold)) := by
    have hlt : k.val < 32 := Nat.lt_trans k.isLt (by decide)
    unfold State.rtActive MLFQ.added activate
    dsimp only [enqueued, State.setSchedulerNode, classified, State.modifyProcess, State.setProcess]
    rw [hk, BitVec.getLsbD_and, Bitmap.getLsbD_or_twoPow hlt]
    split
    case isTrue hrt =>
      rw [Bitmap.getLsbD_or_twoPow hlt]
      by_cases hi : i = k
      · simp [hi, hrt]
      · simp [hi]
    case isFalse hrt =>
      by_cases hi : i = k
      · have hb : s.rtBitmap.getLsbD i = false := by
          by_contra hb
          exact hrt (hi ▸ h.bounded (by simpa using hb))
        simp [hb, hrt]
      · simp [hi]
  constructor
  case lists => exact hlists
  case bounded =>
    intro i hi
    unfold MLFQ.added activate at hi
    dsimp only [enqueued, State.setSchedulerNode, classified, State.modifyProcess, State.setProcess] at hi
    rw [hk] at hi
    split at hi
    case isTrue hrt =>
      rw [Bitmap.getLsbD_or_twoPow (Nat.lt_trans k.isLt (by decide)), Bool.or_eq_true] at hi
      obtain hi | hi := hi
      · exact of_decide_eq_true hi ▸ hrt
      · exact h.bounded hi
    case isFalse => exact h.bounded hi
  case marked =>
    intro l hl hne
    rw [hbit]
    by_cases hlk : l = k
    case pos => simp [hlk ▸ hl, hlk]
    rw [update_of_ne hlk] at hne
    simp [h.marked hl hne]
  case unused =>
    rw [update_of_ne h2.symm]
    exact h.unused
  case first =>
    intro hb h0
    have hk0 : k ≠ 0 := by
      rintro rfl
      simp at h0
    rw [update_of_ne hk0.symm] at h0
    rw [hbit, Bool.or_eq_true, decide_eq_true_eq] at hb
    have hb : s.rtActive.getLsbD 0 = true := hb.resolve_right fun he => hk0 (Fin.ext he.1.symm)
    have hk1 : k ≠ 1 := fun h1 => hs h1 (h.stale_iff.mpr ⟨hb, h0⟩)
    rw [update_of_ne hk1.symm]
    exact h.first hb h0

-- The first process of a queue is taken out. The first queue only becomes empty if the second is empty.
lemma dequeued (h : RealTime s L) (hl : L l = n :: xs) (h0 : l = 0 → xs ≠ [] ∨ L 1 = []) :
    RealTime (dequeued s l n) (update L l xs) := by
  have hsub {k : Level} (hk : update L l xs k ≠ []) : L k ≠ [] := by
    by_cases hkl : k = l
    · simp [hkl, hl]
    · rwa [update_of_ne hkl] at hk
  constructor
  case lists => exact h.lists.dequeued hl
  case bounded => exact h.bounded
  case marked => exact fun hk hne => h.marked hk (hsub hne)
  case unused => exact not_not.mp fun hne => hsub hne h.unused
  case first =>
    intro hb hnil
    by_contra h1
    by_cases hl0 : l = 0
    case pos =>
      subst hl0
      rw [update_self] at hnil
      exact hsub h1 ((h0 rfl).resolve_left (not_not.mpr hnil))
    rw [update_of_ne (Ne.symm hl0)] at hnil
    exact hsub h1 (h.first hb hnil)

lemma promote (h : RealTime s L) (hl : L l = xs ++ n :: ys) (hrt : ¬l.val < rtPriorityThreshold)
    (hb : s.rtBitmap.getLsbD 0 = true) :
    RealTime (promote s l n) (update (update L l (xs ++ ys)) 0 (update L l (xs ++ ys) 0 ++ [n])) := by
  have hl0 : l ≠ 0 := by
    rintro rfl
    exact hrt (by decide)
  have hbit {i : Nat} : (MLFQ.promote s l n).rtActive.getLsbD i =
      (s.rtActive.getLsbD i || decide (i = 0)) := by
    change (_ &&& s.rtBitmap).getLsbD i = _
    rw [BitVec.getLsbD_and]
    change ((s.activeBitmap ||| BitVec.twoPow 32 0).getLsbD i && _) = _
    rw [Bitmap.getLsbD_or_twoPow (by decide), State.rtActive, BitVec.getLsbD_and]
    by_cases hi : i = 0
    · simp [hi, hb]
    · simp [hi]
  have hother {k : Level} (hk0 : k ≠ 0) (hk : k.val < rtPriorityThreshold) :
      update (update L l (xs ++ ys)) 0 (update L l (xs ++ ys) 0 ++ [n]) k = L k := by
    have hkl : k ≠ l := by
      rintro rfl
      exact hrt hk
    rw [update_of_ne hk0, update_of_ne hkl]
  constructor
  case lists => exact h.lists.promote hl hl0
  case bounded => exact h.bounded
  case marked =>
    intro k hk hne
    rw [hbit]
    by_cases hk0 : k = 0
    case pos => simp [hk0]
    rw [hother hk0 hk] at hne
    simp [h.marked hk hne]
  case unused => rw [hother (by decide) (by decide)]; exact h.unused
  case first => simp

end RealTime

section

-- What `SmartAging` keeps from a state `s` on. It promotes processes only if the first queue counts as
-- one for real time.
structure Ages (threshold : UInt32) (s t : State) (L : Level → List NodeId) : Prop where
  queues : RealTime t L
  stale : Stale t → Stale s
  first : t.rtBitmap.getLsbD 0 = true ∨
    ∀ {l n}, ¬l.val < rtPriorityThreshold → n ∈ L l → ¬Overdue threshold t n

variable {threshold : UInt32}

lemma Ages.promote (h : Ages threshold s t L) (hrt : ¬l.val < rtPriorityThreshold)
    (hl : L l = xs ++ n :: ys) (hn : Overdue threshold t n) :
    Ages threshold s (promote t l n)
      (update (update L l (xs ++ ys)) 0 (update L l (xs ++ ys) 0 ++ [n])) := by
  have hb : t.rtBitmap.getLsbD 0 = true :=
    h.first.resolve_right fun hf => hf hrt (hl ▸ List.mem_append_right _ (.head _)) hn
  have hq := h.queues.promote hl hrt hb
  refine ⟨hq, fun hs => ?_, .inl hb⟩
  have h0 := (hq.stale_iff.mp hs).2
  simp at h0

lemma Ages.clear (h : Ages threshold s t L) (hrt : ¬l.val < rtPriorityThreshold) :
    Ages threshold s { t with activeBitmap := t.activeBitmap &&& ~~~BitVec.twoPow 32 l } L := by
  have he : State.rtActive { t with activeBitmap := t.activeBitmap &&& ~~~BitVec.twoPow 32 l } =
      t.rtActive := by
    apply BitVec.eq_of_getLsbD_eq
    intro i _
    rw [State.rtActive, State.rtActive, BitVec.getLsbD_and, Bitmap.getLsbD_and_not_twoPow,
      BitVec.getLsbD_and]
    by_cases hil : i = l
    case neg => simp [hil]
    have hb : t.rtBitmap.getLsbD i = false := by
      by_contra hb
      exact hrt (hil ▸ h.queues.bounded (by simpa using hb))
    simp [hb]
  have hq := h.queues
  refine ⟨⟨hq.lists.congr rfl rfl rfl rfl fun _ => rfl, hq.bounded, ?_, hq.unused, ?_⟩, ?_, h.first⟩
  · rw [he]; exact hq.marked
  · rw [he]; exact hq.first
  · unfold Stale at *
    rw [he]
    exact h.stale

lemma Ages.ageLevel (h : Ages threshold s t L) (hrt : ¬l.val < rtPriorityThreshold) :
    ∃ t' L', ageLevel threshold t l = .ok t' ∧ Ages threshold s t' L' := by
  have hl := h.queues.lists
  have h0 : l ≠ 0 := by
    rintro rfl
    exact hrt (by decide)
  have hf : (L l).length ≤ loopFuel := (hl.length_le l).trans (by decide)
  have hnil : L l = [] ++ L l := rfl
  obtain ⟨t', L', ht, _, ha⟩ := hl.agingLoop (P := Ages threshold s) threshold h0
    (fun _ ha hl hn => ha.promote hrt hl hn) h hnil hf
  unfold MLFQ.ageLevel
  rw [(hl.rows.holds l).head, ht]
  refine ⟨_, L', rfl, ?_⟩
  split
  · exact ha.clear hrt
  · exact ha

lemma Ages.smartAging (h : Ages (agingThreshold t) s t L) :
    ∃ t' L', smartAging t = .ok t' ∧ Ages (agingThreshold t) s t' L' := by
  obtain ⟨u, M, hu, hM⟩ := h.ageLevel (l := 3) (by decide)
  obtain ⟨t', L', ht, hL⟩ := hM.ageLevel (l := 4) (by decide)
  exact ⟨t', L', Except.bind_eq_ok_iff.mpr ⟨u, hu, ht⟩, hL⟩

-- A tick promotes a process to the first queue.
def Promotes (s : State) : Prop :=
  boostInterval * 2 ≤ (ticked s).tickCounter - (ticked s).lastBoostTick ∧
    ∃ l : Level, ¬l.val < rtPriorityThreshold ∧
      ∃ n ∈ s.queue l, Overdue (agingThreshold (ticked s)) (ticked s) n

instance decidablePromotes : Decidable (Promotes s) :=
  inferInstanceAs (Decidable (_ ∧ ∃ _, _))

lemma RealTime.ticked (h : RealTime s L) : RealTime (ticked s) L := by
  have hl := h.lists.ticked
  unfold MLFQ.ticked at hl ⊢
  dsimp only at hl ⊢
  split
  case isTrue hc =>
    rw [if_pos hc] at hl
    exact ⟨hl, h.bounded, h.marked, h.unused, h.first⟩
  case isFalse => exact h.congr rfl

lemma ticked_queues : (ticked s).queues = s.queues ∧ (ticked s).activeBitmap = s.activeBitmap ∧
    (ticked s).rtBitmap = s.rtBitmap := by
  unfold ticked
  dsimp only
  split <;> exact ⟨rfl, rfl, rfl⟩

lemma stale_ticked : Stale (ticked s) ↔ Stale s := by
  have ⟨hq, ha, hr⟩ := ticked_queues (s := s)
  unfold Stale State.rtActive
  rw [hq, ha, hr]

lemma RealTime.age (h : RealTime s L) (hp : Promotes s → s.rtBitmap.getLsbD 0 = true) :
    ∃ t M, age s = .ok t ∧ RealTime t M ∧ (Stale t → Stale s) := by
  rw [age_eq]
  split
  case isFalse => exact ⟨_, L, rfl, h.ticked, stale_ticked.mp⟩
  case isTrue hdue =>
    have ha : Ages (agingThreshold (MLFQ.ticked s)) s (MLFQ.ticked s) L := by
      refine ⟨h.ticked, stale_ticked.mp, ?_⟩
      rw [ticked_queues.2.2, or_iff_not_imp_left]
      intro hb l n hrt hn ho
      exact hb (hp ⟨hdue, l, hrt, n, h.lists.queue_eq l ▸ hn, ho⟩)
    obtain ⟨t, M, ht, hM⟩ := ha.smartAging
    rw [ht]
    exact ⟨_, M, rfl, hM.queues.congr rfl, hM.stale⟩

end

lemma asTerminate_locked (h : s.schedulerLock = true) : asTerminate s pid = .error .deadlock := by
  unfold asTerminate State.lockScheduler
  rw [if_pos h]
  rfl

def charged (s : State) (regs : Registers) (cpuBurst : UInt32) : State :=
  saveContext (accountBurst s s.currentRunning cpuBurst) s.currentRunning regs

lemma stopCurrent_cases (hk : s.schedulerLock = true) (h : stopCurrent s regs = .ok r) :
    (s.processes s.currentRunning).state.Dead ∧ r = (true, s) ∨
    ¬(s.processes s.currentRunning).state.Dead ∧
      ∃ l, State.level (s.processes s.currentRunning).priority.toNat = .ok l ∧
      ∃ quantum cpuBurst, quantum = (s.queues l).quantum ∧ cpuBurst = quantum - s.quantumRemaining ∧
        (shouldPreempt (charged s regs cpuBurst) (s.processes s.currentRunning).priority = false ∧
          r = (false, charged s regs cpuBurst) ∨
        shouldPreempt (charged s regs cpuBurst) (s.processes s.currentRunning).priority = true ∧
          r = (true, addToScheduler (preempt (charged s regs cpuBurst) s.currentRunning quantum cpuBurst)
            s.currentRunning)) := by
  unfold stopCurrent at h
  dsimp only at h
  split at h
  case isTrue hd => exact .inl ⟨hd, (Except.ok.inj h).symm⟩
  case isFalse hd =>
    obtain ⟨l, hl, h⟩ := Except.of_bind h
    refine .inr ⟨hd, l, hl, _, _, rfl, rfl, ?_⟩
    split at h
    · have hk : (accountBurst s s.currentRunning ((s.queues l).quantum - s.quantumRemaining)).schedulerLock =
        true := hk
      rw [asTerminate_locked hk] at h
      cases h
    · split at h
      case isTrue hp =>
        rw [Bool.not_eq_true'] at hp
        exact .inl ⟨hp, (Except.ok.inj h).symm⟩
      case isFalse hp =>
        rw [Bool.not_eq_true', Bool.not_eq_false] at hp
        exact .inr ⟨hp, (Except.ok.inj h).symm⟩

lemma RealTime.charged (h : RealTime s L) : RealTime (charged s regs cpuBurst) L := by
  have ha : RealTime (accountBurst s s.currentRunning cpuBurst) L := h.modifyProcess _ fun _ => rfl
  have hm := ha.modifyProcess (p := s.currentRunning) (fun pcb => { pcb with context := regs })
    fun _ => rfl
  unfold MLFQ.charged saveContext
  dsimp only
  split
  · exact hm.congr rfl
  · exact hm

lemma RealTime.addToScheduler (h : RealTime s L) (hs : Spare s)
    (h1 : classifyProcess (s.processes p) = 1 → ¬Stale s) : ∃ M, RealTime (addToScheduler s p) M := by
  obtain ⟨_, he⟩ | ⟨_, _, n, hn, he⟩ := hs.addToScheduler_cases p
  · exact ⟨L, by rwa [he]⟩
  · exact ⟨_, by rw [he]; exact h.added hn h1⟩

lemma preempt_frame
    (hu : u = preempt (charged s regs cpuBurst) s.currentRunning quantum cpuBurst) :
    (classifyProcess (u.processes s.currentRunning) = 1 ↔
      classifyProcess (s.processes s.currentRunning) = 1) ∧
      u.nodeBitmap = s.nodeBitmap ∧ (Stale u ↔ Stale s) := by
  subst hu
  refine ⟨?_, ?_, ?_⟩
  · rw [classifyProcess_eq_one, classifyProcess_eq_one]
    unfold charged saveContext
    dsimp only
    split <;> simp [preempt, accountBurst, recordBurst]
  · exact (saveContext_frame s s.currentRunning regs cpuBurst).1
  · unfold charged saveContext
    dsimp only
    split <;> exact Iff.rfl

-- A tick puts a process that was running into the second queue.
def Action.interactive (s : State) : Action → Prop
  | .blocked slot => ioBoosted (s.processes slot) ∧
    classifyProcess { s.processes slot with ioOperations := (s.processes slot).ioOperations + 1 } = 1
  | .schedule regs => (Action.schedule regs).adds s ∧
    classifyProcess (s.processes s.currentRunning) = 1
  | _ => False

lemma ticked_locked : ticked s.locked = (ticked s).locked := by
  unfold ticked
  dsimp only [State.locked]
  split <;> rfl

lemma promotes_locked : Promotes s.locked ↔ Promotes s := by
  unfold Promotes
  rw [ticked_locked]
  exact Iff.rfl

lemma RealTime.prepare (h : RealTime s L)
    (hk : s.schedulerLock = false) (hp : Promotes s → s.rtBitmap.getLsbD 0 = true)
    (hs : (Action.schedule regs).adds s → Spare s)
    (h1 : (Action.schedule regs).interactive s → ¬Stale s) (hr : prepare s regs = .ok r) :
    ∃ M, RealTime r.2 M ∧ r.2.schedulerLock = true := by
  have hl : RealTime s.locked L := h.congr rfl
  obtain ⟨u, M, hu, hM, hst⟩ := hl.age fun h => hp (promotes_locked.mp h)
  have ha := age_aged.returns.of_eq hu
  have he := prepare_eq regs hk hu
  have hku : u.schedulerLock = true := ha.schedulerLock
  have hcur : u.currentRunning = s.currentRunning := ha.currentRunning
  by_cases h0 : u.currentRunning = 0
  case pos =>
    rw [if_neg (not_not.mpr h0), hr] at he
    cases he
    exact ⟨M, hM, hku⟩
  rw [if_pos h0] at he
  obtain ⟨_, rfl⟩ | ⟨hd, l, _, quantum, cpuBurst, _, _, ⟨_, rfl⟩ | ⟨_, rfl⟩⟩ :=
    stopCurrent_cases hku (he.symm.trans hr)
  · exact ⟨M, hM, hku⟩
  · exact ⟨M, hM.charged, (saveContext_frame ..).2.1.trans hku⟩
  · -- the process that was running goes back to a queue
    have ⟨_, _, _, hproc⟩ := ha.processes u.currentRunning
    have hadds : (Action.schedule regs).adds s := by
      refine ⟨hcur ▸ h0, ?_, ?_⟩
      · rw [hproc, hcur] at hd
        exact hd
      · rw [hr]
        rfl
    obtain ⟨v, hv⟩ : ∃ v, v = preempt (MLFQ.charged u regs cpuBurst) u.currentRunning quantum cpuBurst :=
      ⟨_, rfl⟩
    have ⟨hclass, hnodes, hstale⟩ := preempt_frame hv
    have hspare : Spare v := by
      have ⟨n, hn⟩ := hs hadds
      exact ⟨n, by rw [hnodes, ha.nodeBitmap]; exact hn⟩
    have hpre : RealTime v M := by
      rw [hv]
      exact hM.charged.modifyProcess _ fun _ => rfl
    have h1' : classifyProcess (v.processes u.currentRunning) = 1 → ¬Stale v := by
      intro hc hst'
      refine h1 ⟨hadds, ?_⟩ (hst (hstale.mp hst'))
      have hc := hclass.mp hc
      rw [classifyProcess_eq_one, hproc, hcur] at hc
      exact classifyProcess_eq_one.mpr hc
    obtain ⟨N, hN⟩ := hpre.addToScheduler hspare h1'
    rw [hv] at hN
    exact ⟨N, hN, addToScheduler_lock.trans ((saveContext_frame ..).2.1.trans hku)⟩

-- A process that is checked passes in a kernel that goes on, because the scheduler is locked.
lemma preflight_eq (hk : s.schedulerLock = true)
    (h : preflight astra s p = .ok r) : r = (true, s) := by
  unfold preflight at h
  split at h
  case isFalse => exact (Except.ok.inj h).symm
  unfold astraPreflightCheck at h
  simp only [asTerminate_locked hk] at h
  split at h
  case isTrue => exact (Except.ok.inj h).symm
  split at h
  case isTrue => cases h
  split at h
  case isTrue => cases h
  split at h
  · cases h
  · exact (Except.ok.inj h).symm

-- The first queue does not become empty while the second holds a process.
def Leaves (s : State) : Prop :=
  findBestQueue s = some 0 → 1 < (s.queues 0).count ∨ (s.queues 1).count = 0

instance decidableLeaves : Decidable (Leaves s) :=
  inferInstanceAs (Decidable (_ → _))

lemma RealTime.selectNext (h : RealTime s L)
    (hk : s.schedulerLock = true) (hr : ∀ u ∈ rounds fuel s, Leaves u)
    (he : selectNext astra fuel s = .ok r) : ∃ M, RealTime r.2 M := by
  induction fuel generalizing s L
  case zero => cases he
  case succ fuel ih =>
    have hstuck := he
    unfold MLFQ.selectNext at he
    rcases hb : MLFQ.findBestQueue s with _ | b
    · rw [hb] at he
      cases he
      exact ⟨L, h⟩
    rw [hb] at he
    obtain ⟨l, hl, he⟩ := Except.of_bind he
    have hlb : l.val = b := by
      unfold State.level at hl
      split at hl <;> cases hl
      rfl
    cases hL : L l
    case nil =>
      -- the loop does not end
      have hstuck' := selectNext_stuck (hlb ▸ hb) (h.lists.head_eq_none.mpr hL)
      cases astra
      · rw [(hstuck' (fuel + 1)).1] at hstuck
        cases hstuck
      · rw [(hstuck' fuel).2] at hstuck
        cases hstuck
    case cons n xs =>
      have hd := h.lists.deQueue_eq hL
      rw [hd] at he
      obtain ⟨q, hq, he⟩ := Except.of_bind he
      cases preflight_eq (s := MLFQ.dequeued s l n) hk hq
      have hc : MLFQ.candidate s = some (s.nodeSlots n, MLFQ.dequeued s l n) := by
        simp [MLFQ.candidate, hb, hl, hd, Except.toOption]
      have ht : RealTime (MLFQ.dequeued s l n) (update L l xs) := h.dequeued hL fun h0 => by
        subst h0
        refine (hr s (.head _) (hb.trans (congrArg some hlb.symm))).imp (fun hc => ?_) fun hc => ?_
        · rintro rfl
          have hc := UInt32.lt_iff_toNat_lt.mp hc
          rw [h.lists.count, hL] at hc
          exact Nat.lt_irrefl 1 hc
        · exact h.lists.count_eq_zero.mp hc
      dsimp only at he
      split at he
      case isFalse => cases he; exact ⟨_, ht⟩
      case isTrue hst =>
        have hst : ((MLFQ.dequeued s l n).processes (s.nodeSlots n)).state ≠ .ready := by
          simpa using hst
        refine ih ht hk (fun u hu => hr u <| List.mem_cons_of_mem _ ?_) he
        rw [hc]
        simpa [hst] using hu

lemma RealTime.contextSwitch (h : RealTime s L)
    (he : contextSwitch s regs p = .ok r) : RealTime r.2 L := by
  unfold MLFQ.contextSwitch at he
  dsimp only at he
  split at he
  case isTrue =>
    cases he
    exact h.congr rfl
  obtain ⟨l, _, he⟩ := Except.of_bind he
  cases he
  have hr : RealTime (resume s p) L := h.modifyProcess _ fun _ => rfl
  exact hr.congr rfl

-- What a tick finds in the loop that selects a process.
def Action.leaves (s : State) : Action → Prop
  | .schedule regs => ∀ r ∈ (prepare s regs).toOption, r.1 → ∀ u ∈ rounds loopFuel r.2, Leaves u
  | _ => True

def Action.promotes (s : State) : Action → Prop
  | .schedule _ => Promotes s
  | _ => False

-- The bits of the real-time queues stay right: processes are taken out of the queues that they are in,
-- the pool of nodes is not exhausted, processes are only promoted to the first queue while it counts as
-- one for real time, and the first queue is not taken for active while the second holds a process.
structure KeepsRealTime (s : State) (a : Action) : Prop where
  placed : ∀ p ∈ a.removes s, Placed s p
  spare : a.adds s → Spare s
  promotes : a.promotes s → s.rtBitmap.getLsbD 0 = true
  interactive : a.interactive s → ¬Stale s
  leaves : a.leaves s

instance decidablePromotesAction : ∀ a : Action, Decidable (a.promotes s)
  | .schedule _ => inferInstanceAs (Decidable (Promotes s))
  | .create .. | .terminate .. | .asTerminate _ | .blocked _ | .cleanup | .clock _ => isFalse id

instance decidableInteractive : ∀ a : Action, Decidable (a.interactive s)
  | .schedule _ => inferInstanceAs (Decidable (_ ∧ _))
  | .blocked _ => inferInstanceAs (Decidable (_ ∧ _))
  | .create .. | .terminate .. | .asTerminate _ | .cleanup | .clock _ => isFalse id

instance decidableLeavesAction : ∀ a : Action, Decidable (a.leaves s)
  | .schedule _ => inferInstanceAs (Decidable (∀ r ∈ _, _ → ∀ u ∈ rounds _ _, Leaves u))
  | .create .. | .terminate .. | .asTerminate _ | .blocked _ | .cleanup | .clock _ => isTrue trivial

instance decidableKeepsRealTime {a : Action} : Decidable (KeepsRealTime s a) :=
  decidable_of_iff ((∀ p ∈ a.removes s, Placed s p) ∧ (a.adds s → Spare s) ∧
      (a.promotes s → s.rtBitmap.getLsbD 0 = true) ∧ (a.interactive s → ¬Stale s) ∧ a.leaves s)
    ⟨fun h => ⟨h.1, h.2.1, h.2.2.1, h.2.2.2.1, h.2.2.2.2⟩, fun h => ⟨h.1, h.2, h.3, h.4, h.5⟩⟩

lemma RealTime.schedule (h : RealTime s L)
    (hk : s.schedulerLock = false) (ha : KeepsRealTime s (.schedule regs))
    (he : schedule astra s regs = .ok r) : ∃ M, RealTime r.2 M := by
  obtain ⟨q, hq, he⟩ := Except.of_bind he
  obtain ⟨M, hM, hkM⟩ := h.prepare hk ha.promotes ha.spare ha.interactive hq
  obtain ⟨select, t⟩ := q
  cases select
  case false =>
    cases he
    exact ⟨M, hM.congr rfl⟩
  obtain ⟨⟨slot, u⟩, hu, he⟩ := Except.of_bind he
  obtain ⟨⟨regs', v⟩, hv, he⟩ := Except.of_bind he
  cases he
  have hr : ∀ u ∈ rounds loopFuel t, Leaves u := ha.leaves _ (by rw [hq]; rfl) rfl
  obtain ⟨N, hN⟩ := hM.selectNext hkM hr hu
  exact ⟨N, (RealTime.contextSwitch hN hv).congr rfl⟩

lemma RealTime.removeFromScheduler (h : RealTime s L) (hp : Placed s p) :
    ∃ M, RealTime (removeFromScheduler s p) M ∧ (Stale (removeFromScheduler s p) → Stale s) := by
  obtain ⟨_, he⟩ | ⟨l, n, xs, ys, hn, hl, he⟩ := h.lists.removeFromScheduler_cases hp
  · rw [he]
    exact ⟨L, h, id⟩
  · have hr := h.removed hn hl
    rw [he]
    refine ⟨_, hr, fun hs => h.stale_iff.mpr ?_⟩
    have ⟨hb, h0⟩ := hr.stale_iff.mp hs
    exact h.of_stale_removed hl hb h0

lemma RealTime.retired (h : RealTime s L) (hp : Placed s p) (ht : Retired s t p) :
    ∃ M, RealTime t M := by
  obtain ⟨⟨reason, code, _, _, _, _, _, _, rfl⟩, _⟩ := ht
  have hz : RealTime (zombify s p reason code) L := h.modifyProcess _ fun _ => rfl
  have hp : Placed (zombify s p reason code) p :=
    hp.congr rfl rfl (by simp [zombify]) (by simp [zombify])
  obtain ⟨M, hM, _⟩ := hz.removeFromScheduler hp
  exact ⟨M, hM.congr rfl⟩

lemma RealTime.boostBlocked (h : RealTime s L) (hp : Placed s p)
    (hs : (s.processes p).pid = 0 ∨ (s.processes p).schedulerNode = none → Spare s)
    (h1 : classifyProcess (s.processes p) = 1 → ¬Stale s) : ∃ M, RealTime (boostBlocked s p) M := by
  let t := if (s.processes p).schedulerNode.isSome then MLFQ.removeFromScheduler s p else s
  let u := t.modifyProcess p fun pcb => { pcb with priority := UInt8.ofNat rtPriorityThreshold }
  obtain ⟨M, hM, hst, hspare, hc⟩ : ∃ M, RealTime t M ∧ (Stale t → Stale s) ∧ (p ≠ 0 → Spare t) ∧
      (classifyProcess (t.processes p) = 1 ↔ classifyProcess (s.processes p) = 1) := by
    unfold t
    split
    case isTrue =>
      obtain ⟨M, hM, hst⟩ := h.removeFromScheduler hp
      refine ⟨M, hM, hst, fun h0 => h.lists.spare_remove hp h0 hs, ?_⟩
      obtain ⟨_, he⟩ | ⟨l, n, xs, ys, _, _, he⟩ := h.lists.removeFromScheduler_cases hp
      · rw [he]
      · rw [he, classifyProcess_eq_one, classifyProcess_eq_one]
        simp [MLFQ.removed, State.setSchedulerNode]
    case isFalse hn => exact ⟨L, h, id, fun _ => hs (.inr (by simpa using hn)), Iff.rfl⟩
  have hu : RealTime u M := hM.modifyProcess _ fun _ => rfl
  change ∃ M, RealTime (MLFQ.addToScheduler u p) M
  by_cases h0 : p = 0
  case pos =>
    rw [MLFQ.addToScheduler, if_pos (.inl h0)]
    exact ⟨M, hu⟩
  refine hu.addToScheduler (hspare h0) fun h1' hst' => h1 (hc.mp ?_) (hst hst')
  rw [classifyProcess_eq_one] at h1' ⊢
  simpa [u] using h1'

lemma RealTime.processBlocked (h : RealTime s L) (ha : KeepsRealTime s (.blocked p))
    (ht : processBlocked s p = .ok t) : ∃ M, RealTime t M := by
  obtain ⟨u, hu, ht⟩ := Except.of_bind ht
  obtain ⟨io, history, q, hio', rfl⟩ := countBlocked_eq hu
  have hc : RealTime (counted s p io history) L := h.modifyProcess _ fun _ => rfl
  have hc : RealTime { counted s p io history with quantumRemaining := q } L :=
    hc.congr rfl
  have hio : ioBoosted ((counted s p io history).processes p) = ioBoosted (s.processes p) := by
    rw [counted_self]
    rfl
  cases ht
  dsimp only
  rw [hio]
  split
  case isFalse => exact ⟨L, hc⟩
  case isTrue hb =>
    have hp : Placed s p := ha.placed p (by rw [Action.removes, if_pos hb]; rfl)
    have hp : Placed { counted s p io history with quantumRemaining := q } p :=
      hp.congr rfl rfl (by dsimp only; rw [counted_self]) (by dsimp only; rw [counted_self])
    refine hc.boostBlocked hp (fun hn => ha.spare ⟨hb, ?_⟩) fun h1 hst => ha.interactive ⟨hb, ?_⟩ hst
    · dsimp only at hn
      rwa [counted_self] at hn
    · rw [classifyProcess_eq_one] at h1 ⊢
      dsimp only at h1
      rwa [counted_self, hio'] at h1

lemma RealTime.reclaim (h : RealTime s L) : RealTime (reclaim s p) L := by
  have hs : RealTime (s.setProcess p {}) L := h.setProcess (.inr rfl)
  unfold MLFQ.reclaim freeSlotFast
  dsimp only
  split
  · exact hs.congr rfl
  · exact hs.congr rfl

lemma classifyProcess_initProcess : classifyProcess (initProcess s pid entryPoint privilege flags stack) ≠ 1 := by
  rw [ne_eq, classifyProcess_eq_one]
  exact fun h => absurd h.2 (by simp [initProcess])

lemma RealTime.create (h : RealTime s L) (hs : Spare s) :
    ∃ M, RealTime (MLFQ.addToScheduler (enroll { s.locked with activeProcessBitmap := slots } p pid
      entryPoint privilege flags stack) p) M := by
  have h' : RealTime { s.locked with
      activeProcessBitmap := slots
      pidBitmap := s.pidBitmap.set pid
      processCount := s.processCount + 1 } L := h.congr rfl
  refine RealTime.addToScheduler (h'.setProcess (.inr rfl)) hs fun h1 => absurd h1 ?_
  unfold enroll
  rw [State.setProcess_self]
  exact classifyProcess_initProcess

lemma RealTime.exec (h : RealTime s L) (hk : s.schedulerLock = false)
    (ha : KeepsRealTime s a) (ht : exec astra s a = .ok t) : ∃ M, RealTime t M := by
  refine exec_rule (P := fun t => ∃ M, RealTime t M) hk ht ⟨L, h⟩ ?frame ?retired ?create ?schedule ?blocked
    ?reclaim
  case frame =>
    rintro _ _ ⟨M, hM⟩ hc _
    exact ⟨M, hM.congr (congrArg Prod.fst hc)⟩
  case retired =>
    intro p u v hp _ hr
    have h' : RealTime { s with securityViolationCount := v, schedulerLock := true } L := h.congr rfl
    exact h'.retired (ha.placed p hp) hr
  case create =>
    rintro _ _ _ _ _ _ _ rfl hd hf _
    obtain ⟨_, _, rfl⟩ := findFreeSlotFast_eq_some hf
    exact h.create (ha.spare hd)
  case schedule =>
    rintro _ r rfl hr
    exact h.schedule hk ha hr
  case blocked =>
    rintro _ _ rfl hb
    exact h.processBlocked ha hb
  case reclaim =>
    rintro _ _ _ ⟨M, hM⟩
    exact ⟨M, hM.reclaim⟩

lemma RealTime.schedInit (apicTicks : UInt32) : RealTime (schedInit apicTicks) fun _ => [] := by
  refine ⟨(lists_schedInit apicTicks).1, fun {i} hi => ?_, fun _ h => absurd rfl h, rfl, fun _ _ => rfl⟩
  change (0b111 : BitVec 32).getLsbD i = true at hi
  by_contra hn
  unfold rtPriorityThreshold at hn
  have hlt := BitVec.lt_of_getLsbD hi
  interval_cases i <;> simp at hi

lemma Run.realTime (h : Run astra KeepsRealTime s) : ∃ L, RealTime s L := by
  refine (h.invariant (P := fun s => (∃ L, RealTime s L) ∧ s.schedulerLock = false) ?_ ?_).1
  · rintro _ ⟨apicTicks, rfl⟩
    exact ⟨⟨_, .schedInit apicTicks⟩, rfl⟩
  · rintro s a t ⟨⟨L, hL⟩, hk⟩ ha ht
    exact ⟨hL.exec hk ha ht, exec_unlocked hk ht⟩

-- If a process waits in a real-time queue, the first queue that holds a process is found.
theorem Run.real_time_first (h : Run astra KeepsRealTime s)
    (hl : ∃ l : Level, l.val < rtPriorityThreshold ∧ (s.queues l).head ≠ none) :
    ∃ b : Level, findBestQueue s = some b ∧ (s.queues b).head ≠ none ∧
      ∀ k < b, (s.queues k).head = none := by
  obtain ⟨L, hL⟩ := h.realTime
  obtain ⟨l, hrt, hne⟩ := hl
  obtain ⟨b, hb, hbne, hlt⟩ := hL.findBestQueue hrt (hL.lists.head_eq_none.not.mp hne)
  exact ⟨b, hb, hL.lists.head_eq_none.not.mpr hbne, fun k hk => hL.lists.head_eq_none.mpr (hlt k hk)⟩

-- Of two critical processes, one has been selected, and the other one waits in the first queue.
theorem Run.real_time_first_critical : ∃ s, Run true KeepsRealTime s ∧ s.currentRunning = 1 ∧
    (s.queues 4).head ≠ none ∧ ∃ b : Level, findBestQueue s = some b ∧ (s.queues b).head ≠ none ∧
      ∀ k < b, (s.queues k).head = none := by
  obtain ⟨s, hs, hc, h4, h0⟩ := (Machine.Run.init ⟨0, rfl⟩ : Run true KeepsRealTime _).exists_of_all
    (l := [.create 0x1000 0 2 0x8000, .create 0x2000 0 2 0x9000, .create 0x3000 1 0 0xa000,
      .schedule {}])
    (P := fun s => s.currentRunning = 1 ∧ (s.queues 4).head ≠ none ∧ (s.queues 0).head ≠ none)
    (by decide +kernel)
  exact ⟨s, hs, hc, h4, Run.real_time_first hs ⟨0, by decide, h0⟩⟩

-- Of three processes, two are promoted to the first queue. One of them is selected and the other one is
-- killed there. When the third is promoted too, the first queue does not count as one for real time any
-- more.
def demoted : List Action :=
  [.create 0x1000 1 0 0x8000, .create 0x2000 1 0 0x9000, .create 0x3000 1 0 0xa000] ++
    List.replicate 29 (.schedule {}) ++ .terminate 3 .killed 1 ::
    List.replicate 29 (.schedule {}) ++ [.create 0x4000 1 0 0xb000, .schedule {}]

-- The first queue is found after its only process has been selected, although another process waits in
-- the second queue. The last queue is found although a process that was promoted waits in the first.
theorem real_time_passed_over :
    (∃ s, [.create 0x1000 0 2 0x8000, .schedule {}, .create 0x2000 1 0 0x9000, .blocked 2,
        .blocked 2].foldlM (exec true) (schedInit 0) = .ok s ∧
      findBestQueue s = some 0 ∧ (s.queues 0).head = none ∧ (s.queues 1).head ≠ none) ∧
    ∃ s, demoted.foldlM (exec true) (schedInit 0) = .ok s ∧
      findBestQueue s = some 4 ∧ (s.queues 0).head ≠ none :=
  ⟨Machine.exists_exec (P := fun s : State => findBestQueue s = some 0 ∧ (s.queues 0).head = none ∧
      (s.queues 1).head ≠ none) (by decide +kernel),
    Machine.exists_exec (P := fun s : State => findBestQueue s = some 4 ∧ (s.queues 0).head ≠ none)
      (by decide +kernel)⟩

end MLFQ
