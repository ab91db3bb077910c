import VoidFrame.Sched.EEVDF.Theorems.Slice
import VoidFrame.Sched.EEVDF.Theorems.VirtualTime

-- What a process is charged for the time that it has run.

namespace EEVDF

variable {s t : State} {p q : Slot} {regs : Registers}

-- The share of a process of the given weight in `delta` nanoseconds.
def fairCharge (delta weight : Nat) : Nat :=
  delta * (1024 * 65536 / weight) / 65536

lemma fairCharge_anti (delta : Nat) (hw : 0 < w) (h : w ≤ w') :
    fairCharge delta w' ≤ fairCharge delta w := by
  unfold fairCharge
  gcongr

lemma niceToWeight_mem (nice : Int) : niceToWeight nice ∈ niceToWeightTable := by
  have hlt : (clampNice nice - minNice).toNat < niceToWeightTable.length := by
    simp only [clampNice, minNice, maxNice, niceToWeightTable, List.length_cons, List.length_nil]
    grind
  unfold niceToWeight
  rw [List.getD_eq_getElem _ _ hlt]
  exact List.getElem_mem hlt

def divisor (lw : UInt32) : Nat :=
  if lw = 0 then 1024 else lw.toNat

-- The product does not wrap for times below `2 ^ 38`.
lemma calcDelta_toNat (h : delta.toNat < 2 ^ 38) :
    (calcDelta delta nice0Load lw).toNat = fairCharge delta.toNat (divisor lw) := by
  have hlw : (if lw = 0 then nice0Load else lw).toNat = divisor lw := by
    unfold divisor
    split <;> rfl
  have hfact : ((nice0Load <<< 16) / (if lw = 0 then nice0Load else lw)).toUInt64.toNat =
      1024 * 65536 / divisor lw := by
    rw [UInt32.toNat_toUInt64, UInt32.toNat_div, hlw]
    rfl
  have hle : 1024 * 65536 / divisor lw ≤ 2 ^ 26 := Nat.div_le_self ..
  unfold calcDelta fairCharge
  dsimp only
  generalize ((nice0Load <<< 16) / (if lw = 0 then nice0Load else lw)).toUInt64 = fact at hfact
  rw [UInt64.toNat_shiftRight, UInt64.toNat_mul, hfact, Nat.shiftRight_eq_div_pow]
  generalize 1024 * 65536 / divisor lw = k at hle
  have hlt : delta.toNat * k < 2 ^ 64 := by nlinarith
  rw [Nat.mod_eq_of_lt hlt]
  rfl

lemma rbInsert_vruntime : (rbInsert s p).Returns fun t =>
    (t.processes q).vruntime = (s.processes q).vruntime := by
  unfold rbInsert
  split
  case isTrue => exact .error
  split
  case h_1 => exact .ok rfl
  case h_2 i s1 ha =>
    obtain ⟨_, he⟩ : Evolves s s1 ∧ s1.processes = s.processes := allocRBNode_evolves.of_eq ha
    refine .skip fun _ => .ok ?_
    rw [State.setRq_processes, State.setRbNode_vruntime, he]

lemma enqueueTask_vruntime (hr : (s.processes p).state = .ready) :
    (enqueueTask s (some p)).Returns fun t => (t.processes p).vruntime.toNat =
      max (s.processes p).vruntime.toNat s.rq.minVruntime.toNat := by
  simp only [enqueueTask, hr, ne_eq, not_true_eq_false, ↓reduceIte]
  refine .skip fun slice => (rbInsert_vruntime (q := p)).mono fun t ht => ?_
  rw [ht]
  simp only [State.setRq_processes, State.modifyProcess_processes_self]
  unfold raiseVruntime
  split
  case isTrue h =>
    rw [UInt64.lt_iff_toNat_lt] at h
    simp only [State.modifyProcess_processes_self]
    omega
  case isFalse h =>
    rw [UInt64.lt_iff_toNat_lt] at h
    omega

def State.ran (s : State) (p : Slot) : UInt64 :=
  s.getNS - (s.processes p).execStart

-- The virtual runtime up to which the process is moved, should it be behind. An empty run queue moves
-- no process.
def State.floor (s : State) (p : Slot) : UInt64 :=
  if s.ran p = 0 then s.rq.minVruntime
  else match s.rq.leftmost with
    | some node => (s.processes (s.rq.tree.val node)).vruntime
    | none => 0

-- What the process is charged, by the code.
def State.charge (s : State) (p : Slot) : UInt64 :=
  calcDelta (s.ran p) nice0Load s.rq.loadWeight

lemma calcDelta_zero : calcDelta 0 weight lw = 0 := by
  simp [calcDelta]

-- The variables stand for values of the clock.
lemma account_charge (hq : HasQueue s) (hn : (s.processes p).rbNode = none)
    (ht : updateMinVruntime (s.modifyProcess p (·.account now delta fair)) p = t) :
    (t.processes p).vruntime = (s.processes p).vruntime + fair ∧
    t.rq.minVruntime = match s.rq.leftmost with
      | some node => (s.processes (s.rq.tree.val node)).vruntime
      | none => (t.processes p).vruntime := by
  subst ht
  have hv : ((s.modifyProcess p (·.account now delta fair)).processes p).vruntime =
      (s.processes p).vruntime + fair := by
    simp [ProcessControlBlock.account]
  refine ⟨hv, ?_⟩
  unfold updateMinVruntime
  dsimp only [State.setRq_rq, State.modifyProcess_rq, State.setRq_processes]
  rcases hl : s.rq.leftmost with _ | i
  · rfl
  have hne : s.rq.tree.val i ≠ p := fun h => by simpa [h, hn] using hq.leftmost_queued hl
  simp only [State.modifyProcess_processes_of_ne hne]

lemma updateCurr_charge (hq : HasQueue s) (hn : (s.processes p).rbNode = none)
    (ht : updateCurr s p = t) :
    (t.processes p).vruntime = (s.processes p).vruntime + s.charge p ∧
    max (t.processes p).vruntime.toNat t.rq.minVruntime.toNat =
      max (t.processes p).vruntime.toNat (s.floor p).toNat := by
  rw [updateCurr_eq rfl rfl] at ht
  change (if s.ran p = 0 then s else _) = t at ht
  unfold State.floor
  split at ht
  case isTrue hz =>
    subst ht
    rw [if_pos hz]
    refine ⟨?_, rfl⟩
    rw [State.charge, hz, calcDelta_zero, UInt64.add_zero]
  case isFalse hz =>
    rw [if_neg hz]
    obtain ⟨hv, hm⟩ := account_charge hq hn ht
    refine ⟨hv, ?_⟩
    rw [hm]
    cases s.rq.leftmost
    case some => rfl
    case none => simp

lemma yield_eq (ht : (sisUpdateSeal (s.modifyProcess p fun pcb => { pcb with state := .ready })
      p).markReady p = t) :
    (t.processes p).state = .ready ∧ (t.processes p).vruntime = (s.processes p).vruntime ∧
      (t.processes p).rbNode = (s.processes p).rbNode ∧ t.rq = s.rq := by
  subst ht
  simp [State.markReady, sisUpdateSeal]

lemma State.modifyProcess_getNS : (s.modifyProcess p f).getNS = s.getNS := rfl

lemma save_eq (ht : s.modifyProcess p (fun pcb => { pcb with context := regs }) = t) :
    t.charge p = s.charge p ∧ t.floor p = s.floor p ∧
      (t.processes p).vruntime = (s.processes p).vruntime ∧
      (t.processes p).state = (s.processes p).state := by
  subst ht
  have hran : (s.modifyProcess p fun pcb => { pcb with context := regs }).ran p = s.ran p := by
    simp only [State.ran, State.modifyProcess_getNS, State.modifyProcess_processes_self]
  have hv q : ((s.modifyProcess p fun pcb => { pcb with context := regs }).processes q).vruntime =
      (s.processes q).vruntime := State.modifyProcess_field (·.vruntime) fun _ => rfl
  refine ⟨?_, ?_, hv p, by simp⟩
  · simp only [State.charge, hran, State.modifyProcess_rq]
  · simp only [State.floor, hran, hv, State.modifyProcess_rq]

lemma stopCurrent_charge (hq : HasQueue s) (hp : p ≠ 0) (hr : (s.processes p).state = .running)
    (hs : sisVerifyPCB s p = true) (he : stopCurrent s regs p = .ok t) :
    (t.processes p).state = .ready ∧ ((t.processes p).rbNode = none →
      (t.processes p).vruntime = (s.processes p).vruntime + s.charge p ∧
      max (t.processes p).vruntime.toNat t.rq.minVruntime.toNat =
        max (t.processes p).vruntime.toNat (s.floor p).toNat) := by
  unfold stopCurrent at he
  rw [if_neg (by simp [hr, ProcessState.Dead])] at he
  obtain ⟨⟨ok, u⟩, he1, he2⟩ := Except.of_bind he
  obtain ⟨_, _, ⟨rfl, _, rfl⟩ | ⟨_, hns, _⟩⟩ := postflightCheck_refines hq hp he1
  case inr => exact absurd (sisVerifyPCB_iff.mp hs) hns
  dsimp only at he2
  rw [if_neg (by simp)] at he2
  generalize hu1 : u.modifyProcess p (fun pcb => { pcb with context := regs }) = u1 at he2
  have hq1 : HasQueue u1 := hu1 ▸ hq.modifyProcess (fun _ => rfl) fun _ => rfl
  obtain ⟨hcharge, hfloor, hv1, hst1⟩ := save_eq hu1
  have htab : (updateCurr u1 p).table = u1.table := updateCurr_table
  generalize hu2 : updateCurr u1 p = u2 at he2 htab
  rw [if_pos ((state_of_table htab).trans (hst1.trans hr))] at he2
  obtain ⟨hst, hv, hn2, hrq⟩ := yield_eq (Except.ok.inj he2)
  refine ⟨hst, fun hn => ?_⟩
  have hn1 : (u1.processes p).rbNode = none := by
    have hsome := isSome_rbNode_of_table (p := p) htab
    rw [← hn2, hn] at hsome
    simpa using hsome.symm
  obtain ⟨hc, hm⟩ := updateCurr_charge hq1 hn1 hu2
  rw [hcharge, hv1] at hc
  rw [hfloor] at hm
  exact ⟨hv.trans hc, by rw [hv, hrq, hm]⟩

-- A tick stops the current process, which runs and is sealed, and enqueues it again. The rest of the
-- tick starts from `t`.
structure Preempts (s : State) (regs : Registers) (t : State) : Prop where
  queue : HasQueue s
  busy : s.rq.currentSlot ≠ 0
  running : (s.processes s.rq.currentSlot).state = .running
  sealed : sisVerifyPCB s s.rq.currentSlot = true
  preempt : preempt s.countCall regs s.rq.currentSlot = .ok t

lemma Preempts.vruntime_eq (h : Preempts s regs t) :
    (t.processes s.rq.currentSlot).vruntime.toNat =
      max ((s.processes s.rq.currentSlot).vruntime + s.charge s.rq.currentSlot).toNat
        (s.floor s.rq.currentSlot).toNat := by
  obtain ⟨hq, hp, hr, hs, he⟩ := h
  generalize s.rq.currentSlot = p at hp hr hs he ⊢
  obtain ⟨s1, he1, he⟩ := Except.of_bind he
  obtain ⟨s2, he2, he⟩ := Except.of_bind he
  have ⟨hp2, hrq2⟩ : s2.processes = s1.processes ∧ s2.rq = s1.rq := by
    unfold State.lockRunqueue at he2
    split at he2 <;> cases he2
    exact ⟨rfl, rfl⟩
  have ⟨hst, hc⟩ := stopCurrent_charge (s := s.countCall) (hasQueue_countCall.mpr hq) hp hr hs he1
  rw [hp2, if_pos hst] at he
  have hn : (s1.processes p).rbNode = none := by
    rw [← hp2]
    exact rbNode_of_enqueueTask (by rw [State.table_state, hp2, hst]) he
  have ⟨hv, hm⟩ := hc hn
  have ht := (enqueueTask_vruntime (by rw [hp2, hst])).of_eq he
  rw [ht, hp2, hrq2, hm, hv]
  rfl

-- The factor of a weight in the inverse table of the source.
def factor (weight : Nat) : Nat :=
  1024 * 65536 / weight

-- Times of 65536 ns or more, which no tick is shorter than, tell two factors apart.
lemma fairCharge_eq_iff (hd : 2 ^ 16 ≤ delta) : fairCharge delta w = fairCharge delta w' ↔ factor w = factor w' := by
  unfold fairCharge factor
  generalize 1024 * 65536 / w = m
  generalize 1024 * 65536 / w' = n
  refine ⟨fun h => ?_, fun h => by rw [h]⟩
  have hlt {m n : Nat} (h : m < n) : delta * m / 65536 < delta * n / 65536 := by
    have : delta * m + delta ≤ delta * n := by
      rw [← Nat.mul_succ]
      exact Nat.mul_le_mul_left _ h
    omega
  by_contra hne
  rcases Nat.lt_or_gt_of_ne hne with h1 | h1
  · exact absurd h (hlt h1).ne
  · exact absurd h (hlt h1).ne'

lemma fairCharge_le (hd : delta < 2 ^ 38) (w : Nat) : fairCharge delta w ≤ 2 ^ 48 := by
  unfold fairCharge
  have hle : 1024 * 65536 / w ≤ 2 ^ 26 := Nat.div_le_self ..
  have : delta * (1024 * 65536 / w) ≤ 2 ^ 38 * 2 ^ 26 := Nat.mul_le_mul hd.le hle
  omega

-- The weights of the processes that wait (or 1024, if there are none) have the factor of the own weight, unless
-- the process has not run for as long as a tick and the two charges agree.
def SameFactor (s : State) (p : Slot) : Prop :=
  factor (divisor s.rq.loadWeight) = factor (niceToWeight (s.processes p).nice).toNat ∨
    (s.ran p).toNat < 2 ^ 16 ∧ fairCharge (s.ran p).toNat (divisor s.rq.loadWeight) =
      fairCharge (s.ran p).toNat (niceToWeight (s.processes p).nice).toNat

def due (s : State) (p : Slot) : Nat :=
  (s.processes p).vruntime.toNat + fairCharge (s.ran p).toNat (niceToWeight (s.processes p).nice).toNat

-- The process is not behind the first one that waits, and is charged by its own weight. (If it waited for others
-- of more weight, it can also happen to be moved up to where it belongs.)
structure Proportional (s : State) (p : Slot) : Prop where
  floor : (s.floor p).toNat ≤ due s p
  weight : SameFactor s p ∨ (s.floor p).toNat = due s p ∧
    factor (divisor s.rq.loadWeight) < factor (niceToWeight (s.processes p).nice).toNat

lemma sameFactor_iff : SameFactor s p ↔ fairCharge (s.ran p).toNat (divisor s.rq.loadWeight) =
    fairCharge (s.ran p).toNat (niceToWeight (s.processes p).nice).toNat := by
  constructor
  · rintro (h | h)
    · unfold factor at h
      unfold fairCharge
      rw [h]
    · exact h.2
  · intro h
    by_cases hd : 2 ^ 16 ≤ (s.ran p).toNat
    · exact .inl ((fairCharge_eq_iff hd).mp h)
    · exact .inr ⟨Nat.lt_of_not_le hd, h⟩

lemma fairCharge_mono (h : factor w ≤ factor w') : fairCharge delta w ≤ fairCharge delta w' :=
  Nat.div_le_div_right (Nat.mul_le_mul_left delta h)

lemma proportional_iff : Proportional s p ↔
    max ((s.processes p).vruntime.toNat + fairCharge (s.ran p).toNat (divisor s.rq.loadWeight)) (s.floor p).toNat =
      due s p := by
  have hsame := sameFactor_iff (s := s) (p := p)
  unfold due at *
  constructor
  · rintro ⟨hfloor, hs | ⟨he, hlt⟩⟩
    · rw [hsame.mp hs]
      exact max_eq_left hfloor
    · rw [he]
      exact max_eq_right (Nat.add_le_add_left (fairCharge_mono hlt.le) _)
  · intro h
    refine ⟨(le_max_right _ _).trans_eq h, ?_⟩
    by_cases hs : SameFactor s p
    · exact .inl hs
    have hne := mt hsame.mpr hs
    have hle := (le_max_left _ _).trans_eq h
    refine .inr ⟨?_, Nat.lt_of_not_le fun hf => hne (Nat.le_antisymm (Nat.le_of_add_le_add_left hle) ?_)⟩
    · have := max_choice ((s.processes p).vruntime.toNat + fairCharge (s.ran p).toNat (divisor s.rq.loadWeight))
        (s.floor p).toNat
      unfold due
      omega
    · exact fairCharge_mono hf

-- The clock does not wrap the virtual runtime.
lemma Preempts.vruntime_due (h : Preempts s regs t) (hd : (s.ran s.rq.currentSlot).toNat < 2 ^ 38)
    (hv : (s.processes s.rq.currentSlot).vruntime.toNat + 2 ^ 48 < 2 ^ 64) :
    (t.processes s.rq.currentSlot).vruntime.toNat = due s s.rq.currentSlot ↔ Proportional s s.rq.currentSlot := by
  have he := h.vruntime_eq
  generalize s.rq.currentSlot = p at hv hd he ⊢
  have hcharge : (s.charge p).toNat = fairCharge (s.ran p).toNat (divisor s.rq.loadWeight) :=
    calcDelta_toNat hd
  have hle := fairCharge_le hd (divisor s.rq.loadWeight)
  have hsum : ((s.processes p).vruntime + s.charge p).toNat =
      (s.processes p).vruntime.toNat + fairCharge (s.ran p).toNat (divisor s.rq.loadWeight) := by
    rw [UInt64.toNat_add, hcharge]
    exact Nat.mod_eq_of_lt (by omega)
  rw [he, hsum, proportional_iff]

instance decidableSameFactor {s : State} {p : Slot} : Decidable (SameFactor s p) :=
  inferInstanceAs (Decidable (_ ∨ _))

instance decidableProportional {s : State} {p : Slot} : Decidable (Proportional s p) :=
  decidable_of_iff (_ ∧ _) ⟨fun h => ⟨h.1, h.2⟩, fun h => ⟨h.floor, h.weight⟩⟩

lemma Run.exists_preempts {l : List Action} {P : State → Prop} [DecidablePred P] (v : UInt64)
    (h : (l.foldlM (fun s a => if OnTime s a then (exec s a).toOption else none)
      (schedInit 0 250)).any (fun s => decide (s.rq.currentSlot = 1 ∧ (s.processes 1).state = .running ∧
        sisVerifyPCB s 1 = true ∧ P s ∧ ((preempt s.countCall {} 1).toOption.any fun t =>
          (t.processes 1).vruntime = v) = true)) = true) :
    ∃ s t, Run OnTime s ∧ s.rq.currentSlot = 1 ∧ P s ∧ Preempts s {} t ∧
      (t.processes 1).vruntime = v := by
  obtain ⟨s, hs, hc, hr, hv, hP, ht⟩ := (Run.init 0 250 : Run OnTime _).exists_of_all h
  rcases he : preempt s.countCall {} 1 with e | t
  · simp [he, Except.toOption] at ht
  have ht : (t.processes 1).vruntime = v := by simpa [he, Except.toOption] using ht
  have h0 : s.rq.currentSlot ≠ 0 := by rw [hc]; decide
  exact ⟨s, t, hs, hc, hP, ⟨hs.paced.1.1.queue, h0, by rw [hc, hr], by rw [hc, hv], by rw [hc, he]⟩, ht⟩

end EEVDF
