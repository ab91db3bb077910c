import VoidFrame.Sched.EEVDF.Theorems.Refinement

-- The processes that wait for the processor.

namespace EEVDF

namespace Table

variable {t t' : Table} {p q : Slot} {pid : UInt32} {c : Choice} {a : Action}
  {regs regs' : Registers} {entry stack : UInt64} {priv : UInt8} {caps : BitVec 64}

-- The run queue holds the ready processes, apart from the current one.
def Listed (t : Table) : Prop :=
  ∀ p, p ≠ 0 → (t.queued p = true ↔ t.state p = .ready ∧ p ≠ t.current)

-- The run queue holds all ready processes.
def Waiting (t : Table) : Prop :=
  ∀ p, p ≠ 0 → (t.queued p = true ↔ t.state p = .ready)

lemma Waiting.retire (h : Waiting t) : Waiting (t.retire p) := by
  intro q hq
  by_cases hqp : q = p
  · simp [hqp]
  · simpa [hqp] using h q hq

lemma Waiting.dispatch (h : Waiting t) (hd : Dispatch t p t') : Listed (t'.setCurrent p) := by
  intro q hq
  cases hd
  case empty => simpa [hq] using h q hq
  case skip => simpa [hq] using h q hq
  case take _ hr =>
    by_cases hqp : q = p
    · simp [hqp]
    · simpa [hqp] using h q hq

namespace Listed

lemma retire (h : Listed t) : Listed (t.retire p) := by
  intro q hq
  by_cases hqp : q = p
  · simp [hqp]
  · simpa [hqp] using h q hq

lemma asTerminate (h : Listed t) : Listed (t.asTerminate pid) := by
  unfold Table.asTerminate
  cases t.find pid
  case none => exact h
  case some p => exact h.retire

lemma kill (h : Listed t) : Listed (t.kill pid) := by
  unfold Table.kill
  split
  · exact h
  · split
    · exact h
    · split
      · exact h.asTerminate
      · exact h.retire

lemma enter (h : Listed t) : Listed (t.enter t.current st) := by
  intro q hq
  by_cases hqp : q = t.current
  · simpa [hqp] using h q hq
  · simpa [hqp] using h q hq

lemma save (h : Listed t) : Listed (t.save p regs) :=
  fun q hq => by simpa using h q hq

lemma stop (h : Listed t) : Listed (t.stop regs) := by
  unfold Table.stop
  dsimp only
  split
  · exact h
  · split
    · exact h.asTerminate
    · split
      · exact h.save.enter
      · exact h.save

lemma requeue (h : Listed t) : Waiting t.requeue := by
  intro q hq
  unfold Table.requeue
  split
  case isTrue hr =>
    by_cases hqp : q = t.current
    · simp [hqp, hr]
    · simpa [hqp] using h q hq
  case isFalse hr =>
    by_cases hqp : q = t.current
    · simpa [hqp, hr] using h q hq
    · simpa [hqp] using h q hq

lemma waiting (h : Listed t) (h0 : t.current = 0) : Waiting t := by
  intro q hq
  simpa [h0, hq] using h q hq

-- A process that is refused leaves the run queue, and so it must be the one that is terminated.
lemma tick (h : Listed t) (ht : Tick pick regs t p t')
    (hf : t.current = 0 → ∀ q, pick = some q → t.Admits q ∨ t.find (t.process q).pid = some q) :
    Listed (t'.setCurrent p) := by
  cases ht
  case preempt hd => exact h.stop.requeue.dispatch hd
  case idle h0 hd => exact (h.waiting h0).dispatch hd
  case refuse q h0 hq _ ha hd =>
    refine Waiting.dispatch ?_ hd
    have hf := (hf h0 q hq).resolve_left ha
    have hw := (h.waiting h0).retire (p := q)
    intro r hr
    rw [Table.asTerminate, hf]
    by_cases hrq : r = q
    · simp [hrq]
    · simpa [hrq] using hw r hr

lemma resume (h : Listed (t.setCurrent p)) (hr : Resume t regs p regs' t') : Listed t' := by
  cases hr
  case idle => exact h
  case stay => exact h
  case run => exact h.enter

lemma clear (h : Listed t) : Listed (t.clear p) := by
  intro q hq
  have hc : (t.clear p).current = t.current := rfl
  by_cases hqp : q = p
  · simp [hqp]
  · simpa [hqp, hc] using h q hq

lemma create (h : Listed t) (hv : Valid t)
    (hc : t.current ≠ 0 → t.state t.current ≠ .terminated) (hp : Create entry priv caps stack t t') :
    Listed t' := by
  cases hp
  case intro p n i k hi =>
    intro q hq
    have hcur : (t.install p n i k).current = t.current := rfl
    rw [hcur]
    by_cases hqp : q = p
    · have hpc : p ≠ t.current := by
        rintro rfl
        exact hc hi.slot (hv.free _ hi.free)
      have hs : (t.install p n i k).state p = .ready := by simpa [install, state] using hi.state
      simp [hqp, install_queued, hs, hpc]
    · simpa [hqp, install_queued, install_state_of_ne] using h q hq

end Listed

-- What the table shows as long as the current process is not cleaned up.
structure Lively (t : Table) : Prop extends Valid t where
  listed : Listed t
  current : t.current ≠ 0 → t.state t.current ≠ .terminated
  idle : t.active.getLsbD (0 : Slot) = true

lemma clear_active_zero : (t.clear p).active.getLsbD (0 : Slot) = t.active.getLsbD (0 : Slot) := by
  by_cases hp : p = 0
  · simp [hp, clear]
  · exact clear_active_of_ne (Ne.symm hp)

lemma Cleaned.active_zero (hc : Cleaned n t t') (ha : t.active.getLsbD (0 : Slot) = true) :
    t'.active.getLsbD (0 : Slot) = true :=
  hc.rule (I := fun t => t.active.getLsbD (0 : Slot) = true) id
    (fun ha _ => clear_active_zero.trans ha) ha

namespace Lively

-- The current process cannot be terminated and cleaned up in the same tick.
lemma schedule (h : Lively t) (hs : Schedule c regs t regs' t')
    (hf : t.current = 0 → ∀ q, c.pick = some q → t.Admits q ∨ t.find (t.process q).pid = some q) :
    Lively t' := by
  have hv := h.toValid.step (.schedule hs) (by simp)
  cases hs
  case intro p t1 t2 ht hr hc hn =>
    have hm : Moves t t2 := (Moves.tick ht).trans (Moves.resume hr fun h0 => (ht.taken h0).1)
    have hl2 := (h.listed.tick ht hf).resume hr
    have ha2 : t2.active.getLsbD (0 : Slot) = true := hm.active_eq ▸ h.idle
    have hp2 (h0 : p ≠ 0) : ¬(t2.state p).Dead := by
      have hp1 : ¬(t1.state p).Dead := by simp [(ht.taken h0).1, ProcessState.Dead]
      cases hr
      case idle => contradiction
      case stay => exact hp1
      case run => simp [ProcessState.Dead]
    cases hd : c.due
    case false =>
      obtain rfl := hn hd
      refine ⟨hv, hl2, fun h0 hd => ?_, ha2⟩
      rw [hr.current] at h0 hd
      exact hp2 h0 (.inr (.inr hd))
    case true =>
      have hc := hc hd
      refine ⟨hv, hc.rule id (fun h _ => h.clear) hl2, fun h0 hd => ?_, hc.active_zero ha2⟩
      rw [hc.current, hr.current] at h0 hd
      exact hc.alive (hp2 h0) (.inr (.inr hd))

lemma keep (h : Lively t) (hv : Valid t') (hl : Listed t') (hc : t'.current = t.current)
    (hp : ∀ p, t.state p ≠ .terminated → t'.state p ≠ .terminated)
    (ha : t.active.getLsbD (0 : Slot) = true → t'.active.getLsbD (0 : Slot) = true) : Lively t' :=
  ⟨hv, hl, fun h0 => hc ▸ hp _ (h.current (hc ▸ h0)), ha h.idle⟩

lemma setState (h : Lively t) (hv : Valid (t.setState p st))
    (hl : Listed (t.setState p st)) (hst : st ≠ .terminated) : Lively (t.setState p st) := by
  refine h.keep hv hl rfl (fun q hq => ?_) id
  rw [setState_state]
  split
  · exact hst
  · exact hq

-- Neither a message nor a wakeup may make a process ready behind the back of the run queue.
lemma step (h : Lively t) (hs : Step c t a t')
    (schedule : ∀ {regs}, a = .schedule regs → t.current = 0 →
      ∀ q, c.pick = some q → t.Admits q ∨ t.find (t.process q).pid = some q)
    (wakeup : ∀ {p}, a = .wakeup (some p) → t.state p = .blocked → p ≠ 0 → p ≠ t.current)
    (send : ∀ {pid msg p}, a = .send pid (some msg) → t.find pid = some p →
      t.state p = .blocked → c.room p msg.priority = true → p = 0)
    (cleanup : a ≠ .cleanup) : Lively t' := by
  have hact : t.active.getLsbD t.current = true := by
    by_cases h0 : t.current = 0
    · exact h0 ▸ h.idle
    · exact h.active (h.current h0)
  have hcur (h0 : t.current ≠ 0) : t.queued t.current = false :=
    Bool.eq_false_iff.mpr fun hq => ((h.listed _ h0).mp hq).2 rfl
  have hv := h.toValid.step hs fun _ _ => ⟨hact, hcur⟩
  cases hs
  case create hc =>
    refine h.keep hv (h.listed.create h.toValid h.current hc) hc.current (fun q hq => ?_) fun ha => ?_
    · cases hc
      case intro p n i k hi =>
        have hqp : q ≠ p := fun hqp => hq (hqp ▸ h.free p hi.free)
        rwa [install_state_of_ne hqp]
    · cases hc
      rw [install_active, ha, Bool.true_or]
  case schedule hs => exact h.schedule hs (schedule rfl)
  case kill => exact h.keep hv h.listed.kill kill_current (fun _ => kill_present) (kill_active ▸ id)
  case killCurrent =>
    have hm : Moves t (t.asTerminate (t.process t.current).pid) := Moves.asTerminate
    exact h.keep hv h.listed.asTerminate asTerminate_current (fun _ => hm.present) (hm.active_eq ▸ id)
  case killAll =>
    generalize List.finRange maxProcesses = l at hv ⊢
    have hm : Moves t (t.purge l) := Moves.purge
    exact h.keep hv (purge_rule Listed.asTerminate _ h.listed) purge_current (fun _ => hm.present)
      (hm.active_eq ▸ id)
  case wakeup p hp _ =>
    refine h.keep hv (fun q hq => ?_) rfl (fun q hq => ?_) id
    · by_cases hqp : q = p
      · have hne : p ≠ t.current := wakeup rfl hp (hqp ▸ hq)
        simp [hqp, hne]
      · simpa [hqp] using h.listed q hq
    · by_cases hqp : q = p
      · simp [hqp]
      · simpa [hqp] using hq
  case awake => exact h
  case cleanup => exact absurd rfl cleanup
  case resume p hf hp hm =>
    obtain rfl := send rfl hf hp hm
    refine h.setState hv (fun q hq => ?_) (by simp)
    simpa [hq] using h.listed q hq
  case send => exact h
  case block =>
    refine h.setState hv (fun q hq => ?_) (by simp)
    by_cases hqc : q = t.current
    · simpa [hqc] using hcur (hqc ▸ hq)
    · simpa [hqc] using h.listed q hq
  case receive => exact h
  case clock => exact ⟨hv, h.listed, h.current, h.idle⟩

end Lively

end Table

variable {s s' : State} {p : Slot}

lemma schedInit_lively : (schedInit ticks hz).table.Lively where
  toValid := schedInit_valid
  listed p hp := by simp [schedInit_queued, schedInit_state, hp]
  current h0 := absurd rfl h0
  idle := by
    rw [schedInit_active]
    decide

-- The actions that do not lose a wakeup. No message is put into the queue of a process that waits for
-- one, no process is woken up while it is the current one, and the idle process does not refuse a
-- process in whose place another one with the same PID would be terminated. A process is cleaned up
-- only by a tick.
def KeepsListed (s : State) : Action → Prop
  | .schedule _ => s.rq.currentSlot = 0 → ∀ p, pickNext s = some p →
    p = 0 ∨ (sisVerifyPCB s p && privilegeCheck s p) = true ∨
      s.getCurrentProcessByPID (s.processes p).pid = some p
  | .wakeup (some p) => (s.processes p).state = .blocked → p ≠ 0 → p ≠ s.rq.currentSlot
  | .send pid (some m) => ∀ p, s.getCurrentProcessByPID pid = some p →
    (s.processes p).state = .blocked → ((s.processes p).ipcQueue.reserve m.priority).isSome → p = 0
  | .cleanup => False
  | _ => True

lemma Run.lively (hs : Run KeepsListed s) : Coherent s ∧ s.table.Lively := by
  refine hs.invariant (fun _ h => h.toValid) (fun _ _ => schedInit_lively) ?_
  intro s a t hc h ha ht
  refine h.step ht ?_ ?_ ?_ ?_
  · rintro _ rfl h0 q hq
    rcases ha h0 q hq with h0 | hv | hf
    · exact .inl (.inl h0)
    · rw [Bool.and_eq_true, sisVerifyPCB_iff, privilegeCheck_iff] at hv
      exact .inl (.inr hv)
    · exact .inr hf
  · rintro _ rfl
    exact ha
  · rintro _ _ _ rfl
    exact ha _
  · rintro rfl
    exact ha

lemma HasQueue.dequeue_all (hq : HasQueue s) (l : List Slot) :
    ∃ s', l.foldlM (fun s q => dequeueTask s (some q)) s = .ok s' ∧ HasQueue s' ∧
      ∀ q, s'.table.queued q = true ↔ s.table.queued q = true ∧ q ∉ l := by
  induction l generalizing s
  case nil => exact ⟨s, rfl, hq, by simp⟩
  case cons r l ih =>
    obtain ⟨s1, he1⟩ : ∃ s1, dequeueTask s (some r) = .ok s1 := by
      obtain ⟨_, _, _, hq⟩ := hq
      obtain ⟨s1, _, he1, _⟩ := hq.dequeueTask_ok (p := r)
      exact ⟨s1, he1⟩
    have ⟨hq1, ht1, _⟩ := dequeueTask_refines hq he1
    have ⟨s', he, hq', hs'⟩ := ih hq1
    refine ⟨s', Except.bind_eq_ok_iff.mpr ⟨s1, he1, he⟩, hq', fun q => ?_⟩
    rw [hs', ht1]
    simp only [Table.dequeue_queued, List.mem_cons, Bool.and_eq_true, Bool.not_eq_true',
      decide_eq_false_iff_not]
    tauto

lemma HasQueue.offered (hq : HasQueue s) (hp : s.table.queued p = true) :
    ∃ (l : List Slot) (s' : State),
      l.foldlM (fun s q => dequeueTask s (some q)) s = .ok s' ∧ pickNext s' = some p := by
  have ⟨s', he, hq', hs'⟩ := hq.dequeue_all ((List.finRange maxProcesses).filter (· ≠ p))
  refine ⟨_, s', he, ?_⟩
  rcases hn : pickNext s' with _ | q
  · have := hq'.pickNext_none hn p
    simp [Bool.eq_false_iff, hs', hp] at this
  have := (hs' q).mp (hq'.pickNext_some hn)
  simpa using this.2

-- A process other than the idle one is queued exactly if it is ready and not the current one, and
-- then the run queue can offer it.
theorem Run.queued_iff (hs : Run KeepsListed s) (hp : p ≠ 0) :
    ((s.processes p).rbNode.isSome ↔
      (s.processes p).state = .ready ∧ p ≠ s.rq.currentSlot) ∧
    ((s.processes p).state = .ready → p ≠ s.rq.currentSlot →
      ∃ (l : List Slot) (s' : State),
        l.foldlM (fun s q => dequeueTask s (some q)) s = .ok s' ∧ pickNext s' = some p) := by
  have ⟨hc, h⟩ := hs.lively
  have hl := h.listed p hp
  exact ⟨hl, fun hr hn => hc.queue.offered (hl.mpr ⟨hr, hn⟩)⟩

theorem Run.queued_iff_created :
    ∃ s, Run KeepsListed s ∧ (s.processes 1).state = .ready ∧ (s.processes 1).rbNode.isSome := by
  obtain ⟨s, he, hr, hc⟩ := exists_exec (s := schedInit 0 250)
    (l := [.create 0x1000 privNorm capNone 0x2000])
    (P := fun s => (s.processes 1).state = .ready ∧ s.rq.currentSlot = 0) (by decide +kernel)
  have hs : Run KeepsListed s := .of_exec (.init 0 250) (by simp [KeepsListed]) he
  exact ⟨s, hs, hr, (hs.queued_iff (by decide)).1.mpr ⟨hr, by simp [hc]⟩⟩

-- A process that waits for a message is still the current one. If it is woken up, it is queued. If a
-- message makes it ready, it is not queued, and the next tick terminates it.
theorem wakeup_of_current :
    (∃ s, [.create 0x1000 privNorm capNone 0x2000, .schedule {}, .receive, .wakeup (some 1)].foldlM exec
        (schedInit 0 250) = .ok s ∧
      (s.processes 1).rbNode.isSome ∧ s.rq.currentSlot = 1) ∧
    ∃ s s', [.create 0x1000 privNorm capNone 0x2000, .schedule {}, .receive,
        .send 1 (some default)].foldlM exec (schedInit 0 250) = .ok s ∧
      (s.processes 1).state = .ready ∧ exec s (.schedule {}) = .ok s' ∧
      (s'.processes 1).state = .zombie ∧ (s'.processes 1).rbNode = none := by
  constructor
  · exact exists_exec (P := fun s => (s.processes 1).rbNode.isSome ∧ s.rq.currentSlot = 1)
      (by decide +kernel)
  · obtain ⟨s, he, hr, ht⟩ := exists_exec (s := schedInit 0 250)
      (l := [.create 0x1000 privNorm capNone 0x2000, .schedule {}, .receive, .send 1 (some default)])
      (P := fun s => (s.processes 1).state = .ready ∧
        ((List.foldlM exec s [.schedule {}]).toOption.any fun s' =>
          (s'.processes 1).state = .zombie ∧ (s'.processes 1).rbNode = none) = true)
      (by decide +kernel)
    obtain ⟨s', he', hz⟩ := exists_exec ht
    have he' : exec s (.schedule {}) = .ok s' := by simpa using he'
    exact ⟨s, s', he, hr, he', hz⟩

-- The actions that keep the table valid: a process waits for a message only while its slot is taken and
-- it is not in the run queue.
def KeepsValid (s : State) : Action → Prop
  | .receive => (s.processes s.currentProcess).ipcQueue.count = 0 →
    s.activeBitmap.getLsbD s.rq.currentSlot = true ∧
    (s.rq.currentSlot ≠ 0 → (s.processes s.rq.currentSlot).rbNode.isSome = false)
  | _ => True

instance {s : State} : DecidablePred (KeepsValid s)
  | .receive => inferInstanceAs (Decidable (_ → _ ∧ (_ → _)))
  | .create _ _ _ _ | .schedule _ | .kill _ | .killCurrent | .killAll | .wakeup _ | .cleanup
  | .send _ _ | .clock _ _ => isTrue trivial

lemma KeepsValid.step (ha : KeepsValid s a) (hv : s.table.Valid) (ht : s.table.Step s.choice a t) :
    t.Valid := by
  refine hv.step ht ?_
  rintro rfl he
  exact ha (of_decide_eq_true he)

lemma Run.valid (hs : Run KeepsValid s) : Coherent s ∧ s.table.Valid :=
  hs.invariant (fun _ h => h) (fun _ _ => schedInit_valid) fun _ _ _ _ hv ha ht => ha.step hv ht

-- Every run of the kernel is a run of the table, and so is every way to go on with it.
theorem Run.refines_table (hs : Run KeepsValid s) :
    (∃ ticks hz, Relation.ReflTransGen (fun t t' : Table => ∃ c a, t.Step c a t')
      (schedInit ticks hz).table s.table) ∧
    ∀ a s', exec s a = .ok s' → s.table.Step s.choice a s'.table := by
  refine ⟨?_, fun a s' he => (exec_refines hs.valid.1 hs.valid.2 he).2⟩
  induction hs
  case init ticks hz => exact ⟨ticks, hz, .refl⟩
  case step s s' a hs _ he ih =>
    obtain ⟨ticks, hz, hr⟩ := ih
    exact ⟨ticks, hz, hr.tail ⟨s.choice, a, (exec_refines hs.valid.1 hs.valid.2 he).2⟩⟩

-- A process waits for a message and is woken up.
theorem Run.refines_table_woken : ∃ s s', Run KeepsValid s ∧ (s.processes 1).state = .blocked ∧
    exec s (.wakeup (some 1)) = .ok s' ∧ s.table.Step s.choice (.wakeup (some 1)) s'.table := by
  obtain ⟨s, hs, hb, hw⟩ := (Run.init 0 250 : Run KeepsValid _).exists_of_all
    (l := [.create 0x1000 privNorm capNone 0x2000, .schedule {}, .receive])
    (P := fun s => (s.processes 1).state = .blocked ∧ (exec s (.wakeup (some 1))).isOk = true)
    (by decide +kernel)
  cases he : exec s (.wakeup (some 1))
  case error e => simp [he, Except.isOk, Except.toBool] at hw
  case ok s' => exact ⟨s, s', hs, hb, he, (Run.refines_table hs).2 _ s' he⟩

end EEVDF
