import VoidFrame.Sched.EEVDF.Theorems.Seal

-- The registers of the processes.

namespace EEVDF

namespace Table

variable {t t' : Table} {p q : Slot} {pid : UInt32} {c : Choice} {a : Action} {pick : Option Slot}
  {regs regs' : Registers} {entry stack : UInt64} {priv : UInt8} {caps : BitVec 64}
  {frame : Slot → Registers}

-- The frame of each process, as an observer notes it down: it starts with its initial context, and
-- continues with the registers it had when it was last interrupted.
def track (t : Table) (frame : Slot → Registers) : Action → Slot → Registers
  | .create entry _ _ stack => Function.update frame t.freeSlot (initialContext entry stack)
  | .schedule regs =>
    if t.current ≠ 0 ∧ (t.state t.current).Alive then Function.update frame t.current regs else frame
  | _ => frame

-- The contexts of the living processes are their frames, and they can be restored. The idle process,
-- which has no context, is never queued.
structure Framed (frame : Slot → Registers) (t : Table) : Prop where
  idle : t.queued 0 = false
  idlePid : (t.process 0).pid = 0
  pid : ∀ p, p ≠ 0 → (t.state p).Alive → (t.process p).pid ≠ 0
  stack : ∀ p, p ≠ 0 → (t.state p).Alive → (t.process p).stack ≠ 0
  context : ∀ p, p ≠ 0 → (t.state p).Alive → (t.process p).context = frame p
  rip : ∀ p, p ≠ 0 → (t.state p).Alive → (frame p).rip ≠ 0

namespace Framed

lemma mono (h : Framed frame t) (hq : t'.queued 0 = false) (h0 : (t'.process 0).pid = (t.process 0).pid)
    (hp : ∀ p, p ≠ 0 → (t'.state p).Alive → (t.state p).Alive ∧ (t'.process p).pid = (t.process p).pid ∧
      (t'.process p).stack = (t.process p).stack ∧ (t'.process p).context = (t.process p).context) :
    Framed frame t' where
  idle := hq
  idlePid := h0.trans h.idlePid
  pid p h0 ha := (hp p h0 ha).2.1 ▸ h.pid p h0 (hp p h0 ha).1
  stack p h0 ha := (hp p h0 ha).2.2.1 ▸ h.stack p h0 (hp p h0 ha).1
  context p h0 ha := (hp p h0 ha).2.2.2 ▸ h.context p h0 (hp p h0 ha).1
  rip p h0 ha := h.rip p h0 (hp p h0 ha).1

lemma enter (h : Framed frame t) (hp : st.Alive → p ≠ 0 → (t.state p).Alive) :
    Framed frame (t.enter p st) := by
  refine h.mono h.idle enter_pid fun q h0 ha => ⟨?_, enter_pid, enter_stack, enter_context⟩
  rw [enter_state] at ha
  split at ha
  case isTrue hq => exact hq ▸ hp ha (hq ▸ h0)
  case isFalse => exact ha

lemma dequeue (h : Framed frame t) : Framed frame (t.dequeue p) :=
  h.mono (by simp [h.idle]) rfl fun _ _ ha => ⟨ha, rfl, rfl, rfl⟩

lemma enqueue (h : Framed frame t) (hp : p ≠ 0) : Framed frame (t.enqueue p) :=
  h.mono (by simp [h.idle, Ne.symm hp]) rfl fun _ _ ha => ⟨ha, rfl, rfl, rfl⟩

lemma retire (h : Framed frame t) : Framed frame (t.retire p) := by
  have hr : Framed frame ((t.enter p .zombie).dequeue p) :=
    (h.enter (by simp [ProcessState.Alive])).dequeue
  exact hr.mono hr.idle rfl fun _ _ ha => ⟨ha, rfl, rfl, rfl⟩

lemma asTerminate (h : Framed frame t) : Framed frame (t.asTerminate pid) := by
  unfold Table.asTerminate
  cases t.find pid
  case none => exact h
  case some p => exact h.retire

lemma kill (h : Framed frame t) : Framed frame (t.kill pid) := by
  unfold Table.kill
  split
  · exact h
  · split
    · exact h
    · split
      · exact h.asTerminate
      · exact h.retire.mono h.retire.idle rfl fun _ _ ha => ⟨ha, rfl, rfl, rfl⟩

lemma clear (h : Framed frame t) : Framed frame (t.clear p) := by
  have hprocess {q} (hq : q ≠ p) : (t.clear p).process q = t.process q := Function.update_of_ne hq _ _
  refine h.mono (by simp [h.idle]) ?_ fun q h0 ha => ?_
  · by_cases hp : 0 = p
    · rw [h.idlePid, ← hp]
      exact congrArg Identity.pid (Function.update_self (0 : Slot) _ t.process)
    · rw [hprocess hp]
  · rw [clear_state] at ha
    split at ha
    case isTrue => simp [ProcessState.Alive] at ha
    case isFalse hq => simp [ha, hprocess hq]

lemma cleaned (h : Framed frame t) (hc : Cleaned n t t') : Framed frame t' :=
  hc.rule (fun h => h.mono h.idle rfl fun _ _ ha => ⟨ha, rfl, rfl, rfl⟩) (fun h _ => h.clear) h

lemma create (h : Framed frame t) (hc : Create entry priv caps stack t t') :
    Framed (t.track frame (.create entry priv caps stack)) t' := by
  cases hc
  case intro p n i k hi =>
    have hself : (t.install p n i k).process p = i := Function.update_self ..
    have hother {q} (hq : q ≠ p) : (t.install p n i k).process q = t.process q :=
      Function.update_of_ne hq _ _
    have hframe : t.track frame (.create entry priv caps stack) =
        Function.update frame p (initialContext entry stack) := by rw [track, hi.first]
    have hlive {q} (hq : q ≠ p) (ha : ((t.install p n i k).state q).Alive) : (t.state q).Alive := by
      rwa [install_state_of_ne hq] at ha
    rw [hframe]
    constructor
    case idle => simp [install_queued, Ne.symm hi.slot, h.idle]
    case idlePid => rw [hother (Ne.symm hi.slot), h.idlePid]
    case pid =>
      intro q h0 ha
      by_cases hq : q = p
      · rw [hq, hself, hi.pid]
        intro he
        have := congrArg UInt32.toNat he
        have hlt := hi.lt
        have hpos := hi.pos
        simp [maxProcesses] at this hlt
        omega
      · exact hother hq ▸ h.pid q h0 (hlive hq ha)
    case stack =>
      intro q h0 ha
      by_cases hq : q = p
      · exact (by rw [hq, hself, hi.stack_eq] : _ = _).trans_ne hi.stack_ne
      · exact hother hq ▸ h.stack q h0 (hlive hq ha)
    case context =>
      intro q h0 ha
      by_cases hq : q = p
      · rw [hq, hself, hi.context, Function.update_self]
      · rw [hother hq, Function.update_of_ne hq, h.context q h0 (hlive hq ha)]
    case rip =>
      intro q h0 ha
      by_cases hq : q = p
      case pos =>
        rw [hq, Function.update_self]
        exact hi.entry
      rw [Function.update_of_ne hq]
      exact h.rip q h0 (hlive hq ha)

lemma save (h : Framed frame t) (hr : regs.rip ≠ 0) :
    Framed (Function.update frame t.current regs) (t.save t.current regs) := by
  have hs {q} : ((t.save t.current regs).process q).stack = (t.process q).stack := by
    by_cases hq : q = t.current <;> simp [Table.save, setProcess, hq]
  constructor
  case idle => exact h.idle
  case idlePid => rw [save_pid, h.idlePid]
  case pid => exact fun q h0 ha => save_pid.trans_ne (h.pid q h0 (save_state ▸ ha))
  case stack => exact fun q h0 ha => hs.trans_ne (h.stack q h0 (save_state ▸ ha))
  case context =>
    intro q h0 ha
    by_cases hq : q = t.current
    · simp [Table.save, setProcess, hq]
    · simpa [Table.save, setProcess, hq] using h.context q h0 (save_state ▸ ha)
  case rip =>
    intro q h0 ha
    by_cases hq : q = t.current
    · simpa [hq] using hr
    · simpa [hq] using h.rip q h0 (save_state ▸ ha)

lemma stop (h : Framed frame t) (hs : Sound t) (h0 : t.current ≠ 0)
    (hr : (t.state t.current).Alive → regs.rip ≠ 0) :
    Framed (t.track frame (.schedule regs)) (t.stop regs) := by
  rw [track]
  rcases hs.stop_eq regs with ⟨hd, he⟩ | ⟨hd, he⟩
  · rw [if_neg fun ha => ProcessState.alive_iff.mp ha.2 hd, he]
    exact h
  · have ha := ProcessState.alive_iff.mpr hd
    rw [if_pos ⟨h0, ha⟩]
    rcases he with ⟨_, he⟩ | ⟨_, he⟩
    · rw [he]
      exact h.save (hr ha)
    · rw [he]
      exact (h.save (hr ha)).enter fun _ _ => by rwa [save_state]

lemma requeue (h : Framed frame t) (h0 : t.current ≠ 0) : Framed frame t.requeue := by
  unfold Table.requeue
  split
  · exact h.enqueue h0
  · exact h

lemma dispatch (h : Framed frame t) (hd : Dispatch t p t') : Framed frame t' := by
  cases hd
  case empty => exact h
  case take => exact h.dequeue
  case skip => exact h

lemma tick (h : Framed frame t) (hs : Sound t) (ht : Tick pick regs t p t')
    (hr : t.current ≠ 0 → (t.state t.current).Alive → regs.rip ≠ 0) :
    Framed (t.track frame (.schedule regs)) t' := by
  have hidle (h0 : t.current = 0) : t.track frame (.schedule regs) = frame := if_neg fun h => h.1 h0
  cases ht
  case preempt h0 _ hd =>
    exact ((h.stop hs h0 (hr h0)).requeue (stop_current.trans_ne h0)).dispatch hd
  case idle h0 hd =>
    rw [hidle h0]
    exact h.dispatch hd
  case refuse h0 _ _ _ hd =>
    rw [hidle h0]
    exact h.asTerminate.dequeue.dispatch hd

lemma resume (h : Framed frame t) (hp : p ≠ 0 → t.state p = .ready) (hr : Resume t regs p regs' t') :
    Framed frame t' := by
  have hc : Framed frame (t.setCurrent p) := h.mono h.idle rfl fun _ _ ha => ⟨ha, rfl, rfl, rfl⟩
  cases hr
  case idle => exact hc
  case stay => exact hc
  case run => exact hc.enter fun _ h0 => .inl (hp h0)

lemma step (h : Framed frame t) (hs : Sound t) (ht : Step c t a t')
    (schedule : ∀ {regs}, a = .schedule regs → t.current ≠ 0 → (t.state t.current).Alive → regs.rip ≠ 0)
    (receive : a ≠ .receive) : Framed (t.track frame a) t' := by
  cases ht
  case create hc => exact h.create hc
  case schedule hs' =>
    obtain ⟨ht, hr, hc, hn⟩ := hs'
    have h2 := (h.tick hs ht (schedule rfl)).resume (fun h0 => (ht.taken h0).1) hr
    cases hd : c.due
    case false => exact hn hd ▸ h2
    case true => exact h2.cleaned (hc hd)
  case kill pid => exact h.kill
  case killCurrent => exact h.asTerminate
  case killAll => exact purge_rule asTerminate _ h
  case wakeup p hp _ => exact absurd hp (hs.awake p)
  case awake => exact h
  case cleanup hc => exact h.cleaned hc
  case resume p _ hp _ => exact absurd hp (hs.awake p)
  case send => exact h
  case block => contradiction
  case receive => exact h
  case clock => exact h

end Framed

-- A process other than the idle one is handed over if there is any.
lemma Dispatch.ne_zero (hv : Valid t) (h0 : t.queued 0 = false) (hq : t.queued q = true)
    (hd : Dispatch t p t') : p ≠ 0 := by
  cases hd
  case empty he => simp [he q] at hq
  case take hp _ =>
    rintro rfl
    simp [h0] at hp
  case skip r hr hn =>
    rcases hv.ready r hr with h | ⟨rfl, _⟩
    · exact absurd h hn
    · simp [h0] at hr

lemma Dispatch.state (hd : Dispatch t p t') : t'.state q = t.state q := by
  cases hd <;> rfl

lemma Sound.requeue_stop (hs : Sound t) (hd : ¬(t.state t.current).Dead) :
    (t.stop regs).requeue.queued t.current = true := by
  have hr : (t.stop regs).state (t.stop regs).current = .ready := by
    rw [stop_current]
    rcases hs.stop_eq regs with ⟨h, _⟩ | ⟨_, ⟨hr, he⟩ | ⟨_, he⟩⟩
    · exact absurd h hd
    · rw [he, save_state]
      rcases ProcessState.alive_iff.mpr hd with h | h | h
      · exact h
      · exact absurd h hr
      · exact absurd h (hs.awake _)
    · simp [he]
  rw [requeue, if_pos hr]
  simp

-- What the run queue has left for the idle process to hand over to, whatever it refuses.
def Offers (t : Table) (pick : Option Slot) (q : Slot) : Prop :=
  t.queued q = true ∧ (t.current = 0 → ∀ r, pick = some r → ¬t.Admits r →
    q ≠ r ∧ t.find (t.process r).pid ≠ some q)

-- The idle process takes over only from itself, and only if it is alive.
lemma Tick.idle_alive (hf : Framed frame t) (hv : Valid t) (hs : Sound t)
    (hr : t.current ≠ 0 → (t.state t.current).Alive → regs.rip ≠ 0)
    (hc : (t.state t.current).Dead → ∃ q, t.Offers pick q) (ht : Tick pick regs t 0 t') :
    t.current = 0 ∧ (t'.state 0).Alive := by
  cases ht
  case preempt h0 _ hd =>
    have hf := (hf.stop hs h0 (hr h0)).requeue (stop_current.trans_ne h0)
    obtain ⟨q, hq⟩ : ∃ q, (t.stop regs).requeue.queued q = true := by
      rcases hs.stop_eq regs with ⟨hd, he⟩ | ⟨hd, _⟩
      · obtain ⟨q, hq, _⟩ := hc hd
        refine ⟨q, ?_⟩
        rw [he, requeue]
        split
        · simp [hq]
        · exact hq
      · exact ⟨_, hs.requeue_stop hd⟩
    exact absurd rfl (hd.ne_zero hv.stop.requeue hf.idle hq)
  case idle h0 hd =>
    refine ⟨h0, ?_⟩
    rw [hd.state, ProcessState.alive_iff]
    intro hdead
    obtain ⟨q, hq, _⟩ := hc (h0 ▸ hdead)
    exact absurd rfl (hd.ne_zero hv hf.idle hq)
  case refuse r h0 hp hr ha hd =>
    refine ⟨h0, ?_⟩
    have hf' : Framed frame ((t.asTerminate (t.process r).pid).dequeue r) := hf.asTerminate.dequeue
    have hv' : Valid ((t.asTerminate (t.process r).pid).dequeue r) := hv.asTerminate.dequeue
    have hr0 : r ≠ 0 := fun h => ha (.inl h)
    have hready : t.state r = .ready := (hv.ready r hr).resolve_right fun h => hr0 h.1
    obtain ⟨f, hfind⟩ := exists_find (t := t) (p := r) (by simp [hready])
    rw [asTerminate, hfind] at hd hf' hv'
    have h0f : 0 ≠ f := by
      rintro rfl
      exact hf.pid r hr0 (.inl hready) ((find_eq_some hfind).1.symm.trans hf.idlePid)
    rw [hd.state, dequeue_state, Option.elim_some, retire_state, if_neg h0f, ProcessState.alive_iff]
    intro hdead
    obtain ⟨q, hq, hother⟩ := hc (h0 ▸ hdead)
    obtain ⟨hqr, hqf⟩ := hother h0 r hp ha
    have hqf : q ≠ f := fun h => hqf (h ▸ hfind)
    exact absurd rfl (hd.ne_zero hv' hf'.idle (q := q) (by simp [hqr, hqf, hq]))

lemma Framed.schedule (hf : Framed frame t) (hv : Valid t) (hs : Sound t)
    (hr : t.current ≠ 0 → (t.state t.current).Alive → regs.rip ≠ 0)
    (hc : (t.state t.current).Dead → ∃ q, t.Offers c.pick q) (ht : Schedule c regs t regs' t') :
    (t'.state t'.current).Alive ∧
      if t'.current = 0 then t.current = 0 ∧ regs' = regs
      else regs' = t.track frame (.schedule regs) t'.current := by
  obtain ⟨ht, hres, hclean, hn⟩ := ht
  rename_i p t1 t2
  have hf1 := hf.tick hs ht hr
  have h2 : (t2.state p).Alive ∧
      if p = 0 then t.current = 0 ∧ regs' = regs else regs' = t.track frame (.schedule regs) p := by
    cases hres
    case idle hp =>
      subst hp
      have ⟨h0, ha⟩ := ht.idle_alive hf hv hs hr hc
      exact ⟨ha, by simp [h0]⟩
    case stay hp hst =>
      have ha : (t1.state p).Alive := .inl (ht.taken hp).1
      rcases hst with hst | hst
      · exact absurd hst (hf1.stack p hp ha)
      · rw [hf1.context p hp ha] at hst
        exact absurd hst (hf1.rip p hp ha)
    case run hp _ _ =>
      have ha : (t1.state p).Alive := .inl (ht.taken hp).1
      rw [if_neg hp]
      exact ⟨by simp [ProcessState.Alive], hf1.context p hp ha⟩
  have hcur := hres.current
  cases hd : c.due
  case false =>
    rw [hn hd, hcur]
    exact h2
  rw [(hclean hd).current, hcur, ProcessState.alive_iff]
  exact ⟨(hclean hd).alive (ProcessState.alive_iff.mp h2.1), h2.2⟩

end Table

-- The states that the kernel reaches, with the frames of the processes.
inductive Traced (ok : State → Action → Prop) : State → (Slot → Registers) → Prop
  | init (apicTicks apicHz : UInt32) : Traced ok (schedInit apicTicks apicHz) fun _ => {}
  | step {s s' : State} {a : Action} {frame : Slot → Registers} :
    Traced ok s frame → ok s a → exec s a = .ok s' → Traced ok s' (s.table.track frame a)

-- The actions that keep the frames apart. If the current process is dead, there is another one that the
-- tick can switch to. A process is not interrupted at the address zero.
def KeepsFrames (s : State) : Action → Prop
  | .schedule regs =>
    let p := s.rq.currentSlot
    ((s.processes p).state.Dead → ∃ q, pickNext s = some q ∧ (p = 0 →
      privilegeCheck s q = true ∨ ∃ r, (s.processes r).rbNode.isSome = true ∧ r ≠ q ∧
        s.getCurrentProcessByPID (s.processes q).pid ≠ some r)) ∧
    (p ≠ 0 → (s.processes p).state.Alive → regs.rip ≠ 0)
  | .wakeup _ | .send _ _ | .receive => False
  | _ => True

instance {s : State} : DecidablePred (KeepsFrames s)
  | .schedule _ =>
    inferInstanceAs (Decidable ((_ → ∃ _, _ ∧ (_ → _)) ∧ (_ → _ → _)))
  | .wakeup _ | .send _ _ | .receive => isFalse id
  | .create _ _ _ _ | .cleanup | .kill _ | .killCurrent | .killAll | .clock _ _ => isTrue trivial

variable {s : State} {regs : Registers} {frame : Slot → Registers}

lemma Run.exists_traced (hs : Run ok s) : ∃ frame, Traced ok s frame := by
  induction hs
  case init ticks hz => exact ⟨_, .init ticks hz⟩
  case step ha he ih =>
    obtain ⟨frame, ih⟩ := ih
    exact ⟨_, .step ih ha he⟩

lemma KeepsFrames.offers (h : KeepsFrames s (.schedule regs)) (hq : HasQueue s) (hv : s.table.Valid)
    (hs : s.table.Sound) (hd : (s.table.state s.table.current).Dead) :
    ∃ q, s.table.Offers s.choice.pick q := by
  obtain ⟨q, hp, h⟩ := h.1 hd
  have hq := hq.pickNext_some hp
  have hadmits (hc : privilegeCheck s q = true) : s.table.Admits q := by
    have ht : s.table.state q ≠ .terminated := fun h => by simpa [h] using hv.ready q hq
    exact .inr ⟨hs.sealed q ht, privilegeCheck_iff.mp hc⟩
  by_cases h0 : s.rq.currentSlot = 0
  case neg => exact ⟨q, hq, fun h => absurd h h0⟩
  rcases h h0 with hc | ⟨r, hr, hrq, hrf⟩
  · refine ⟨q, hq, fun _ r hr hn => ?_⟩
    obtain rfl : q = r := Option.some.inj (hp.symm.trans hr)
    exact absurd (hadmits hc) hn
  · refine ⟨r, hr, fun _ r' hr' _ => ?_⟩
    obtain rfl : q = r' := Option.some.inj (hp.symm.trans hr')
    exact ⟨hrq, hrf⟩

lemma schedInit_framed : (schedInit ticks hz).table.Framed frame := by
  have hdead (p : Slot) (h0 : p ≠ 0) (ha : ((schedInit ticks hz).table.state p).Alive) : False := by
    rw [schedInit_state, if_neg h0] at ha
    simp [ProcessState.Alive] at ha
  exact ⟨schedInit_queued, schedInit_pid, fun p h0 ha => (hdead p h0 ha).elim,
    fun p h0 ha => (hdead p h0 ha).elim, fun p h0 ha => (hdead p h0 ha).elim,
    fun p h0 ha => (hdead p h0 ha).elim⟩

lemma Traced.framed (hs : Traced KeepsFrames s frame) :
    Coherent s ∧ s.table.Valid ∧ s.table.Sound ∧ s.table.Framed frame := by
  induction hs
  case init ticks hz => exact ⟨schedInit_coherent, schedInit_valid, schedInit_sound, schedInit_framed⟩
  case step s s' a frame hs ha he ih =>
    have ⟨hc, hv, hs, hf⟩ := ih
    have ⟨hc', ht⟩ := exec_refines hc hv he
    have hm : a ≠ .receive := by
      rintro rfl
      exact ha
    refine ⟨hc', hv.step ht (absurd · hm), hs.step ht (absurd · hm), hf.step hs ht ?_ hm⟩
    rintro _ rfl
    exact ha.2

-- After a tick the current process is alive. If it is the idle one, it has been so before, and the
-- registers are unchanged. Otherwise they are the initial context of the process, or those with which it
-- was last interrupted.
theorem Traced.context_kept {r : Registers × State} (hs : Traced KeepsFrames s frame)
    (ha : KeepsFrames s (.schedule regs)) (he : schedule s regs = .ok r) :
    (r.2.processes r.2.rq.currentSlot).state.Alive ∧
      if r.2.rq.currentSlot = 0 then s.rq.currentSlot = 0 ∧ r.1 = regs
      else r.1 = s.table.track frame (.schedule regs) r.2.rq.currentSlot := by
  have ⟨hc, hv, hs, hf⟩ := hs.framed
  exact hf.schedule hv hs ha.2 (ha.offers hc.queue hv hs) (schedule_refines hc hv he).2

theorem Traced.context_kept_created : ∃ s frame r,
    Traced KeepsFrames s frame ∧ schedule s {} = .ok r ∧ r.2.rq.currentSlot = 1 ∧
      r.1 = s.table.track frame (.schedule {}) 1 := by
  obtain ⟨s, hs, ha, hr⟩ := (Run.init 0 250 : Run KeepsFrames _).exists_of_all
    (l := [.create 0x1000 privNorm capNone 0x2000])
    (P := fun s => KeepsFrames s (.schedule {}) ∧
      ((schedule s {}).toOption.any fun r => r.2.rq.currentSlot = 1) = true) (by decide +kernel)
  obtain ⟨frame, ht⟩ := hs.exists_traced
  cases he : schedule s {}
  case error e => simp [he, Except.toOption] at hr
  case ok r =>
    have hr : r.2.rq.currentSlot = 1 := by simpa [he, Except.toOption] using hr
    have hk := (ht.context_kept ha he).2
    rw [hr, if_neg (by decide)] at hk
    exact ⟨s, frame, r, ht, he, hr, hk⟩

-- If the last process is killed, the idle process takes over, but the registers are still those of the
-- zombie.
theorem zombie_context_left : ∃ s r,
    [.create 0x1000 privNorm capNone 0x2000, .schedule {}, .killCurrent].foldlM exec (schedInit 0 250) =
      .ok s ∧
    s.rq.currentSlot = 1 ∧ (s.processes 1).state = .zombie ∧
    schedule s { rip := 0x1234 } = .ok r ∧ r.2.rq.currentSlot = 0 ∧ r.1.rip = 0x1234 := by
  obtain ⟨s, he, hc, hz, hr⟩ := exists_exec (s := schedInit 0 250)
    (l := [.create 0x1000 privNorm capNone 0x2000, .schedule {}, .killCurrent])
    (P := fun s => s.rq.currentSlot = 1 ∧ (s.processes 1).state = .zombie ∧
      ((schedule s { rip := 0x1234 }).toOption.any fun r =>
        r.2.rq.currentSlot = 0 ∧ r.1.rip = 0x1234) = true)
    (by decide +kernel)
  cases hs : schedule s { rip := 0x1234 }
  case error e => simp [hs, Except.toOption] at hr
  case ok r => exact ⟨s, r, he, hc, hz, hs, by simpa [hs, Except.toOption] using hr⟩

end EEVDF
