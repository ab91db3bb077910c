import VoidFrame.Library.Machine
import VoidFrame.Sched.EEVDF.Timer
import VoidFrame.Sched.EEVDF.Theorems.Charge

namespace EEVDF

variable {s : State} {p q : Slot}

-- The clock in whole nanoseconds. The product fits, as the number of ticks has 32 bits.
lemma State.getNS_toNat : s.getNS.toNat = s.apicTicks.toNat * 1000000000 / s.apicHz.toNat := by
  have hlt := s.apicTicks.toNat_lt
  unfold State.getNS
  rw [UInt64.toNat_div, UInt64.toNat_mul, UInt32.toNat_toUInt64, UInt32.toNat_toUInt64]
  congr 1
  exact Nat.mod_eq_of_lt (by change _ * 1000000000 < _; omega)

namespace Timed

variable {w w' : Timed} {e : TimerEvent}

-- The clock of a process was set at the given tick.
structure Since (w : Timed) (p : Slot) (tick : Nat) : Prop where
  le : tick ≤ w.kernel.apicTicks.toNat
  execStart : (w.kernel.processes p).execStart.toNat = tick * 1000000000 / w.kernel.apicHz.toNat
  started : w.started p = tick * 1000000000 / w.kernel.apicHz.toNat

-- All ticks so far came at the frequency that is in force.
structure Even (w : Timed) : Prop where
  hz : w.kernel.apicHz ≠ 0
  elapsed : w.elapsed = w.kernel.apicTicks.toNat * 1000000000 / w.kernel.apicHz.toNat
  since : ∀ p, ∃ tick, Since w p tick

lemma Booted.even (h : Booted w) : Even w where
  hz := h.hz
  elapsed := by simp [h.ticks, h.elapsed]
  since p := ⟨0, Nat.zero_le _, by simp [h.execStart p], by simp [h.started p]⟩

lemma Since.congr (h : Since w p tick) (ht : w.kernel.apicTicks.toNat ≤ w'.kernel.apicTicks.toNat)
    (hz : w'.kernel.apicHz = w.kernel.apicHz)
    (he : (w'.kernel.processes p).execStart = (w.kernel.processes p).execStart)
    (hs : w'.started p = w.started p) : Since w' p tick where
  le := h.le.trans ht
  execStart := by rw [he, hz, h.execStart]
  started := by rw [hs, hz, h.started]

lemma Even.set (h : Even w) (ht : w'.kernel.apicTicks = w.kernel.apicTicks)
    (hz : w'.kernel.apicHz = w.kernel.apicHz) (he : w'.elapsed = w.elapsed)
    (hp : (w'.kernel.processes p).execStart = w.kernel.getNS) (hs : w'.started p = w.elapsed)
    (hq : ∀ q ≠ p, (w'.kernel.processes q).execStart = (w.kernel.processes q).execStart ∧
      w'.started q = w.started q) : Even w' where
  hz := hz ▸ h.hz
  elapsed := by rw [he, ht, hz, h.elapsed]
  since q := by
    by_cases hqp : q = p
    · subst hqp
      refine ⟨w.kernel.apicTicks.toNat, ht ▸ le_refl _, ?_, ?_⟩
      · rw [hp, hz, State.getNS_toNat]
      · rw [hs, hz, h.elapsed]
    · obtain ⟨tick, hsince⟩ := h.since q
      exact ⟨tick, hsince.congr (ht ▸ le_refl _) hz (hq q hqp).1 (hq q hqp).2⟩

end Timed

lemma account_execStart
    (ht : updateMinVruntime (s.modifyProcess p (·.account now delta fair)) p = t) :
    t.apicTicks = s.apicTicks ∧ t.apicHz = s.apicHz ∧ (t.processes p).execStart = now ∧
      ∀ q ≠ p, (t.processes q).execStart = (s.processes q).execStart := by
  subst ht
  refine ⟨rfl, rfl, ?_, fun q hq => ?_⟩
  · simp [updateMinVruntime, ProcessControlBlock.account]
  · simp [updateMinVruntime, hq]

lemma updateCurr_execStart (ht : updateCurr s p = t) :
    s.getNS = (s.processes p).execStart ∧ t = s ∨
    s.getNS ≠ (s.processes p).execStart ∧ t.apicTicks = s.apicTicks ∧ t.apicHz = s.apicHz ∧
      (t.processes p).execStart = s.getNS ∧
      ∀ q ≠ p, (t.processes q).execStart = (s.processes q).execStart := by
  rw [updateCurr_eq rfl rfl] at ht
  split at ht
  case isTrue hz => exact .inl ⟨sub_eq_zero.mp hz, ht.symm⟩
  case isFalse hz => exact .inr ⟨fun h => hz (by rw [h, UInt64.sub_self]), account_execStart ht⟩

namespace Timed

lemma countTick_toNat (hlt : s.apicTicks.toNat + 1 < 2 ^ 32) :
    s.countTick.apicTicks.toNat = s.apicTicks.toNat + 1 :=
  (UInt32.toNat_add ..).trans (Nat.mod_eq_of_lt hlt)

lemma Even.countTick (h : Even w) (hlt : w.kernel.apicTicks.toNat + 1 < 2 ^ 32) :
    Even { w with
      kernel := w.kernel.countTick
      elapsed := w.elapsed + 1000000000 / w.kernel.apicHz.toNat } := by
  have ht := countTick_toNat hlt
  refine ⟨h.hz, ?_, fun p => ?_⟩
  · have hz : w.kernel.countTick.apicHz = w.kernel.apicHz := rfl
    dsimp only
    rw [ht, hz, h.elapsed]
    push_cast
    ring
  · obtain ⟨tick, hs⟩ := h.since p
    exact ⟨tick, hs.congr (ht ▸ Nat.le_succ _) rfl rfl rfl⟩

-- Before the first tick all clocks are at zero, whatever the frequency.
lemma Even.setFrequency (h : Even w) (hf : f = 0 ∨ f = w.kernel.apicHz ∨ w.kernel.apicTicks = 0) :
    Even { w with kernel := w.kernel.apicTimerSetFrequency f } := by
  unfold State.apicTimerSetFrequency
  split
  case isTrue => exact h
  case isFalse h0 =>
    obtain rfl | ht := hf.resolve_left h0
    · exact h
    · refine ⟨h0, ?_, fun p => ?_⟩
      · simpa [ht] using h.elapsed
      · obtain ⟨tick, hs⟩ := h.since p
        have h0 : tick = 0 := by simpa [ht] using hs.le
        refine ⟨0, Nat.zero_le _, ?_, ?_⟩
        · simpa [h0] using hs.execStart
        · simpa [h0] using hs.started

lemma Even.charge (h : Even w) (hk : updateCurr w.kernel p = k) : Even { w with
    kernel := k
    started := if w.kernel.getNS = (w.kernel.processes p).execStart then w.started
      else Function.update w.started p w.elapsed } := by
  obtain ⟨hz, he⟩ | ⟨hz, ht, hhz, hp, hq⟩ := updateCurr_execStart hk
  · rw [if_pos hz, he]
    exact h
  · rw [if_neg hz]
    exact h.set (p := p) ht hhz rfl hp (Function.update_self ..) fun q hqp =>
      ⟨hq q hqp, Function.update_of_ne hqp ..⟩

lemma Even.exec (h : Even w) (hok : Steady w e) (he : exec w e = .ok w') : Even w' := by
  cases e <;> cases he
  case tick => exact h.countTick hok
  case setFrequency => exact h.setFrequency hok
  case charge => exact h.charge rfl
  case start p =>
    refine h.set (p := p) rfl rfl rfl ?_ ?_ fun q hq => ⟨?_, ?_⟩
    · simp [State.startClock]
    · simp
    · simp [State.startClock, hq]
    · simp [hq]

lemma Even.hz_pos (h : Even w) : 0 < w.kernel.apicHz.toNat :=
  Nat.pos_of_ne_zero fun hz => h.hz (UInt32.toNat_inj.mp hz)

lemma Since.execStart_le (h : Since w p tick) :
    (w.kernel.processes p).execStart ≤ w.kernel.getNS := by
  rw [UInt64.le_iff_toNat_le, h.execStart, State.getNS_toNat]
  have hle := h.le
  gcongr

lemma Since.ran_toNat (h : Since w p tick) :
    (w.kernel.ran p).toNat = w.kernel.apicTicks.toNat * 1000000000 / w.kernel.apicHz.toNat -
      tick * 1000000000 / w.kernel.apicHz.toNat := by
  rw [State.ran, UInt64.toNat_sub_of_le _ _ h.execStart_le, State.getNS_toNat, h.execStart]

-- Rounding the two points of time to whole nanoseconds adds less than one.
lemma cast_div_sub_div_lt (h : m ≤ n) (hk : 0 < k) :
    ((n / k - m / k : Nat) : Rat) < (n : Rat) / k - (m : Rat) / k + 1 := by
  have hle : m / k ≤ n / k := Nat.div_le_div_right h
  have hn : ((n / k : Nat) : Rat) ≤ (n : Rat) / k := Nat.cast_div_le
  have hm : (m : Rat) / k < ((m / k : Nat) : Rat) + 1 := by
    rw [div_lt_iff₀ (by exact_mod_cast hk)]
    exact_mod_cast (Nat.div_lt_iff_lt_mul hk).mp (Nat.lt_succ_self (m / k))
  rw [Nat.cast_sub hle]
  linarith

lemma Even.ran_lt (h : Even w) (hs : Since w p tick) :
    ((w.kernel.ran p).toNat : Rat) < w.elapsed - w.started p + 1 := by
  rw [hs.ran_toNat, h.elapsed, hs.started]
  have hle : tick * 1000000000 ≤ w.kernel.apicTicks.toNat * 1000000000 := Nat.mul_le_mul_right _ hs.le
  exact_mod_cast cast_div_sub_div_lt hle h.hz_pos

lemma Even.ran_eq (h : Even w) (hs : Since w p tick) (hd : w.kernel.apicHz.toNat ∣ 1000000000) :
    ((w.kernel.ran p).toNat : Rat) = w.elapsed - w.started p := by
  have hz : (w.kernel.apicHz.toNat : Rat) ≠ 0 := by exact_mod_cast h.hz_pos.ne'
  have hle : tick * 1000000000 / w.kernel.apicHz.toNat ≤
      w.kernel.apicTicks.toNat * 1000000000 / w.kernel.apicHz.toNat := by
    have hle := hs.le
    gcongr
  rw [hs.ran_toNat, h.elapsed, hs.started, Nat.cast_sub hle,
    Nat.cast_div (hd.mul_left _) hz, Nat.cast_div (hd.mul_left _) hz]
  push_cast
  rfl

lemma getNS_le (hok : Steady w e) (he : exec w e = .ok w') : w.kernel.getNS ≤ w'.kernel.getNS := by
  cases e <;> cases he
  case start => exact UInt64.le_refl _
  case tick =>
    have hz : w.kernel.countTick.apicHz = w.kernel.apicHz := rfl
    rw [UInt64.le_iff_toNat_le, State.getNS_toNat, State.getNS_toNat, countTick_toNat hok, hz]
    gcongr
    exact Nat.le_succ _
  case setFrequency f =>
    dsimp only
    unfold State.apicTimerSetFrequency
    split
    case isTrue => exact UInt64.le_refl _
    case isFalse h0 =>
      obtain rfl | ht := hok.resolve_left h0
      · exact UInt64.le_refl _
      · rw [UInt64.le_iff_toNat_le, State.getNS_toNat, ht]
        simp
  case charge p =>
    obtain ⟨_, he⟩ | ⟨_, ht, hz, _⟩ := updateCurr_execStart (s := w.kernel) (p := p) rfl
    · exact UInt64.le_of_eq (congrArg State.getNS he).symm
    · exact UInt64.le_iff_toNat_le.mpr (by rw [State.getNS_toNat, State.getNS_toNat, ht, hz])

-- As long as the frequency does not change after the first tick, the clock does not go back, and the
-- time for which a process has run is the time that has passed, but for the rounding to nanoseconds.
theorem clock_monotone (h : Machine.Run Booted exec Steady w) :
    (∀ e w', Steady w e → exec w e = .ok w' → w.kernel.getNS ≤ w'.kernel.getNS) ∧
    ∀ p, (w.kernel.processes p).execStart ≤ w.kernel.getNS ∧
      ((w.kernel.ran p).toNat : Rat) < w.elapsed - w.started p + 1 ∧
      (w.kernel.apicHz.toNat ∣ 1000000000 →
        ((w.kernel.ran p).toNat : Rat) ≤ w.elapsed - w.started p) := by
  have he : Even w := h.invariant (fun _ h => h.even) fun h hok he => h.exec hok he
  refine ⟨fun e w' hok hx => getNS_le hok hx, fun p => ?_⟩
  obtain ⟨tick, hs⟩ := he.since p
  exact ⟨hs.execStart_le, he.ran_lt hs, fun hd => le_of_eq (he.ran_eq hs hd)⟩

instance decidableInRange {w : Timed} : (e : TimerEvent) → Decidable (InRange w e)
  | .tick => inferInstanceAs (Decidable (_ < _))
  | .setFrequency _ | .start _ | .charge _ => isTrue trivial

instance decidableSteady {w : Timed} : (e : TimerEvent) → Decidable (Steady w e)
  | .tick => inferInstanceAs (Decidable (_ < _))
  | .setFrequency _ => inferInstanceAs (Decidable (_ ∨ _))
  | .start _ | .charge _ => isTrue trivial

def boot : Timed where
  kernel := schedInit 0 250
  elapsed := 0
  started := fun _ => 0

lemma boot_booted : Booted boot where
  ticks := rfl
  hz := by decide
  execStart := by decide +kernel
  elapsed := rfl
  started _ := rfl

theorem clock_monotone_tick : ∃ w, Machine.Run Booted exec Steady w ∧ w.kernel.ran 1 = 1000000 ∧
    ((w.kernel.ran 1).toNat : Rat) ≤ w.elapsed - w.started 1 := by
  obtain ⟨w, hw, hr, hd⟩ := (Machine.Run.init boot_booted : Machine.Run Booted exec Steady boot).exists_of_all
    (l := [.setFrequency 1000, .tick, .start 1, .tick])
    (P := fun w => w.kernel.ran 1 = 1000000 ∧ w.kernel.apicHz.toNat ∣ 1000000000) (by decide +kernel)
  exact ⟨w, hw, hr, ((clock_monotone hw).2 1).2.2 hd⟩

-- A process starts after a tick. A higher frequency makes the clock go back, and the process has run
-- for centuries; a lower one makes it jump ahead.
theorem clock_set_back : ∃ w w₁ w₂, Machine.Run Booted exec InRange w ∧
    (exec w (.setFrequency 1000) = .ok w₁ ∧ w₁.kernel.getNS < w.kernel.getNS ∧
      w₁.kernel.ran 1 = 18446744073706551616) ∧
    exec w (.setFrequency 100) = .ok w₂ ∧ w₂.elapsed = w₂.started 1 ∧ w₂.kernel.ran 1 = 6000000 := by
  obtain ⟨w, hw, h₁, h₂, h₃, h₄⟩ :=
    (Machine.Run.init boot_booted : Machine.Run Booted exec InRange boot).exists_of_all
      (l := [.tick, .start 1])
      (P := fun w => (w.kernel.apicTimerSetFrequency 1000).getNS < w.kernel.getNS ∧
        (w.kernel.apicTimerSetFrequency 1000).ran 1 = 18446744073706551616 ∧
        w.elapsed = w.started 1 ∧ (w.kernel.apicTimerSetFrequency 100).ran 1 = 6000000)
      (by decide +kernel)
  exact ⟨w, _, _, hw, ⟨rfl, h₁, h₂⟩, rfl, h₃, h₄⟩

end Timed
end EEVDF
