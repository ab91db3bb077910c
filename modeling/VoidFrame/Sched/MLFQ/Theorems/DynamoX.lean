import VoidFrame.Sched.MLFQ.DynamoX

-- The frequency stays within its bounds. It goes the right way as long as the new frequency fits into
-- 16 bits.

namespace MLFQ.DynamoX

variable {c d : Controller} {x : Sample} {target : UInt32} {freq : UInt16} {adj : Int}

lemma respond_currentFreq : (respond c x target).2.currentFreq = c.currentFreq := by
  unfold respond
  dsimp only
  split
  · split <;> rfl
  · split
    · rfl
    · split <;> rfl

lemma adapt_currentFreq : (adapt c x target).2.currentFreq = c.currentFreq := by
  unfold adapt
  split
  · rfl
  · split
    · rfl
    · split <;> rfl

-- The target does not depend on the present frequency, and leaves it alone.
lemma targetFreq_currentFreq : (targetFreq c x).2.currentFreq = c.currentFreq :=
  adapt_currentFreq.trans respond_currentFreq

lemma effectiveMin_bounds (c : Controller) : minFreq.toNat ≤ (effectiveMin c).toNat ∧
    (effectiveMin c).toNat ≤ 265 := by
  unfold effectiveMin
  split <;> decide

lemma effectiveMax_bounds (c : Controller) : 1600 ≤ (effectiveMax c).toNat ∧
    (effectiveMax c).toNat ≤ maxFreq.toNat := by
  unfold effectiveMax
  split <;> decide

-- The bounds are kept even if the frequency wraps.
lemma newFreq_bounds (c : Controller) (adj : Int) :
    (effectiveMin c).toNat ≤ (newFreq c adj).toNat ∧ (newFreq c adj).toNat ≤ (effectiveMax c).toNat := by
  have hmin := effectiveMin_bounds c
  have hmax := effectiveMax_bounds c
  unfold newFreq
  simp only [UInt16.lt_iff_toNat_lt]
  split <;> split <;> omega

def exactFreq (c : Controller) (adj : Int) : Int :=
  c.currentFreq.toNat + adj >>> fxpShift

def Fits (c : Controller) (adj : Int) : Prop :=
  0 ≤ exactFreq c adj ∧ exactFreq c adj < 2 ^ 16

instance decidableFits : Decidable (Fits c adj) :=
  inferInstanceAs (Decidable (_ ∧ _))

lemma Fits.newFreq_eq (h : Fits c adj) : ((newFreq c adj).toNat : Int) =
    max ((effectiveMin c).toNat : Int) (min ((effectiveMax c).toNat : Int) (exactFreq c adj)) := by
  have hmin := effectiveMin_bounds c
  have hmax := effectiveMax_bounds c
  have he : ((UInt16.ofInt (exactFreq c adj)).toNat : Int) = exactFreq c adj := by
    have ⟨h0, h1⟩ := h
    unfold UInt16.ofInt
    rw [UInt16.toNat_ofNat_of_lt' (by simp only [UInt16.size]; omega)]
    omega
  unfold newFreq
  change ((if effectiveMax c < (if UInt16.ofInt (exactFreq c adj) < effectiveMin c then effectiveMin c
    else UInt16.ofInt (exactFreq c adj)) then effectiveMax c
    else if UInt16.ofInt (exactFreq c adj) < effectiveMin c then effectiveMin c
    else UInt16.ofInt (exactFreq c adj)).toNat : Int) = _
  simp only [UInt16.lt_iff_toNat_lt]
  split <;> split <;> omega

lemma toNat_smooth : (smooth c freq).toNat = (freq.toNat + 3 * c.currentFreq.toNat) / 4 := by
  have hf := freq.toNat_lt
  have hc := c.currentFreq.toNat_lt
  unfold smooth smoothingFactor
  rw [Nat.shiftLeft_eq, Nat.shiftRight_eq_div_pow, UInt16.toNat_ofNat_of_lt' ?_]
  · omega
  · simp only [UInt16.size]
    omega

def InRange (c : Controller) : Prop :=
  minFreq ≤ c.currentFreq ∧ c.currentFreq ≤ maxFreq

lemma toNat_smooth_bounds (hf : a ≤ freq.toNat ∧ freq.toNat ≤ b)
    (hc : a ≤ c.currentFreq.toNat ∧ c.currentFreq.toNat ≤ b) :
    a ≤ (smooth c freq).toNat ∧ (smooth c freq).toNat ≤ b := by
  rw [toNat_smooth]
  omega

lemma change_cases (c : Controller) (freq : UInt16) :
    (change c freq).currentFreq = c.currentFreq ∨ (change c freq).currentFreq = freq := by
  unfold change
  split
  · exact .inr rfl
  · exact .inl rfl

lemma sample_cases (ht : targetFreq c x = (target, d)) : (sample c x).currentFreq = c.currentFreq ∨
    (sample c x).currentFreq = smooth d (newFreq d (adjustment d target)) := by
  have hd : d.currentFreq = c.currentFreq := by
    rw [← targetFreq_currentFreq (c := c) (x := x), ht]
  have hs : (sample c x).currentFreq = (change { d with lastAdjustment := adjustment d target }
      (smooth d (newFreq d (adjustment d target)))).currentFreq := by
    unfold sample
    rw [ht]
    rfl
  rw [hs, ← hd]
  exact change_cases _ _

lemma InRange.sample (h : InRange c) (x : Sample) : InRange (sample c x) := by
  obtain ⟨target, d, ht⟩ : ∃ target d, targetFreq c x = (target, d) := ⟨_, _, rfl⟩
  unfold InRange
  obtain he | he := sample_cases ht
  · rw [he]
    exact h
  · have hd : d.currentFreq = c.currentFreq := by
      rw [← targetFreq_currentFreq (c := c) (x := x), ht]
    have hn := newFreq_bounds d (adjustment d target)
    have hmin := effectiveMin_bounds d
    have hmax := effectiveMax_bounds d
    unfold InRange at h
    rw [UInt16.le_iff_toNat_le, UInt16.le_iff_toNat_le, ← hd] at h
    rw [he, UInt16.le_iff_toNat_le, UInt16.le_iff_toNat_le]
    exact toNat_smooth_bounds ⟨hmin.1.trans hn.1, hn.2.trans hmax.2⟩ h

lemma inRange_run (xs : List Sample) : InRange (run xs) :=
  List.foldlRecOn xs DynamoX.sample ⟨by decide, by decide⟩ fun _ h x _ => h.sample x

lemma Fits.smooth_le (h : Fits c adj) (hadj : adj < 0) (hmin : effectiveMin c ≤ c.currentFreq) :
    smooth c (newFreq c adj) ≤ c.currentFreq := by
  have he := h.newFreq_eq
  have hneg : adj >>> fxpShift < 0 := by
    rw [Int.shiftRight_eq_div_pow]
    unfold fxpShift
    omega
  unfold exactFreq at he
  rw [UInt16.le_iff_toNat_le] at hmin ⊢
  rw [toNat_smooth]
  omega

-- Whatever the samples are, the frequency stays within its bounds. The next frequency is the exact one
-- within the bounds of the power state if it fits, and then it is not raised by a negative adjustment.
theorem run_sound (xs : List Sample) (x : Sample) :
    InRange (run xs) ∧ ∀ {c target adj}, targetFreq (run xs) x = (target, c) →
      adj = adjustment c target → Fits c adj →
        ((newFreq c adj).toNat : Int) = max ((effectiveMin c).toNat : Int)
          (min ((effectiveMax c).toNat : Int) (exactFreq c adj)) ∧
        (adj < 0 → effectiveMin c ≤ (run xs).currentFreq →
          (sample (run xs) x).currentFreq ≤ (run xs).currentFreq) := by
  refine ⟨inRange_run xs, fun {c target adj} ht ha hf => ⟨hf.newFreq_eq, fun hadj hmin => ?_⟩⟩
  have hc : c.currentFreq = (run xs).currentFreq := by
    rw [← targetFreq_currentFreq (c := run xs) (x := x), ht]
  obtain he | he := sample_cases ht
  · rw [he]
    exact UInt16.le_refl _
  · rw [he, ← hc, ← ha]
    exact hf.smooth_le hadj (hc ▸ hmin)

-- Many processes that are switched often.
def busy : Sample :=
  { processCount := 20
    depths := fun _ => 0
    csDelta := 250
    timeDelta := 25
    due := by decide }

-- Only one process is left.
def calm : Sample :=
  { processCount := 1
    depths := fun _ => 0
    csDelta := 100
    timeDelta := 25
    due := by decide }

-- The frequency is lowered when the processes are gone.
theorem run_sound_calm : (targetFreq (run (List.replicate 8 busy ++ List.replicate 3 calm)) calm).1 = 599 ∧
    (sample (run (List.replicate 8 busy ++ List.replicate 3 calm)) calm).currentFreq ≤
      (run (List.replicate 8 busy ++ List.replicate 3 calm)).currentFreq :=
  ⟨by decide +kernel, ((run_sound _ calm).2 rfl rfl (by decide +kernel)).2 (by decide +kernel)
    (by decide +kernel)⟩

-- The frequency is to be lowered from `828` by `834`, and is raised to `1121`.
theorem frequency_raised : ∃ c d target, c = run (List.replicate 8 busy ++ List.replicate 7 calm) ∧
    d = (targetFreq c calm).2 ∧ target = (targetFreq c calm).1 ∧ c.currentFreq = 828 ∧
    effectiveMin d ≤ c.currentFreq ∧ adjustment d target = -853767 ∧
    newFreq d (adjustment d target) = 2000 ∧ (sample c calm).currentFreq = 1121 := by
  refine ⟨_, _, _, rfl, rfl, rfl, ?_⟩
  decide +kernel

end MLFQ.DynamoX
