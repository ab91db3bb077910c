import VoidFrame.Sched.EEVDF.Guard
import VoidFrame.Sched.EEVDF.Theorems.Change

-- What Cerberus holds back.

namespace EEVDF

variable {s : State} {regs : Registers} {p : Slot}

-- The scheduler makes no process runnable, apart from new ones and those that it wakes up.
lemma lax_runnable : Lax fun a b => b.Runnable → a.Runnable where
  trans h h' hc := h (h' hc)
  tunes h hb := by
    obtain he | hz | ⟨ha, -⟩ := h.state
    · unfold ProcessControlBlock.Runnable at *
      rwa [← he]
    · unfold ProcessControlBlock.Runnable at hb
      rw [hz] at hb
      simp at hb
    · exact ha
  clear _ hb := by simp [ProcessControlBlock.Runnable] at hb

lemma schedule_runnable (h : schedule s regs = .ok r) (h0 : r.2.rq.currentSlot ≠ 0) :
    (s.processes r.2.rq.currentSlot).Runnable := by
  obtain ⟨t, ht, hr⟩ := ((schedule_change lax_runnable).of_eq h).2 h0
  exact ht _ hr

namespace Guard

variable {w w' : World}

-- No marked process is ready or running when a tick comes.
def Contained (w : World) : Action → Prop
  | .kernel (.schedule _) => ∀ p, w.marked p = true → ¬(w.kernel.processes p).Runnable
  | _ => True

-- The calls to Cerberus have no results, so that the kernel goes on as if they were not made.
lemma step_kernel : World.kernel <$> step w (.kernel a) = (exec w.kernel a).mapError .kernel := by
  cases h : exec w.kernel a
  all_goals
    simp only [step, h]
    rfl

-- The worlds that follow `w` by actions which `ok` admits, for as long as the process of slot `p` exists.
inductive Later (ok : World → Action → Prop) (p : Slot) (w : World) : World → Prop
  | refl : Later ok p w w
  | step {w₁ w₂ : World} {a : Action} : Later ok p w w₁ → ok w₁ a → step w₁ a = .ok w₂ →
    (w₂.kernel.processes p).state ≠ .terminated → Later ok p w w₂

lemma step_marked (h : Guard.step w a = .ok w') (hm : w.marked p = true)
    (hp : (w.kernel.processes p).state ≠ .terminated) (hp' : (w'.kernel.processes p).state ≠ .terminated) :
    w'.marked p = true := by
  unfold Guard.step at h
  cases a
  case kernel a =>
    obtain ⟨s, -, h⟩ := Except.of_bind h
    cases h
    simp only [World.mark, hm, Bool.true_or, Bool.and_true, Bool.and_eq_true, decide_eq_true_eq]
    exact ⟨hp, hp'⟩
  case fault =>
    dsimp only at h
    split at h
    · cases h
    · cases h
      exact hm
  case write =>
    cases h
    exact hm

lemma Later.marked (h : Later ok p w w') (hm : w.marked p = true)
    (hp : (w.kernel.processes p).state ≠ .terminated) :
    w'.marked p = true ∧ (w'.kernel.processes p).state ≠ .terminated := by
  induction h
  case refl => exact ⟨hm, hp⟩
  case step ha he hp' ih => exact ⟨step_marked he ih.1 ih.2 hp', hp'⟩

instance : DecidablePred ProcessControlBlock.Runnable :=
  fun _ => inferInstanceAs (Decidable (_ ∨ _))

def boot : World where
  kernel := schedInit 0 250
  cerberus := { memory := fun _ => some 0 }

lemma boot_initial : Initial boot :=
  ⟨0, 250, fun _ => some 0, rfl⟩

-- The process of slot 1 causes four faults before Cerberus looks at it.
def fourFaults : List Action :=
  List.replicate 499 (.kernel (.schedule {})) ++ [.kernel (.create 0x1000 privNorm capNone 0x8000)] ++
    List.replicate 4 (.fault 0 0 1) ++ [.kernel (.schedule {})]

end Guard

end EEVDF
