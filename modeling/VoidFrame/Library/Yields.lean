import Mathlib

-- Total correctness of computations that can fail: `x.Yields P` states that `x` has a result, and that `P`
-- holds of it.

namespace Except

variable {ε α β : Type} {P : α → Prop} {Q : β → Prop}

lemma ok_bind {a : α} {f : α → Except ε β} : (ok a >>= f) = f a :=
  rfl

def Yields (x : Except ε α) (P : α → Prop) : Prop :=
  ∃ a, x = .ok a ∧ P a

namespace Yields

lemma ok {a : α} (h : P a) : (ok a : Except ε α).Yields P :=
  ⟨a, rfl, h⟩

lemma of_eq {x : Except ε α} {a : α} (he : x = .ok a) (h : P a) : x.Yields P :=
  ⟨a, he, h⟩

lemma bind {x : Except ε α} {f : α → Except ε β} (hx : x.Yields P) (hf : ∀ a, P a → (f a).Yields Q) :
    (x >>= f).Yields Q := by
  obtain ⟨a, he, ha⟩ := hx
  rw [he]
  exact hf a ha

lemma ite {c : Prop} [Decidable c] {x y : Except ε α} (hx : c → x.Yields P) (hy : ¬c → y.Yields P) :
    (if c then x else y).Yields P := by
  by_cases h : c
  · rw [if_pos h]; exact hx h
  · rw [if_neg h]; exact hy h

lemma exists_eq {x : Except ε α} (hx : x.Yields P) : ∃ a, x = .ok a := by
  obtain ⟨a, he, -⟩ := hx
  exact ⟨a, he⟩

end Yields

end Except
