import Mathlib

-- Stateful computations that keep an invariant of their state.

namespace Effect

variable {S α β : Type} {I : S → Prop} {Q : α → Prop} {R : β → Prop}

lemma run_bind {m : StateM S α} {f : α → StateM S β} {s : S} :
    (m >>= f).run s = (f (m.run s).1).run (m.run s).2 :=
  rfl

-- From every state that satisfies `I` the computation ends in such a state, with a result that
-- satisfies `Q`.
def Keeps (I : S → Prop) (m : StateM S α) (Q : α → Prop) : Prop :=
  ∀ s, I s → I (m.run s).2 ∧ Q (m.run s).1

lemma Keeps.pure (h : Q a) : Keeps I (Pure.pure a) Q :=
  fun _ hs => ⟨hs, h⟩

lemma Keeps.bind (hm : Keeps I m Q) (hf : ∀ a, Q a → Keeps I (f a) R) : Keeps I (m >>= f) R := by
  intro s hs
  obtain ⟨hi, hq⟩ := hm s hs
  exact hf _ hq _ hi

lemma Keeps.ends {P : S → Prop} {m : StateM S α} {f : α → StateM S β} {s : S} (hm : Keeps I m Q) (hs : I s)
    (hf : ∀ a s', I s' → Q a → P ((f a).run s').2) : P ((m >>= f).run s).2 :=
  hf _ _ (hm s hs).1 (hm s hs).2

lemma Keeps.ite [Decidable c] (hm : c → Keeps I m Q)
    (hn : ¬c → Keeps I n Q) : Keeps I (if c then m else n) Q := by
  by_cases h : c
  case pos =>
    rw [if_pos h]
    exact hm h
  rw [if_neg h]
  exact hn h

lemma Keeps.modify {f : S → S} (h : ∀ s, I s → I (f s)) :
    Keeps I (modifyGet fun s => (PUnit.unit, f s) : StateM S PUnit) (fun _ => True) :=
  fun s hs => ⟨h s hs, trivial⟩

lemma Keeps.get : Keeps I (MonadState.get : StateM S S) I :=
  fun _ hs => ⟨hs, hs⟩

end Effect
