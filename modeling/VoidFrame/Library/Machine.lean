import Mathlib

-- Machines that take one action after another. An action can fail, and then the machine stops.

namespace Machine

variable {S A E : Type} {init : S → Prop} {exec : S → A → Except E S} {ok : S → A → Prop} {s : S}

-- The states that are reached by actions which `ok` admits.
inductive Run (init : S → Prop) (exec : S → A → Except E S) (ok : S → A → Prop) : S → Prop
  | init {s : S} : init s → Run init exec ok s
  | step {s s' : S} {a : A} : Run init exec ok s → ok s a → exec s a = .ok s' → Run init exec ok s'

-- What holds at first and is kept by every action that is admitted holds always.
lemma Run.invariant {P : S → Prop} (h : Run init exec ok s) (hi : ∀ s, init s → P s)
    (hs : ∀ {s a s'}, P s → ok s a → exec s a = .ok s' → P s') : P s := by
  induction h
  case init s h => exact hi s h
  case step ha he ih => exact hs ih ha he

lemma Run.mono (h : Run init exec ok s) (hok : ∀ s a, ok s a → ok' s a) :
    Run init exec ok' s := by
  induction h
  case init s h => exact .init h
  case step ha he ih => exact .step ih (hok _ _ ha) he

lemma exists_exec {l : List A} {P : S → Prop} [DecidablePred P]
    (h : ((l.foldlM exec s).toOption.any (P ·)) = true) : ∃ s', l.foldlM exec s = .ok s' ∧ P s' := by
  cases he : l.foldlM exec s
  case error e => simp [he, Except.toOption] at h
  case ok s' => exact ⟨s', rfl, by simpa [he, Except.toOption] using h⟩

-- The state after a list of actions, each of which is checked to be admitted.
lemma Run.exists_of_all [∀ s a, Decidable (ok s a)] {l : List A} {P : S → Prop} [DecidablePred P]
    (hs : Run init exec ok s)
    (h : (l.foldlM (fun s a => if ok s a then (exec s a).toOption else none) s).any (P ·) = true) :
    ∃ s', Run init exec ok s' ∧ P s' := by
  induction l generalizing s
  case nil => exact ⟨s, hs, by simpa using h⟩
  case cons a l ih =>
    rw [List.foldlM_cons] at h
    split at h
    case isFalse => simp at h
    case isTrue ha =>
      cases he : exec s a
      case error e => simp [he, Except.toOption] at h
      case ok s' => exact ih (.step hs ha he) (by simpa [he, Except.toOption] using h)

end Machine
