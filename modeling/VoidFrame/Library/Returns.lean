import Mathlib

-- Partial correctness of computations that can fail: `x.Returns P` states that `P` holds of the result
-- of `x`, if `x` has one.

universe u

section

variable {α β : Type u} {P : α → Prop} {Q : β → Prop}

def Option.Returns (x : Option α) (P : α → Prop) : Prop :=
  ∀ a, x = some a → P a

namespace Option.Returns

lemma of_eq (h : x.Returns P) (he : x = some a) : P a :=
  h a he

lemma none : (none : Option α).Returns P :=
  nofun

lemma some (h : P a) : (some a).Returns P
  | _, rfl => h

lemma bind {x : Option α} {f : α → Option β} (hx : x.Returns P) (hf : ∀ a, P a → (f a).Returns Q) :
    (x >>= f).Returns Q := by
  intro b hb
  have ⟨a, ha, hb⟩ := Option.bind_eq_some_iff.mp hb
  exact hf a (hx a ha) b hb

lemma skip {x : Option α} {f : α → Option β} (hf : ∀ a, (f a).Returns Q) : (x >>= f).Returns Q :=
  bind (P := fun _ => True) (fun _ _ => trivial) fun a _ => hf a

lemma map {x : Option α} {f : α → β} (hx : x.Returns fun a => Q (f a)) : (x.map f).Returns Q := by
  intro b hb
  have ⟨a, ha, hb⟩ := Option.map_eq_some_iff.mp hb
  exact hb ▸ hx a ha

lemma mono {R : α → Prop} {x : Option α} (hx : x.Returns P) (h : ∀ a, P a → R a) : x.Returns R :=
  fun a ha => h a (hx a ha)

end Option.Returns

end

section

variable {ε α β : Type u} {P : α → Prop} {Q : β → Prop}

def Except.Returns (x : Except ε α) (P : α → Prop) : Prop :=
  ∀ a, x = .ok a → P a

lemma Except.bind_eq_ok_iff {x : Except ε α} {f : α → Except ε β} {b : β} :
    x >>= f = .ok b ↔ ∃ a, x = .ok a ∧ f a = .ok b := by
  cases x <;> simp [bind, Except.bind]

lemma Except.of_bind {x : Except ε α} {f : α → Except ε β} (h : x >>= f = .ok b) :
    ∃ a, x = .ok a ∧ f a = .ok b :=
  Except.bind_eq_ok_iff.mp h

lemma Except.of_map {x : Except ε α} {f : α → β} {b : β} (h : f <$> x = .ok b) :
    ∃ a, x = .ok a ∧ f a = b := by
  cases x
  case error => cases h
  case ok a => exact ⟨a, rfl, Except.ok.inj h⟩

lemma Except.exists_of_any {x : Except ε α} [DecidablePred P] (h : x.toOption.any (P ·) = true) :
    ∃ a, x = .ok a ∧ P a := by
  cases x
  case error e => simp [Except.toOption] at h
  case ok a => exact ⟨a, rfl, by simpa [Except.toOption] using h⟩

instance {x : Except ε α} [DecidablePred P] : Decidable (x.Returns P) :=
  match x with
  | .error _ => isTrue nofun
  | .ok a => decidable_of_iff (P a) ⟨fun h _ he => Except.ok.inj he ▸ h, fun h => h a rfl⟩

namespace Except.Returns

lemma of_eq {x : Except ε α} {a : α} (h : x.Returns P) (he : x = .ok a) : P a :=
  h a he

lemma error : (error e : Except ε α).Returns P :=
  nofun

lemma ok (h : P a) : (ok a : Except ε α).Returns P
  | _, rfl => h

lemma bind {x : Except ε α} {f : α → Except ε β} (hx : x.Returns P)
    (hf : ∀ a, P a → (f a).Returns Q) : (x >>= f).Returns Q := by
  intro b hb
  have ⟨a, ha, hb⟩ := Except.of_bind hb
  exact hf a (hx a ha) b hb

lemma skip {x : Except ε α} {f : α → Except ε β} (hf : ∀ a, (f a).Returns Q) :
    (x >>= f).Returns Q :=
  bind (P := fun _ => True) (fun _ _ => trivial) fun a _ => hf a

lemma mono {R : α → Prop} {x : Except ε α} (hx : x.Returns P) (h : ∀ a, P a → R a) : x.Returns R :=
  fun a ha => h a (hx a ha)

end Except.Returns

-- A computation does not fail with a given error, and `P` holds of its result.
def Except.Safe (x : Except ε α) (e : ε) (P : α → Prop) : Prop :=
  match x with
  | ok a => P a
  | error e' => e' ≠ e

instance {x : Except ε α} {e : ε} [DecidableEq ε] [DecidablePred P] : Decidable (x.Safe e P) :=
  match x with
  | .error e' => inferInstanceAs (Decidable (e' ≠ e))
  | .ok a => inferInstanceAs (Decidable (P a))

namespace Except.Safe

variable {e e' : ε}

lemma ok (h : P a) : (ok a).Safe e P :=
  h

lemma error (h : e' ≠ e) : (error e' : Except ε α).Safe e P :=
  h

lemma eq_error {x : Except ε α} (h : ¬x.Safe e fun _ => True) : x = .error e := by
  cases x
  case error => exact congrArg Except.error (not_not.mp h)
  case ok a => exact absurd trivial h

lemma returns {x : Except ε α} (h : x.Safe e P) : x.Returns P := by
  cases x
  case error => exact .error
  case ok a => exact .ok h

lemma of_returns {x : Except ε α} (h : x.Safe e fun _ => True) (hx : x.Returns P) : x.Safe e P := by
  cases x
  case error => exact h
  case ok a => exact hx.of_eq rfl

lemma bind {x : Except ε α} {f : α → Except ε β} (hx : x.Safe e P)
    (hf : ∀ a, P a → (f a).Safe e Q) : (x >>= f).Safe e Q := by
  cases x
  case error => exact hx
  case ok a => exact hf a hx

lemma mono {R : α → Prop} {x : Except ε α} (hx : x.Safe e P) (h : ∀ a, P a → R a) : x.Safe e R := by
  cases x
  case error => exact hx
  case ok a => exact h a hx

end Except.Safe

-- A computation fails outside of a condition only, and `P` holds of its result.
def Except.Within (x : Except ε α) (c : Prop) (P : α → Prop) : Prop :=
  match x with
  | ok a => P a
  | error _ => ¬c

namespace Except.Within

variable {c c' : Prop}

lemma ok (h : P a) : (ok a : Except ε α).Within c P :=
  h

lemma error (h : ¬c) : (error e : Except ε α).Within c P :=
  h

lemma of_eq {x : Except ε α} {a : α} (h : x.Within c P) (he : x = .ok a) : P a := by
  subst he
  exact h

lemma exists_of {x : Except ε α} (h : x.Within c P) (hc : c) : ∃ a, x = .ok a ∧ P a := by
  cases x
  case error e => exact absurd hc h
  case ok a => exact ⟨a, rfl, h⟩

lemma bind {x : Except ε α} {f : α → Except ε β} (hx : x.Within c P)
    (hf : ∀ a, P a → (f a).Within c Q) : (x >>= f).Within c Q := by
  cases x
  case error => exact hx
  case ok a => exact hf a hx

lemma map {x : Except ε α} {f : α → β} (hx : x.Within c fun a => Q (f a)) : (f <$> x).Within c Q := by
  cases x
  case error => exact hx
  case ok a => exact hx

lemma mono {R : α → Prop} {x : Except ε α} (hx : x.Within c P) (h : ∀ a, P a → R a) :
    x.Within c R := by
  cases x
  case error => exact hx
  case ok a => exact h a hx

lemma weaken {x : Except ε α} (hx : x.Within c P) (h : c' → c) : x.Within c' P := by
  cases x
  case error => exact fun hc => hx (h hc)
  case ok a => exact hx

end Except.Within

end
