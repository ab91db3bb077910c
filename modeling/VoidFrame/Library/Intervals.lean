import Mathlib

-- Intervals of given lengths, one behind the other, and the one into which a number falls. There may be no
-- interval with a given index.

namespace Intervals

variable {len : Nat → Option Nat}

def total (len : Nat → Option Nat) (start : Nat) : Nat → Option Nat
  | 0 => some 0
  | count + 1 => do return (← total len start count) + (← len (start + count))

-- How far `d` is in its interval, and the index of the interval. Intervals are taken off as long as they fit.
def locate (len : Nat → Option Nat) : Nat → Nat → Nat → Option (Nat × Nat)
  | 0,        _, _ => none
  | fuel + 1, d, i => do
    let n ← len i
    if n ≤ d then locate len fuel (d - n) (i + 1) else return (d, i)

lemma total_succ_eq (h : total len start (count + 1) = some n) :
    ∃ a b, total len start count = some a ∧ len (start + count) = some b ∧ a + b = n := by
  obtain ⟨a, ha, h⟩ := Option.bind_eq_some_iff.mp h
  obtain ⟨b, hb, h⟩ := Option.bind_eq_some_iff.mp h
  exact ⟨a, b, ha, hb, Option.some.inj h⟩

lemma total_succ_eq_head (h : total len start (count + 1) = some n) :
    ∃ a b, len start = some a ∧ total len (start + 1) count = some b ∧ a + b = n := by
  induction count generalizing n
  case zero =>
    obtain ⟨a, b, ha, hb, rfl⟩ := total_succ_eq h
    obtain rfl : 0 = a := Option.some.inj ha
    exact ⟨b, 0, hb, rfl, Nat.add_comm b 0⟩
  case succ count ih =>
    obtain ⟨c, b, hc, hb, rfl⟩ := total_succ_eq h
    obtain ⟨a, d, ha, hd, rfl⟩ := ih hc
    refine ⟨a, d + b, ha, ?_, (Nat.add_assoc a d b).symm⟩
    rw [total, hd, show start + 1 + count = start + (count + 1) by omega, hb]
    rfl

lemma total_cons (ha : len start = some a) (hb : total len (start + 1) count = some b) :
    total len start (count + 1) = some (a + b) := by
  induction count generalizing b
  case zero =>
    obtain rfl : 0 = b := Option.some.inj hb
    simp [total, ha]
  case succ count ih =>
    obtain ⟨c, d, hc, hd, rfl⟩ := total_succ_eq hb
    rw [total, ih hc, show start + (count + 1) = start + 1 + count by omega, hd]
    exact congrArg some (Nat.add_assoc a c d)

lemma exists_locate (hp : ∀ i, len i ≠ some 0) (hn : total len start count = some n)
    (hd : d < n) (hf : d < fuel) :
    ∃ rest k m l, locate len fuel d start = some (rest, start + k) ∧ k < count ∧ total len start k = some m ∧
      m + rest = d ∧ len (start + k) = some l ∧ rest < l := by
  induction count generalizing start n d fuel
  case zero =>
    obtain rfl : 0 = n := Option.some.inj hn
    exact absurd hd (Nat.not_lt_zero d)
  case succ count ih =>
    obtain ⟨a, b, ha, hb, rfl⟩ := total_succ_eq_head hn
    have hpos : a ≠ 0 := fun h0 => hp start (h0 ▸ ha)
    obtain ⟨fuel, rfl⟩ : ∃ k, fuel = k + 1 := ⟨fuel - 1, by omega⟩
    rw [locate, ha]
    by_cases hle : a ≤ d
    · obtain ⟨rest, k, m, l, hl, hk, hm, hs, hr⟩ := ih hb (show d - a < b by omega) (show d - a < fuel by omega)
      refine ⟨rest, k + 1, a + m, l, ?_, by omega, total_cons ha hm, by omega, ?_⟩
      · rw [show start + (k + 1) = start + 1 + k by omega, ← hl]
        exact if_pos hle
      · rw [show start + (k + 1) = start + 1 + k by omega]
        exact hr
    · exact ⟨d, 0, 0, a, if_neg hle, by omega, rfl, by omega, ha, by omega⟩

end Intervals
