import Mathlib

-- Stacks: singly linked lists that run through the nodes of a store, and change at their heads only.

namespace Stack

variable {N I : Type*} {next next' : N → Option N} {head : Option N} {l : List N} {n : N}

def Holds (next : N → Option N) : Option N → List N → Prop
  | head, [] => head = none
  | head, n :: l => head = some n ∧ Holds next (next n) l

lemma Holds.congr (h : Holds next head l) (hn : ∀ n ∈ l, next' n = next n) : Holds next' head l := by
  induction l generalizing head
  case nil => exact h
  case cons n l ih =>
    refine ⟨h.1, ?_⟩
    rw [hn n (.head l)]
    exact ih h.2 fun m hm => hn m (.tail n hm)

lemma Holds.eq_nil (h : Holds next none l) : l = [] := by
  cases l
  case nil => rfl
  case cons n l => cases h.1

lemma Holds.eq_cons (h : Holds next (some n) l) : ∃ t, l = n :: t ∧ Holds next (next n) t := by
  rcases l with _ | ⟨m, l⟩
  · cases h
  obtain ⟨hm, hl⟩ := h
  cases hm
  exact ⟨l, rfl, hl⟩

def walk (next : N → Option N) : Nat → Option N → List N
  | fuel + 1, some n => n :: walk next fuel (next n)
  | _,        _ => []

lemma Holds.walk_eq (h : Holds next head l) (hf : l.length ≤ fuel) : walk next fuel head = l := by
  induction l generalizing head fuel
  case nil =>
    cases h
    cases fuel <;> rfl
  case cons n l ih =>
    obtain ⟨fuel, rfl⟩ := Nat.exists_eq_succ_of_ne_zero (Nat.ne_zero_of_lt hf)
    rw [h.1, walk, ih h.2 (Nat.le_of_succ_le_succ hf)]

lemma holds_drop_finRange {size : Nat} {next : Fin size → Option (Fin size)} (i : Nat) (hi : i ≤ size)
    (hn : ∀ m (h : m + 1 < size), next ⟨m, by omega⟩ = some ⟨m + 1, h⟩)
    (hl : ∀ m (h : m + 1 = size), next ⟨m, by omega⟩ = none) (head : Option (Fin size))
    (hh : ∀ h : i < size, head = some ⟨i, h⟩) (he : i = size → head = none) :
    Holds next head ((List.finRange size).drop i) := by
  -- from the last node down to the first
  induction hk : size - i generalizing i head
  case zero =>
    have hlen : (List.finRange size).length ≤ i := by
      rw [List.length_finRange]
      omega
    rw [List.drop_of_length_le hlen]
    exact he (by omega)
  case succ k ih =>
    have hlt : i < size := by omega
    rw [List.drop_eq_getElem_cons (by rwa [List.length_finRange]), List.getElem_finRange]
    exact ⟨hh hlt, ih (i + 1) hlt hn hl _ (hn i) (hl i) (by omega)⟩

section

open Function (update update_of_ne update_self)

-- Each node is in one of several stacks at most: its place.
structure Rows (next : N → Option N) (head : I → Option N) (L : I → List N) (place : N → Option I) : Prop where
  holds : ∀ i, Holds next (head i) (L i)
  nodup : ∀ i, (L i).Nodup
  mem : ∀ {i n}, n ∈ L i ↔ place n = some i

variable {heads : I → Option N} {L : I → List N} {place : N → Option I} {i : I}

namespace Rows

lemma place_of_head (h : Rows next heads L place) (hn : heads i = some n) : place n = some i := by
  obtain ⟨t, ht, -⟩ := (hn ▸ h.holds i).eq_cons
  exact h.mem.mp (ht ▸ .head t)

variable [DecidableEq N] [DecidableEq I]

lemma finRange {size : Nat} {next : Fin size → Option (Fin size)} {heads : I → Option (Fin size)}
    (hn : ∀ m (h : m + 1 < size), next ⟨m, by omega⟩ = some ⟨m + 1, h⟩)
    (hl : ∀ m (h : m + 1 = size), next ⟨m, by omega⟩ = none) (hs : 0 < size) (hi : heads i = some ⟨0, hs⟩)
    (hj : ∀ j ≠ i, heads j = none) :
    Rows next heads (fun j => if j = i then List.finRange size else []) fun _ => some i := by
  refine ⟨fun j => ?_, fun j => ?_, fun {j m} => ?_⟩
  · split
    case isTrue h =>
      have hall := holds_drop_finRange 0 hs.le hn hl (heads i) (fun _ => hi) fun h => absurd h hs.ne
      rwa [h, ← List.drop_zero (l := List.finRange size)]
    case isFalse h => exact hj j h
  · split
    · exact List.nodup_finRange size
    · exact List.nodup_nil
  · split
    case isTrue h => simp [h]
    case isFalse h => simpa using Ne.symm h

lemma push (h : Rows next heads L place) (hn : place n = none) :
    Rows (update next n (heads i)) (update heads i (some n)) (update L i (n :: L i))
      (update place n (some i)) := by
  have hnot (j : I) : n ∉ L j := fun hm => by
    rw [h.mem.mp hm] at hn
    cases hn
  have hold (j : I) : Holds (update next n (heads i)) (heads j) (L j) :=
    (h.holds j).congr fun m hm => update_of_ne (fun he : m = n => hnot j (he ▸ hm)) ..
  refine ⟨fun j => ?_, fun j => ?_, fun {j m} => ?_⟩
  · by_cases hj : j = i
    · subst hj
      rw [update_self, update_self]
      refine ⟨rfl, ?_⟩
      rw [update_self]
      exact hold j
    · rw [update_of_ne hj, update_of_ne hj]
      exact hold j
  · by_cases hj : j = i
    · subst hj
      rw [update_self]
      exact List.nodup_cons.mpr ⟨hnot j, h.nodup j⟩
    · rw [update_of_ne hj]
      exact h.nodup j
  · by_cases hj : j = i
    · subst hj
      rw [update_self, List.mem_cons]
      by_cases hm : m = n
      · simp [hm]
      · rw [update_of_ne hm, ← h.mem]; simp [hm]
    · rw [update_of_ne hj, h.mem]
      by_cases hm : m = n
      · rw [hm, update_self, hn]
        simp [Ne.symm hj]
      · rw [update_of_ne hm]

lemma pop (h : Rows next heads L place) (hn : heads i = some n) (hnext : ∀ m ≠ n, next' m = next m) :
    Rows next' (update heads i (next n)) (update L i (L i).tail) (update place n none) := by
  obtain ⟨t, ht, hh⟩ := (hn ▸ h.holds i).eq_cons
  have hnt : n ∉ t := (List.nodup_cons.mp (ht ▸ h.nodup i)).1
  have hplace : place n = some i := h.place_of_head hn
  have htail : (L i).tail = t := by rw [ht, List.tail_cons]
  rw [htail]
  refine ⟨fun j => ?_, fun j => ?_, fun {j m} => ?_⟩
  · by_cases hj : j = i
    · subst hj
      rw [update_self, update_self]
      exact hh.congr fun m hm => hnext m fun he => hnt (he ▸ hm)
    · rw [update_of_ne hj, update_of_ne hj]
      refine (h.holds j).congr fun m hm => hnext m fun he => hj ?_
      have hp := h.mem.mp hm
      rw [he, hplace] at hp
      exact (Option.some.inj hp).symm
  · by_cases hj : j = i
    · subst hj
      rw [update_self]
      exact (List.nodup_cons.mp (ht ▸ h.nodup j)).2
    · rw [update_of_ne hj]
      exact h.nodup j
  · by_cases hm : m = n
    · subst hm
      rw [update_self]
      refine iff_of_false ?_ nofun
      by_cases hj : j = i
      case pos => rwa [hj, update_self]
      rw [update_of_ne hj, h.mem, hplace]
      exact fun he => hj (Option.some.inj he).symm
    · rw [update_of_ne hm, ← h.mem]
      by_cases hj : j = i
      · subst hj
        rw [update_self, ht, List.mem_cons]
        exact (or_iff_right hm).symm
      · rw [update_of_ne hj]

end Rows

end

end Stack
