import VoidFrame.Library.Stack
import VoidFrame.Mem.Magazine

-- Where the magazines are.

namespace MagazineHeap

open Function (update update_of_ne update_self)

variable {s t : State} {m n : MagazineId} {k : SizeClass} {f : Fill} {cpu : Cpu} {a : Option MagazineId}
  {mag : Magazine}

inductive Place
  | pool
  | depot (k : SizeClass) (f : Fill)
  | active (cpu : Cpu) (k : SizeClass)
  deriving DecidableEq, Fintype

section

variable {place place₁ place₂ : MagazineId → Option Place} {p p' : Place}

def Place.sizeClass : Place → Option SizeClass
  | .pool => none
  | .depot k _ => some k
  | .active _ k => some k

def Serves (place : MagazineId → Option Place) (m : MagazineId) (k : SizeClass) : Prop :=
  ∃ p, place m = some p ∧ p.sizeClass = some k

-- Magazines are moved inside of their size classes, or to the pool.
structure Kept (place place' : MagazineId → Option Place) : Prop where
  placed : ∀ n, place' n = none → place n = none
  serves : ∀ n k, Serves place' n k → Serves place n k

namespace Kept

lemma refl (place : MagazineId → Option Place) : Kept place place :=
  ⟨fun _ => id, fun _ _ => id⟩

lemma trans (h1 : Kept place place₁) (h2 : Kept place₁ place₂) : Kept place place₂ :=
  ⟨fun n hn => h1.placed n (h2.placed n hn), fun n k hn => h1.serves n k (h2.serves n k hn)⟩

lemma update (hm : place m = some p) (hp : p'.sizeClass = none ∨ p'.sizeClass = p.sizeClass) :
    Kept place (update place m (some p')) := by
  refine ⟨fun n hn => ?_, fun n k hn => ?_⟩
  · by_cases hnm : n = m
    · rw [hnm, update_self] at hn
      cases hn
    · rwa [update_of_ne hnm] at hn
  · obtain ⟨q, hq, hk⟩ := hn
    by_cases hnm : n = m
    · rw [hnm, update_self] at hq
      cases hq
      obtain hp | hp := hp
      · cases hp.symm.trans hk
      · exact ⟨p, hnm ▸ hm, hp ▸ hk⟩
    · exact ⟨q, (update_of_ne hnm ..).symm.trans hq, hk⟩

end Kept

end

def head (s : State) : Place → Option MagazineId
  | .pool => s.magazinePoolHead
  | .depot k f => s.depots k f
  | .active cpu k => s.caches cpu k

def next (s : State) (m : MagazineId) : Option MagazineId :=
  (s.magazines m).next

@[simp]
lemma head_setPool : head (s.setPool a) = update (head s) .pool a := by
  funext p
  cases p <;> simp [head, State.setPool]

@[simp]
lemma head_setDepot : head (s.setDepot k f a) = update (head s) (.depot k f) a := by
  funext p
  cases p
  case depot k' f' =>
    by_cases hk : k' = k
    · by_cases hf : f' = f
      · simp [head, State.setDepot, hk, hf]
      · simp [head, State.setDepot, hk, hf]
    · simp [head, State.setDepot, hk]
  all_goals simp [head, State.setDepot]

@[simp]
lemma head_setCache : head (s.setCache cpu k a) = update (head s) (.active cpu k) a := by
  funext p
  cases p
  case active cpu' k' =>
    by_cases hc : cpu' = cpu
    · by_cases hk : k' = k
      · simp [head, State.setCache, hk, hc]
      · simp [head, State.setCache, hk, hc]
    · simp [head, State.setCache, hc]
  all_goals simp [head, State.setCache]

@[simp]
lemma head_setMagazine : head (s.setMagazine m mag) = head s := by
  funext p
  cases p <;> rfl

@[simp]
lemma next_setMagazine : next (s.setMagazine m mag) = update (next s) m mag.next := by
  funext n
  by_cases hn : n = m
  · simp [next, State.setMagazine, hn]
  · simp [next, State.setMagazine, hn]

@[simp]
lemma next_setPool : next (s.setPool a) = next s :=
  rfl

@[simp]
lemma next_setDepot : next (s.setDepot k f a) = next s :=
  rfl

@[simp]
lemma next_setCache : next (s.setCache cpu k a) = next s :=
  rfl

-- Each magazine is at one place at most. The active ones have no successor.
structure Shelved (s : State) (place : MagazineId → Option Place) : Prop where
  rows : ∃ L, Stack.Rows (next s) (head s) L place
  single : ∀ cpu k m, head s (.active cpu k) = some m → next s m = none

variable {place : MagazineId → Option Place}

namespace Shelved

lemma place_of_head (h : Shelved s place) (hm : head s p = some m) : place m = some p := by
  obtain ⟨L, hL⟩ := h.rows
  exact hL.place_of_head hm

lemma place_ne (h : Shelved s place) (hp : head s p = none) : place m ≠ some p := fun hm => by
  obtain ⟨L, hL⟩ := h.rows
  have hhold := hL.holds p
  have hmem := hL.mem.mpr hm
  rw [hp] at hhold
  rw [hhold.eq_nil] at hmem
  cases hmem

lemma mem_active (h : Shelved s place) : s.caches cpu k = some m ↔ place m = some (.active cpu k) := by
  refine ⟨fun hm => h.place_of_head (p := .active cpu k) hm, fun hm => ?_⟩
  rcases hc : s.caches cpu k with _ | n
  · exact absurd hm (h.place_ne hc)
  obtain ⟨L, hL⟩ := h.rows
  have hmem := hL.mem.mpr hm
  have hhold : Stack.Holds (next s) (s.caches cpu k) (L (.active cpu k)) := hL.holds (.active cpu k)
  rw [hc] at hhold
  obtain ⟨t, ht, hn⟩ := hhold.eq_cons
  rw [h.single cpu k n hc] at hn
  rw [ht, hn.eq_nil, List.mem_singleton] at hmem
  rw [hmem]

lemma pop (h : Shelved s place) (hm : head s p = some m)
    (hh : head t = update (head s) p (next s m)) (hn : next t = update (next s) m none) :
    Shelved t (update place m none) := by
  obtain ⟨L, hL⟩ := h.rows
  refine ⟨?_, fun cpu k n hc => ?_⟩
  · have hpop : Stack.Rows (next t) _ _ _ := hL.pop hm fun n hne => by rw [hn, update_of_ne hne]
    rw [← hh] at hpop
    exact ⟨_, hpop⟩
  · by_cases hnm : n = m
    · rw [hn, hnm, update_self]
    · rw [hn, update_of_ne hnm]
      by_cases hp : Place.active cpu k = p
      case pos =>
        subst hp
        rw [hh, update_self, h.single cpu k m hm] at hc
        cases hc
      rw [hh, update_of_ne hp] at hc
      exact h.single cpu k n hc

lemma push (h : Shelved s place) (hm : place m = none) (hp : ∀ cpu k, p ≠ .active cpu k)
    (hh : head t = update (head s) p (some m)) (hn : next t = update (next s) m (head s p)) :
    Shelved t (update place m (some p)) := by
  obtain ⟨L, hL⟩ := h.rows
  refine ⟨?_, fun cpu k n hc => ?_⟩
  · rw [hh, hn]
    exact ⟨_, hL.push hm⟩
  · rw [hh, update_of_ne (hp cpu k).symm] at hc
    have hnm : n ≠ m := by
      rintro rfl
      rw [h.place_of_head hc] at hm
      cases hm
    rw [hn, update_of_ne hnm]
    exact h.single cpu k n hc

lemma install (h : Shelved s place) (hm : place m = none) (hn : next s m = none)
    (hc : s.caches cpu k = none) :
    Shelved (s.setCache cpu k (some m)) (update place m (some (.active cpu k))) := by
  obtain ⟨L, hL⟩ := h.rows
  refine ⟨?_, fun cpu' k' n hc' => ?_⟩
  · have hpush := hL.push (i := .active cpu k) hm
    have hsame : update (next s) m (head s (.active cpu k)) = next s :=
      Function.update_eq_self_iff.mpr (hc.trans hn.symm)
    rw [hsame] at hpush
    rw [head_setCache, next_setCache]
    exact ⟨_, hpush⟩
  · rw [head_setCache] at hc'
    by_cases hp : Place.active cpu' k' = .active cpu k
    case pos =>
      rw [hp, update_self] at hc'
      rw [← Option.some.inj hc']
      exact hn
    rw [update_of_ne hp] at hc'
    exact h.single cpu' k' n hc'

lemma clear (h : Shelved s place) (hc : s.caches cpu k = some m) :
    Shelved (s.setCache cpu k none) (update place m none) := by
  have hn : next s m = none := h.single cpu k m hc
  refine h.pop (p := .active cpu k) hc ?_ ?_
  · rw [head_setCache, hn]
  · exact (Function.update_eq_self_iff.mpr hn.symm).symm

end Shelved

end MagazineHeap
