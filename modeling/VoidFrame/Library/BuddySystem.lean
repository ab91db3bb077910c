import Mathlib

-- Blocks of a buddy system: a block of order `o` has `2 ^ (o + m)` bytes, and the halves of a block are
-- buddies. Nothing is assumed about the alignment of blocks.

namespace BuddySystem

structure Block where
  base : UInt64
  order : Nat
  deriving DecidableEq, Repr

def bytes (m o : Nat) : UInt64 :=
  .ofNat (2 ^ (o + m))

variable {m n o k : Nat} {x y : UInt64}

lemma toNat_bytes (ho : o + m < 64) : (bytes m o).toNat = 2 ^ (o + m) := by
  rw [bytes, UInt64.toNat_ofNat']
  exact Nat.mod_eq_of_lt (Nat.pow_lt_pow_right (by decide) ho)

lemma two_pow_succ : 2 ^ (o + 1 + m) = 2 ^ (o + m) + 2 ^ (o + m) := by
  rw [show o + 1 + m = o + m + 1 by omega, Nat.pow_succ]
  omega

lemma getLsbD_bytes (ho : o + m < 64) (i : Nat) :
    (bytes m o).toBitVec.getLsbD i = decide (i = o + m) := by
  have h : (bytes m o).toBitVec = BitVec.twoPow 64 (o + m) := by
    apply BitVec.eq_of_toNat_eq
    rw [BitVec.toNat_twoPow]
    rfl
  rw [h, BitVec.getLsbD_twoPow]
  by_cases hi : i = o + m
  · simp [hi, ho]
  · simp [hi, Ne.symm hi]

-- A buddy whose bit is clear comes first.
lemma xor_of_clear (ho : o + m < 64) (hx : x.toNat.testBit (o + m) = false) :
    x ^^^ bytes m o = x + bytes m o ∧ (x + bytes m o).toNat = x.toNat + 2 ^ (o + m) := by
  have hand : x.toBitVec &&& (bytes m o).toBitVec = 0#64 := by
    apply BitVec.eq_of_getLsbD_eq
    intro i hi
    rw [BitVec.getLsbD_and, getLsbD_bytes ho]
    by_cases he : i = o + m
    case neg => simp [he]
    subst he
    simp only [← BitVec.testBit_toNat]
    simpa using hx
  refine ⟨?_, toNat_bytes ho ▸ BitVec.toNat_add_of_and_eq_zero hand⟩
  apply UInt64.toBitVec_inj.mp
  rw [UInt64.toBitVec_xor, UInt64.toBitVec_add, BitVec.add_eq_or_of_and_eq_zero _ _ hand]
  apply BitVec.eq_of_getLsbD_eq
  intro i hi
  have hb := congrArg (BitVec.getLsbD · i) hand
  simp only [BitVec.getLsbD_and, BitVec.getLsbD_zero] at hb
  rw [BitVec.getLsbD_xor, BitVec.getLsbD_or]
  revert hb
  cases x.toBitVec.getLsbD i <;> cases (bytes m o).toBitVec.getLsbD i <;> simp

lemma testBit_bytes (ho : o + m < 64) : (bytes m o).toNat.testBit (o + m) = true := by
  have h := getLsbD_bytes ho (o + m)
  rwa [← BitVec.testBit_toNat, decide_eq_true rfl] at h

lemma testBit_xor (ho : o + m < 64) :
    (x ^^^ bytes m o).toNat.testBit (o + m) = !x.toNat.testBit (o + m) := by
  rw [UInt64.toNat_xor, Nat.testBit_xor, testBit_bytes ho, Bool.xor_true]

lemma xor_xor : (x ^^^ bytes m o) ^^^ bytes m o = x := by
  rw [UInt64.xor_assoc, UInt64.xor_self, UInt64.xor_zero]

lemma xor_ne (ho : o + m < 64) : x ^^^ bytes m o ≠ x := by
  intro h
  have hb := testBit_xor (x := x) ho
  rw [h] at hb
  simp at hb

section

variable {start size : UInt64} {b b' : Block} {l l' : List Block}

-- The distance from the start of a region, which can reach over the end of the addresses.
def offset (start x : UInt64) : Nat :=
  (x - start).toNat

def Block.length (m : Nat) (b : Block) : Nat :=
  2 ^ (b.order + m)

lemma Block.length_pos : 0 < b.length m :=
  Nat.two_pow_pos _

def Block.Apart (m : Nat) (start : UInt64) (b b' : Block) : Prop :=
  offset start b.base + b.length m ≤ offset start b'.base ∨
  offset start b'.base + b'.length m ≤ offset start b.base

lemma Block.Apart.symm (h : b.Apart m start b') : b'.Apart m start b :=
  Or.symm h

-- Blocks inside of a region that do not overlap.
structure Tiling (m : Nat) (start size : UInt64) (l : List Block) : Prop where
  inside : ∀ b ∈ l, offset start b.base + b.length m ≤ size.toNat
  apart : l.Pairwise (Block.Apart m start)

lemma offset_add_bytes (h : offset start x + 2 ^ (o + m) < 2 ^ 64) :
    offset start (x + bytes m o) = offset start x + 2 ^ (o + m) := by
  have ho : o + m < 64 := (Nat.pow_lt_pow_iff_right (by decide)).mp ((Nat.le_add_left ..).trans_lt h)
  have hx := x.toNat_lt
  have hs := start.toNat_lt
  unfold offset at h ⊢
  rw [UInt64.toNat_sub] at h ⊢
  rw [UInt64.toNat_sub, UInt64.toNat_add, toNat_bytes ho]
  generalize 2 ^ (o + m) = length at h ⊢
  omega

lemma tiling_cons : Tiling m start size (b :: l) ↔ offset start b.base + b.length m ≤ size.toNat ∧
    (∀ b' ∈ l, b.Apart m start b') ∧ Tiling m start size l := by
  constructor
  · intro h
    obtain ⟨hb, hl⟩ := List.pairwise_cons.mp h.apart
    exact ⟨h.inside b (.head l), hb, fun b' hb' => h.inside b' (.tail b hb'), hl⟩
  · rintro ⟨hb, ha, hl⟩
    refine ⟨fun b' hb' => ?_, List.pairwise_cons.mpr ⟨ha, hl.apart⟩⟩
    obtain rfl | hb' := List.mem_cons.mp hb'
    · exact hb
    · exact hl.inside b' hb'

namespace Tiling

lemma perm (h : Tiling m start size l) (hp : l.Perm l') : Tiling m start size l' :=
  ⟨fun b hb => h.inside b (hp.mem_iff.mpr hb), (hp.pairwise_iff Block.Apart.symm).mp h.apart⟩

lemma sublist (h : Tiling m start size l) (hl : l'.Sublist l) : Tiling m start size l' :=
  ⟨fun b hb => h.inside b (hl.subset hb), h.apart.sublist hl⟩

lemma tail (h : Tiling m start size (b :: l)) : Tiling m start size l :=
  h.sublist (List.sublist_cons_self ..)

lemma nodup (h : Tiling m start size l) : l.Nodup := by
  refine h.apart.imp fun {b b'} hb he => ?_
  have hpos := b.length_pos (m := m)
  subst he
  unfold Block.Apart at hb
  omega

lemma head_lt (h : Tiling m start size (b :: l)) : offset start b.base + b.length m < 2 ^ 64 :=
  (h.inside b (.head l)).trans_lt size.toNat_lt

lemma cut (h : Tiling m start size (⟨x, o + 1⟩ :: l)) :
    Tiling m start size (⟨x, o⟩ :: ⟨x + bytes m o, o⟩ :: l) := by
  have hlt := h.head_lt
  have hpos := Nat.two_pow_pos (o + m)
  obtain ⟨hb, ha, hl⟩ := tiling_cons.mp h
  simp only [Block.length, two_pow_succ] at hb hlt
  have hoff := offset_add_bytes (show offset start x + 2 ^ (o + m) < 2 ^ 64 by omega)
  refine tiling_cons.mpr ⟨?_, fun b' hb' => ?_, tiling_cons.mpr ⟨?_, fun b' hb' => ?_, hl⟩⟩
  · change offset start x + 2 ^ (o + m) ≤ size.toNat
    omega
  · obtain rfl | hb' := List.mem_cons.mp hb'
    · exact .inl hoff.ge
    · have hab := ha b' hb'
      simp only [Block.Apart, Block.length, two_pow_succ] at hab ⊢
      omega
  · change offset start (x + bytes m o) + 2 ^ (o + m) ≤ size.toNat
    omega
  · have hab := ha b' hb'
    simp only [Block.Apart, Block.length, two_pow_succ] at hab ⊢
    omega

lemma join (h : Tiling m start size (⟨x, o⟩ :: ⟨x + bytes m o, o⟩ :: l)) :
    Tiling m start size (⟨x, o + 1⟩ :: l) := by
  have hlt := h.head_lt
  have hoff := offset_add_bytes hlt
  obtain ⟨_, ha, h'⟩ := tiling_cons.mp h
  obtain ⟨hb', ha', hl⟩ := tiling_cons.mp h'
  simp only [Block.length, hoff] at hb'
  refine tiling_cons.mpr ⟨?_, fun b hb => ?_, hl⟩
  · simp only [Block.length, two_pow_succ]
    omega
  · have hab := ha b (.tail _ hb)
    have hab' := ha' b hb
    have hpos := b.length_pos (m := m)
    simp only [Block.Apart, Block.length, two_pow_succ, hoff] at hab hab' hpos ⊢
    omega

lemma joinBuddy (h : Tiling m start size (⟨x, o⟩ :: ⟨x ^^^ bytes m o, o⟩ :: l)) :
    Tiling m start size (⟨if x ^^^ bytes m o < x then x ^^^ bytes m o else x, o + 1⟩ :: l) := by
  have ho : o + m < 64 :=
    (Nat.pow_lt_pow_iff_right (by decide)).mp ((Nat.le_add_left ..).trans_lt h.head_lt)
  have hpos := Nat.two_pow_pos (o + m)
  cases hx : x.toNat.testBit (o + m)
  case false =>
    obtain ⟨he, hn⟩ := xor_of_clear ho hx
    rw [he] at h ⊢
    rw [if_neg (by rw [UInt64.lt_iff_toNat_lt]; omega)]
    exact h.join
  case true =>
    have hy := testBit_xor (x := x) ho
    rw [hx] at hy
    obtain ⟨he, hn⟩ := xor_of_clear ho hy
    rw [xor_xor] at he
    rw [← he] at hn
    rw [if_pos (by rw [UInt64.lt_iff_toNat_lt]; omega)]
    have hs := h.perm (.swap ..)
    generalize x ^^^ bytes m o = y at hs he ⊢
    subst he
    exact hs.join

end Tiling

end

section

-- The bases of the free blocks of every order, and the number of blocks that can still be recorded.
structure State where
  free : Nat → List UInt64
  spare : Nat

def add (n : Nat) (s : State) (x : UInt64) (o : Nat) : State :=
  if o < n ∧ 0 < s.spare then { free := Function.update s.free o (x :: s.free o), spare := s.spare - 1 } else s

def remove (s : State) (x : UInt64) (o : Nat) : State where
  free := Function.update s.free o ((s.free o).erase x)
  spare := s.spare + 1

-- The first block of the first order that has one.
def firstBlock (n : Nat) (s : State) (o : Nat) : Option Block :=
  (List.range' o (n - o)).findSome? fun k => (s.free k).head?.map (⟨·, k⟩)

-- The second halves of a block whose order is `d` above `o`.
def split (m n : Nat) (x : UInt64) (o : Nat) : Nat → State → State
  | 0,     s => s
  | d + 1, s => split m n x o d (add n s (x + bytes m (o + d)) (o + d))

def allocate (m n : Nat) (s : State) (o : Nat) : Option (UInt64 × State) :=
  (firstBlock n s o).map fun b => (b.base, split m n b.base o (b.order - o) (remove s b.base b.order))

def merge (m : Nat) : Nat → State → UInt64 → Nat → State × UInt64 × Nat
  | 0,     s, x, o => (s, x, o)
  | d + 1, s, x, o =>
    let y := x ^^^ bytes m o
    if y ∈ s.free o then merge m d (remove s y o) (if y < x then y else x) (o + 1) else (s, x, o)

def release (m n : Nat) (s : State) (x : UInt64) (o : Nat) : State :=
  let (s, x, o) := merge m (n - 1 - o) s x o
  add n s x o

-- The largest order up to a bound whose blocks fit.
def fit (m : Nat) (remaining : UInt64) : Nat → Nat
  | 0 => 0
  | o + 1 => if remaining < bytes m (o + 1) then fit m remaining o else o + 1

-- Blocks are laid out one after another, the largest first.
def fill (m n : Nat) : Nat → State → UInt64 → UInt64 → State
  | 0,        s, _, _ => s
  | fuel + 1, s, x, remaining =>
    if bytes m 0 ≤ remaining then
      let o := fit m remaining (n - 1)
      fill m n fuel (add n s x o) (x + bytes m o) (remaining - bytes m o)
    else s

def blocks (n : Nat) (s : State) : List Block :=
  (List.range n).flatMap fun o => (s.free o).map (⟨·, o⟩)

variable {s t : State} {d : Nat}

lemma blocks_update (ho : o < n) (hl : l.Perm (x :: f o)) :
    (blocks n { free := Function.update f o l, spare := p }).Perm (⟨x, o⟩ :: blocks n { free := f, spare := q }) := by
  induction n
  case zero => omega
  case succ n ih =>
    simp only [blocks, List.range_succ, List.flatMap_append, List.flatMap_singleton] at ih ⊢
    by_cases he : o = n
    · subst he
      have hrest : (List.range o).flatMap (fun k => (Function.update f o l k).map (Block.mk · k)) =
          (List.range o).flatMap fun k => (f k).map (Block.mk · k) := by
        refine List.flatMap_congr fun k hk => ?_
        rw [Function.update_of_ne (List.mem_range.mp hk).ne]
      rw [hrest, Function.update_self]
      exact ((hl.map _).append_left _).trans List.perm_middle
    · rw [Function.update_of_ne (Ne.symm he)]
      exact (ih (by omega)).append_right _

lemma blocks_add (ho : o < n) (hs : 0 < s.spare) : (blocks n (add n s x o)).Perm (⟨x, o⟩ :: blocks n s) := by
  rw [add, if_pos ⟨ho, hs⟩]
  exact blocks_update ho (.refl _)

lemma blocks_remove (ho : o < n) (hx : x ∈ s.free o) :
    (blocks n s).Perm (⟨x, o⟩ :: blocks n (remove s x o)) := by
  have h := blocks_update (f := (remove s x o).free) (p := s.spare) (q := (remove s x o).spare) ho
    (x := x) (l := s.free o) (by
      simp only [remove, Function.update_self]
      exact List.perm_cons_erase hx)
  simpa only [remove, Function.update_idem, Function.update_eq_self] using h

lemma firstBlock_eq_some (h : firstBlock n s o = some b) :
    o ≤ b.order ∧ b.order < n ∧ (s.free b.order).head? = some b.base ∧
      ∀ k, o ≤ k → k < b.order → s.free k = [] := by
  unfold firstBlock at h
  generalize hc : n - o = c at h
  induction c generalizing o
  case zero => cases h
  case succ c ih =>
    rw [List.range'_succ, List.findSome?_cons] at h
    split at h
    case h_1 b' hb =>
      obtain ⟨x, hx, rfl⟩ := Option.map_eq_some_iff.mp hb
      cases h
      exact ⟨le_rfl, (by omega : o < n), hx, fun k h1 h2 => absurd h2 (Nat.not_lt_of_le h1)⟩
    case h_2 hb =>
      obtain ⟨hle, hlt, hhead, hempty⟩ := ih (o := o + 1) (by omega) h
      refine ⟨by omega, hlt, hhead, fun k h1 h2 => ?_⟩
      by_cases hk : k = o
      · exact hk ▸ List.head?_eq_none_iff.mp (Option.map_eq_none_iff.mp hb)
      · exact hempty k (by omega) h2

end

section

variable {s : State} {d : Nat} {start size : UInt64} {live : List Block}

-- The block is recorded or lost.
lemma Tiling.add (h : Tiling m start size (⟨x, o⟩ :: (blocks n s ++ live))) :
    Tiling m start size (blocks n (add n s x o) ++ live) := by
  by_cases ha : o < n ∧ 0 < s.spare
  case pos => exact h.perm ((blocks_add ha.1 ha.2).symm.append_right live)
  rw [BuddySystem.add, if_neg ha]
  exact h.tail

lemma Tiling.remove (h : Tiling m start size (blocks n s ++ live)) (ho : o < n) (hx : x ∈ s.free o) :
    Tiling m start size (⟨x, o⟩ :: (blocks n (remove s x o) ++ live)) :=
  h.perm ((blocks_remove ho hx).append_right live)

lemma Tiling.split (h : Tiling m start size (⟨x, o + d⟩ :: (blocks n s ++ live))) :
    Tiling m start size (⟨x, o⟩ :: (blocks n (split m n x o d s) ++ live)) := by
  induction d generalizing s
  case zero => exact h
  case succ d ih =>
    -- the second half is recorded, and the first one is cut again
    have hc := h.cut.perm (.swap ..)
    have hl : Tiling m start size (⟨x + bytes m (o + d), o + d⟩ ::
        (blocks n s ++ ⟨x, o + d⟩ :: live)) := hc.perm (.cons _ List.perm_middle.symm)
    exact ih (hl.add.perm List.perm_middle)

lemma Tiling.merge (h : Tiling m start size (⟨x, o⟩ :: (blocks n s ++ live))) (ho : o + d < n) :
    Tiling m start size (⟨(merge m d s x o).2.1, (merge m d s x o).2.2⟩ ::
      (blocks n (merge m d s x o).1 ++ live)) := by
  induction d generalizing s x o
  case zero => exact h
  case succ d ih =>
    rw [BuddySystem.merge]
    split
    case isFalse => exact h
    case isTrue hy =>
      have hp : (⟨x, o⟩ :: (blocks n s ++ live)).Perm (⟨x, o⟩ :: ⟨x ^^^ bytes m o, o⟩ ::
          (blocks n (BuddySystem.remove s (x ^^^ bytes m o) o) ++ live)) :=
        ((blocks_remove (by omega) hy).append_right live).cons _
      exact ih (h.perm hp).joinBuddy (by omega)

lemma Tiling.release (h : Tiling m start size (⟨x, o⟩ :: (blocks n s ++ live))) (ho : o < n) :
    Tiling m start size (blocks n (release m n s x o) ++ live) :=
  (h.merge (d := n - 1 - o) (by omega)).add

lemma Tiling.allocate (h : Tiling m start size (blocks n s ++ live))
    (ha : allocate m n s o = some (x, t)) : Tiling m start size (blocks n t ++ ⟨x, o⟩ :: live) := by
  obtain ⟨b, hb, he⟩ := Option.map_eq_some_iff.mp ha
  obtain ⟨hle, hlt, hhead, _⟩ := firstBlock_eq_some hb
  cases he
  have hr := h.remove hlt (List.mem_of_mem_head? hhead)
  have hd : o + (b.order - o) = b.order := by omega
  have hs := Tiling.split (o := o) (d := b.order - o) (by rw [hd]; exact hr)
  exact hs.perm List.perm_middle.symm

lemma fit_le (remaining : UInt64) (o : Nat) : fit m remaining o ≤ o := by
  induction o
  case zero => exact le_rfl
  case succ o ih =>
    rw [fit]
    split <;> omega

lemma fit_spec (h : bytes m 0 ≤ remaining) : bytes m (fit m remaining o) ≤ remaining ∧
    (fit m remaining o < o → remaining < bytes m (fit m remaining o + 1)) := by
  induction o
  case zero => exact ⟨h, fun hlt => absurd hlt (Nat.not_lt_zero _)⟩
  case succ o ih =>
    rw [fit]
    split
    case isFalse hn => exact ⟨UInt64.not_lt.mp hn, fun hlt => absurd hlt (Nat.lt_irrefl _)⟩
    case isTrue hlt =>
      refine ⟨ih.1, fun _ => ?_⟩
      by_cases he : fit m remaining o < o
      · exact ih.2 he
      · rwa [show fit m remaining o = o by have := fit_le (m := m) remaining o; omega]

-- Blocks up to a position of the region.
structure Filled (m n : Nat) (start size : UInt64) (s : State) (x remaining : UInt64) : Prop where
  tiling : Tiling m start size (blocks n s)
  before : ∀ b ∈ blocks n s, offset start b.base + b.length m ≤ offset start x
  position : offset start x + remaining.toNat = size.toNat

lemma Filled.add (h : Filled m n start size s x remaining)
    (ho : bytes m o ≤ remaining) (hlt : o + m < 64) :
    Filled m n start size (add n s x o) (x + bytes m o) (remaining - bytes m o) := by
  have hle := UInt64.le_iff_toNat_le.mp ho
  rw [toNat_bytes hlt] at hle
  have hpos := h.position
  have hsize := size.toNat_lt
  have hoff := offset_add_bytes (show offset start x + 2 ^ (o + m) < 2 ^ 64 by omega)
  have ht : Tiling m start size (⟨x, o⟩ :: (blocks n s ++ [])) := by
    rw [List.append_nil]
    refine tiling_cons.mpr ⟨?_, fun b hb => .inr (h.before b hb), h.tiling⟩
    change offset start x + 2 ^ (o + m) ≤ size.toNat
    omega
  refine ⟨by simpa using ht.add, fun b hb => ?_, ?_⟩
  · rw [hoff]
    by_cases ha : o < n ∧ 0 < s.spare
    case pos =>
      obtain rfl | hb := List.mem_cons.mp ((blocks_add ha.1 ha.2).mem_iff.mp hb)
      · exact le_rfl
      · exact (h.before b hb).trans (Nat.le_add_right ..)
    rw [BuddySystem.add, if_neg ha] at hb
    exact (h.before b hb).trans (Nat.le_add_right ..)
  · rw [hoff, UInt64.toNat_sub_of_le _ _ ho, toNat_bytes hlt]
    omega

lemma Filled.fill (h : Filled m n start size s x remaining)
    (hn : n + m ≤ 64) (hm : 0 < n) : Tiling m start size (blocks n (fill m n fuel s x remaining)) := by
  induction fuel generalizing s x remaining
  case zero => exact h.tiling
  case succ fuel ih =>
    rw [BuddySystem.fill]
    split
    case isFalse => exact h.tiling
    case isTrue hle =>
      have hfit := fit_le (m := m) remaining (n - 1)
      exact ih (h.add (fit_spec hle).1 (by omega))

end

end BuddySystem
