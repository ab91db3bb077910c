import Mathlib

-- Buffers that are filled from the front: the cells before `pos` hold what has been written.

structure Sink (α : Type) where
  buf : Nat → α
  pos : Nat

namespace Sink

variable {α : Type} {limit : Nat} {b : Nat → α} {l : List α}

def push (s : Sink α) (c : α) : Sink α where
  buf := Function.update s.buf s.pos c
  pos := s.pos + 1

lemma pos_push (s : Sink α) (c : α) : (s.push c).pos = s.pos + 1 :=
  rfl

-- A character is written as long as there is room.
def emit (limit : Nat) (s : Sink α) (c : α) : Sink α :=
  if s.pos < limit then s.push c else s

-- Characters are written until there is no room.
def copy (limit : Nat) (s : Sink α) : List α → Sink α
  | [] => s
  | c :: l => if s.pos < limit then (s.push c).copy limit l else s

-- The buffer after a list has been written to its front.
def written (b : Nat → α) (l : List α) : Sink α :=
  l.foldl push ⟨b, 0⟩

lemma written_nil : written b [] = ⟨b, 0⟩ :=
  rfl

lemma push_written (c : α) : (written b l).push c = written b (l ++ [c]) := by
  rw [written, written, List.foldl_append]
  rfl

lemma update_written (c : α) :
    Function.update (written b l).buf (written b l).pos c = (written b (l ++ [c])).buf := by
  rw [← push_written]
  rfl

@[simp]
lemma pos_written : (written b l).pos = l.length := by
  induction l using List.reverseRecOn
  case nil => rfl
  case append_singleton l c ih =>
    rw [← push_written, List.length_append]
    exact congrArg (· + 1) ih

lemma buf_written (i : Nat) : (written b l).buf i = l[i]?.getD (b i) := by
  induction l using List.reverseRecOn
  case nil => rfl
  case append_singleton l c ih =>
    rw [← push_written]
    simp only [push, pos_written]
    by_cases hi : i = l.length
    case pos => simp [hi]
    rw [Function.update_of_ne hi, ih]
    by_cases hl : i < l.length
    case pos => rw [List.getElem?_append_left hl]
    have h : l.length < i := by omega
    simp [h.le, h]

-- Room is left exactly if everything so far has been written.
lemma emit_written (c : α) :
    (written b (l.take limit)).emit limit c = written b ((l ++ [c]).take limit) := by
  unfold emit
  rw [pos_written, List.length_take]
  split
  case isTrue h =>
    have hl : l.length < limit := by omega
    rw [push_written, List.take_of_length_le hl.le, List.take_of_length_le (by simp; omega)]
  case isFalse h =>
    have hl : limit ≤ l.length := by omega
    rw [List.take_append_of_le_length hl]

lemma copy_eq_foldl (s : Sink α) : s.copy limit l = l.foldl (emit limit) s := by
  induction l generalizing s
  case nil => rfl
  case cons c l ih =>
    rw [copy, List.foldl_cons, emit]
    split
    case isTrue h => exact ih _
    case isFalse h =>
      have hfull : ∀ l : List α, l.foldl (emit limit) s = s := by
        intro l
        induction l
        case nil => rfl
        case cons c l ih => rw [List.foldl_cons, emit, if_neg h, ih]
      rw [hfull]

lemma copy_written (l' : List α) :
    (written b (l.take limit)).copy limit l' = written b ((l ++ l').take limit) := by
  rw [copy_eq_foldl]
  induction l' generalizing l
  case nil => rw [List.foldl_nil, List.append_nil]
  case cons c l' ih => rw [List.foldl_cons, emit_written, ih, List.append_assoc, List.singleton_append]

lemma copy_mk (l : List α) : copy limit ⟨b, 0⟩ l = written b (l.take limit) := by
  have h := @copy_written α limit b [] l
  rwa [List.take_nil, List.nil_append] at h

lemma copy_written_of_le (h : l.length + l'.length ≤ limit) :
    (written b l).copy limit l' = written b (l ++ l') := by
  have hc := @copy_written α limit b l l'
  rwa [List.take_of_length_le (by omega), List.take_of_length_le (by simpa using h)] at hc

lemma buf_foldl_push (s : Sink α) (i : Nat) :
    (l.foldl push s).buf i = if i < s.pos then s.buf i else l[i - s.pos]?.getD (s.buf i) := by
  induction l generalizing s
  case nil => simp
  case cons c l ih =>
    have hb : (s.push c).buf i = if i = s.pos then c else s.buf i := Function.update_apply ..
    rw [List.foldl_cons, ih, hb, pos_push]
    rcases Nat.lt_trichotomy i s.pos with hi | rfl | hi
    case inl => simp [hi, hi.ne, hi.trans (Nat.lt_succ_self _)]
    case inr.inl => simp
    case inr.inr =>
      have he : i - s.pos = i - (s.pos + 1) + 1 := by omega
      simp [hi.ne', hi.not_gt, show ¬i < s.pos + 1 by omega, he]

lemma pos_foldl_push (s : Sink α) : (l.foldl push s).pos = s.pos + l.length := by
  induction l generalizing s
  case nil => rfl
  case cons c l ih =>
    rw [List.foldl_cons, ih, List.length_cons, pos_push]
    omega

-- The cells in front of the position hold a list.
structure Front (s : Sink α) (l : List α) : Prop where
  pos : s.pos = l.length
  buf : ∀ i < l.length, l[i]? = some (s.buf i)

namespace Front

variable {s : Sink α} {l' : List α}

lemma foldl_push (h : s.Front l) : (l'.foldl push s).Front (l ++ l') where
  pos := by rw [pos_foldl_push, h.pos, List.length_append]
  buf := by
    intro i hi
    rw [buf_foldl_push, h.pos]
    rw [List.length_append] at hi
    split
    case isTrue hl => rw [List.getElem?_append_left hl, h.buf i hl]
    case isFalse hl =>
      have hi' : i - l.length < l'.length := by omega
      rw [List.getElem?_append_right (by omega), List.getElem?_eq_getElem hi', Option.getD_some]

lemma written : (Sink.written b l).Front l where
  pos := pos_written
  buf := by
    intro i hi
    rw [buf_written, List.getElem?_eq_getElem hi, Option.getD_some]

lemma back (h : s.Front (l ++ l')) (hn : n = l.length) : Front ⟨s.buf, n⟩ l where
  pos := hn
  buf := by
    intro i hi
    rw [← h.buf i (by rw [List.length_append]; omega), List.getElem?_append_left hi]

lemma congr (h : s.Front l) (he : ∀ i < s.pos, b i = s.buf i) : Front ⟨b, s.pos⟩ l where
  pos := h.pos
  buf := fun i hi => (h.buf i hi).trans (congrArg some (he i (by rw [h.pos]; exact hi)).symm)

lemma update (h : Front ⟨b, n⟩ l) (c : α) : Front ⟨Function.update b n c, n⟩ l :=
  h.congr fun _ hi => Function.update_of_ne (Nat.ne_of_lt hi) _ _

lemma map_range (h : s.Front l) : (List.range s.pos).map s.buf = l := by
  refine List.ext_getElem? fun i => ?_
  rcases Nat.lt_or_ge i l.length with hi | hi
  · rw [h.buf i hi, h.pos, List.getElem?_map, List.getElem?_range hi, Option.map_some]
  · simp [h.pos, hi]

end Front

end Sink
