import VoidFrame.Ipc.Queue
import VoidFrame.Library.Loop
import VoidFrame.Library.Ring

-- What the operations do to the list of messages in a queue.

namespace Ipc

lemma Priority.eq_iff {p q : Priority} : p = q ↔ p.toNat = q.toNat := UInt32.toNat_inj.symm

lemma Priority.lt_iff {p q : Priority} : p < q ↔ p.toNat < q.toNat := UInt32.lt_iff_toNat_lt

lemma Priority.low_le (p : Priority) : ¬p < low :=
  mt UInt32.lt_iff_toNat_lt.mp (Nat.not_lt_zero _)

namespace MessageQueue

variable {q : MessageQueue} {i j : Nat} {idx : Index} {msg : Message} {p : Priority}

def toList (q : MessageQueue) : List Message :=
  Ring.toList q.messages q.head q.count

def nth (q : MessageQueue) (i : Nat) : Message :=
  q.messages (q.index i)

def position (q : MessageQueue) (idx : Index) : Nat :=
  (idx - q.head : Index)

structure Valid (q : MessageQueue) : Prop where
  count : q.count ≤ maxMessages
  tail : q.tail = q.index q.count
  bitmap : q.priorityBitmap = q.computePriorityBitmap

lemma index_eq : q.index i = Ring.index q.head i := rfl

@[simp]
lemma length_toList : q.toList.length = q.count :=
  Ring.length_toList

lemma getElem_toList (h : i < q.toList.length) : q.toList[i] = q.nth i :=
  Ring.getElem_toList h

lemma mem_toList : msg ∈ q.toList ↔ ∃ i, i < q.count ∧ q.nth i = msg :=
  Ring.mem_toList

lemma position_lt : q.position idx < maxMessages :=
  Fin.isLt _

lemma index_position : q.index (q.position idx) = idx := by
  refine Fin.ext ?_
  have hi := idx.isLt
  have hh := q.head.isLt
  simp only [index, position, Fin.val_sub, Fin.val_ofNat, maxMessages] at *
  omega

lemma position_index (hi : i < maxMessages) : q.position (q.index i) = i :=
  Ring.index_inj position_lt hi index_position

lemma getLsbD_updatePriorityBitmap (hk : k < 32) :
    (updatePriorityBitmap b p).getLsbD k = true ↔ b.getLsbD k = true ∨ p.toNat % 32 = k := by
  rw [updatePriorityBitmap, BitVec.getLsbD_or, Bool.or_eq_true]
  refine or_congr_right ?_
  change (1#32 <<< (p.toNat % 32)).getLsbD k = true ↔ _
  rw [← BitVec.twoPow_eq, BitVec.getLsbD_twoPow, Bool.and_eq_true, decide_eq_true_iff,
    decide_eq_true_iff]
  omega

lemma getLsbD_foldl_updatePriorityBitmap {l : List Message} {b : BitVec 32} {k : Nat} (hk : k < 32) :
    (l.foldl (fun b m => updatePriorityBitmap b m.priority) b).getLsbD k = true ↔
      b.getLsbD k = true ∨ ∃ m ∈ l, m.priority.toNat % 32 = k := by
  induction l generalizing b
  case nil => simp
  case cons m l ih =>
    rw [List.foldl_cons, ih, getLsbD_updatePriorityBitmap hk, or_assoc]
    simp

lemma getLsbD_computePriorityBitmap {k : Nat} (hk : k < 32) :
    q.computePriorityBitmap.getLsbD k = true ↔ ∃ m ∈ q.toList, m.priority.toNat % 32 = k := by
  have he : q.computePriorityBitmap = q.toList.foldl (fun b m => updatePriorityBitmap b m.priority) 0 := by
    rw [toList, Ring.toList, List.foldl_map]
    rfl
  rw [he, getLsbD_foldl_updatePriorityBitmap hk]
  simp

-- The message at position `i` is received before the one at `j`.
def Precedes (q : MessageQueue) (i j : Nat) : Prop :=
  (q.nth j).priority < (q.nth i).priority ∨ (q.nth j).priority = (q.nth i).priority ∧
    ((q.nth i).timestamp < (q.nth j).timestamp ∨ (q.nth i).timestamp = (q.nth j).timestamp ∧ i ≤ j)

lemma precedes_iff : q.Precedes i j ↔ (q.nth j).priority.toNat < (q.nth i).priority.toNat ∨
    (q.nth j).priority.toNat = (q.nth i).priority.toNat ∧
      ((q.nth i).timestamp.toNat < (q.nth j).timestamp.toNat ∨
        (q.nth i).timestamp.toNat = (q.nth j).timestamp.toNat ∧ i ≤ j) := by
  rw [Precedes, Priority.lt_iff, Priority.eq_iff, UInt64.lt_iff_toNat_lt, UInt64.toNat_inj]

lemma Precedes.refl (q : MessageQueue) (i : Nat) : q.Precedes i i :=
  .inr ⟨rfl, .inr ⟨rfl, le_rfl⟩⟩

lemma Precedes.trans (h : q.Precedes i j) (h' : q.Precedes j k) : q.Precedes i k := by
  rw [precedes_iff] at *
  omega

-- The state of the search after the message at position `i` has been found.
def best (q : MessageQueue) (i : Nat) : Best :=
  ⟨q.index i, (q.nth i).priority, (q.nth i).timestamp⟩

lemma findPriorityMessage_spec (hc : 0 < q.count) : ∃ i, i < q.count ∧
    q.findPriorityMessage .low = q.index i ∧ ∀ j, j < q.count → q.Precedes i j := by
  refine (Loop.exists_best (g := q.best) (.refl q) (fun _ _ _ => .trans) ?first (fun i n hi => ?next) hc).imp
    fun i h => ⟨h.1, congrArg Best.index h.2.1, h.2.2⟩
  case first =>
    -- a first message that is not selected is like the initial values of the search
    change ite _ (q.best 0) _ = _
    split
    case isTrue => rfl
    case isFalse h =>
      have hlow : (q.nth 0).priority = .low := by
        have h : ¬Priority.low < (q.nth 0).priority := fun h' => h ⟨Priority.low_le _, .inl h'⟩
        have h' := Priority.low_le (q.nth 0).priority
        rw [Priority.lt_iff] at h h'
        exact Priority.eq_iff.mpr (by omega)
      have hmax : (q.nth 0).timestamp = 0xFFFFFFFFFFFFFFFF := by
        have h : ¬(q.nth 0).timestamp < 0xFFFFFFFFFFFFFFFF :=
          fun h' => h ⟨Priority.low_le _, .inr ⟨hlow, h'⟩⟩
        have hlt := (q.nth 0).timestamp.toNat_lt
        have hmax : (0xFFFFFFFFFFFFFFFF : UInt64).toNat = 2 ^ 64 - 1 := rfl
        rw [UInt64.lt_iff_toNat_lt] at h
        exact UInt64.toNat_inj.mp (by omega)
      rw [best, hlow, hmax]
      exact congrArg (Best.mk · _ _) Ring.index_zero.symm
  case next =>
    by_cases h : (q.nth i).priority < (q.nth n).priority ∨ (q.nth n).priority = (q.nth i).priority ∧
        (q.nth n).timestamp < (q.nth i).timestamp
    · exact .inl ⟨if_pos ⟨Priority.low_le _, h⟩, h.imp_right fun h => ⟨h.1.symm, .inl h.2⟩⟩
    · refine .inr ⟨if_neg fun h' => h h'.2, ?_⟩
      rw [Priority.lt_iff, Priority.eq_iff, UInt64.lt_iff_toNat_lt] at h
      rw [precedes_iff]
      omega

-- The search starts with the highest priority that has a name, and misses those above it.
lemma findLowest_spec (hc : 0 < q.count) : ∃ i, i < q.count ∧ q.findLowest =
    (q.index i, if (q.nth i).priority < .urgent then (q.nth i).priority else .urgent) := by
  refine (Loop.exists_best (R := fun _ _ => True) (g := fun i =>
    (q.index i, if (q.nth i).priority < .urgent then (q.nth i).priority else .urgent)) (fun _ => trivial)
    (fun _ _ _ _ _ => trivial) ?first (fun i n _ => ?next) hc).imp fun i h => ⟨h.1, h.2.1⟩
  case first =>
    change ite _ (q.index 0, (q.nth 0).priority) (q.head, Priority.urgent) = _
    split
    case isTrue h => exact congrArg (q.index 0, ·) (if_pos h).symm
    case isFalse h => exact congrArg₂ Prod.mk Ring.index_zero.symm (if_neg h).symm
  case next =>
    change ite ((q.nth n).priority < _) (q.index n, (q.nth n).priority) _ = _ ∧ _ ∨ _
    by_cases h : (q.nth n).priority < if (q.nth i).priority < .urgent then (q.nth i).priority else .urgent
    · have hn : (q.nth n).priority < .urgent := by
        split at h
        case isTrue hi => exact UInt32.lt_trans h hi
        case isFalse => exact h
      exact .inl ⟨by rw [if_pos h, if_pos hn], trivial⟩
    · exact .inr ⟨if_neg h, trivial⟩

lemma shift_eq (hf : i ≤ fuel) (hi : i < maxMessages) :
    shift fuel q (q.index i) = { q with messages := Ring.remove q.messages q.head i } := by
  induction i generalizing fuel q
  case zero =>
    have h0 : q.index 0 = q.head := Ring.index_zero
    rw [h0]
    cases fuel
    case zero => rfl
    case succ n => exact if_pos rfl
  case succ i ih =>
    have hne : q.index (i + 1) ≠ q.head := fun h => by
      have := Ring.index_inj hi (by decide) (h.trans Ring.index_zero.symm)
      omega
    have hprev : q.index (i + 1) - 1 = q.index i := by
      rw [index_eq, ← Ring.index_add_one, add_sub_cancel_right, index_eq]
    rcases fuel with _ | fuel
    · omega
    rw [shift, if_neg hne, hprev]
    exact ih (q := q.setMessage (q.index (i + 1)) (q.messages (q.index i))) (by omega) (by omega)

lemma closeGap_eq : q.closeGap i = { q with messages := Ring.remove q.messages q.head i } := by
  induction i generalizing q
  case zero => rfl
  case succ i ih =>
    rw [closeGap, ih]
    rfl

-- A new message is put at the end of the ring. If the ring is full, it takes the place of a message with
-- a lower priority, unless that one has a priority without a name.
inductive Pushed (q : MessageQueue) (msg : Message) (q' : MessageQueue) : Prop
  | append :
    q.count < maxMessages → q'.toList = q.toList ++ [msg] → q'.droppedCount = q.droppedCount →
    Pushed q msg q'
  | replace {i : Nat} :
    q.count = maxMessages → i < maxMessages → q.findLowest.1 = q.index i →
    q.findLowest.2 < msg.priority →
    (¬Priority.urgent < (q.nth i).priority → (q.nth i).priority < msg.priority) →
    q'.toList = q.toList.set i msg → q'.droppedCount = q.droppedCount + 1 → Pushed q msg q'

-- The message at position `i` is taken out.
structure Removed (q : MessageQueue) (i : Nat) (msg : Message) (q' : MessageQueue) : Prop where
  lt : i < q.count
  message : msg = q.nth i
  toList : q'.toList = q.toList.eraseIdx i
  droppedCount : q'.droppedCount = q.droppedCount

lemma reserve_eq_some (h : q.reserve p = some r) : q.count < maxMessages ∧
      r = ({ q with tail := Fin.ofNat maxMessages (q.tail + 1), count := q.count + 1 }, q.tail) ∨
    maxMessages ≤ q.count ∧ q.findLowest.2 < p ∧
      r = ({ q with droppedCount := q.droppedCount + 1 }, q.findLowest.1) := by
  unfold reserve at h
  split at h
  case isTrue hc =>
    split at h
    · dsimp only at h
      split at h
      case isTrue hl => exact .inr ⟨hc, hl, (Option.some.inj h).symm⟩
      case isFalse => cases h
    · cases h
  case isFalse hc => exact .inl ⟨Nat.lt_of_not_le hc, (Option.some.inj h).symm⟩

lemma push_spec (hv : Valid q) (h : q.push msg = some q') : Valid q' ∧ Pushed q msg q' := by
  obtain ⟨⟨q1, dest⟩, hr, he⟩ := Option.bind_eq_some_iff.mp h
  obtain rfl := Option.some.inj he
  rcases reserve_eq_some hr with ⟨hc, hr⟩ | ⟨hc, hl, hr⟩
  · obtain ⟨rfl, rfl⟩ := Prod.mk.inj hr
    refine ⟨⟨hc, ?_, rfl⟩, .append hc ?_ rfl⟩
    · change Ring.index q.tail 1 = Ring.index q.head (q.count + 1)
      rw [hv.tail, index_eq, Ring.index_add]
    · change Ring.toList (Function.update q.messages q.tail msg) q.head (q.count + 1) = _
      rw [hv.tail, index_eq, Ring.toList_push hc]
      rfl
  · obtain ⟨rfl, rfl⟩ := Prod.mk.inj hr
    obtain ⟨i, hi, hf⟩ := q.findLowest_spec (Nat.lt_of_lt_of_le (by decide) hc)
    have hi' := Nat.lt_of_lt_of_le hi hv.count
    have hd : q.findLowest.1 = q.index i := congrArg Prod.fst hf
    refine ⟨⟨hv.count, hv.tail, rfl⟩, .replace (Nat.le_antisymm hv.count hc) hi' hd hl (fun hu => ?_) ?_ rfl⟩
    · rw [hf, Priority.lt_iff] at hl
      rw [Priority.lt_iff] at hu ⊢
      split at hl <;> simp only [Priority.lt_iff] at * <;> omega
    · change Ring.toList (Function.update q.messages q.findLowest.1 msg) q.head q.count = _
      rw [hd, index_eq, Ring.toList_set hi hv.count]
      rfl

lemma remove_spec (hv : Valid q) (hi : i < q.count) (b : BitVec 32) :
    let q' := { q with
      messages := Ring.remove q.messages q.head i
      head := Fin.ofNat maxMessages (q.head + 1)
      count := q.count - 1
      priorityBitmap := b }
    (b = q'.computePriorityBitmap → Valid q') ∧ Removed q i (q.nth i) q' := by
  have hh : Fin.ofNat maxMessages (q.head + 1) = q.head + 1 := Ring.index_one
  refine ⟨fun hb => ⟨(Nat.sub_le _ _).trans hv.count, ?_, hb⟩, ⟨hi, rfl, ?_, rfl⟩⟩
  · change q.tail = Ring.index (Fin.ofNat maxMessages (q.head + 1)) (q.count - 1)
    rw [hh, Ring.index_succ, Nat.sub_add_cancel (Nat.zero_lt_of_lt hi), hv.tail, index_eq]
  · change Ring.toList (Ring.remove q.messages q.head i) (Fin.ofNat maxMessages (q.head + 1)) _ = _
    rw [hh, Ring.toList_remove hi hv.count]
    rfl

lemma pop_spec (hv : Valid q) (hc : 0 < q.count) : ∃ i,
    q.findPriorityMessage .low = q.index i ∧ Valid q.pop.2 ∧ Removed q i q.pop.1 q.pop.2 ∧
      ∀ j, j < q.count → q.Precedes i j := by
  obtain ⟨i, hi, hf, hp⟩ := q.findPriorityMessage_spec hc
  have hi' := Nat.lt_of_lt_of_le hi hv.count
  have hs := shift_eq (q := q) hi'.le hi'
  unfold pop
  simp only [hf, hs]
  have h := remove_spec hv hi
  refine ⟨i, rfl, (h _).1 ?_, (h _).2, hp⟩
  split
  case isTrue h0 => simp [computePriorityBitmap, h0]
  case isFalse => rfl

lemma popType_spec (hv : Valid q) (h : q.popType type = some r) : ∃ i,
    q.findType type = some i ∧ Valid r.2 ∧ Removed q i r.1 r.2 ∧ r.1.type = type := by
  obtain ⟨i, hf, rfl⟩ := Option.map_eq_some_iff.mp h
  have hi : i < q.count := List.mem_range.mp (List.mem_of_find?_eq_some hf)
  have ht : (q.messages (q.index i)).type = type := by simpa using List.find?_some hf
  have hs := closeGap_eq (q := q) (i := i)
  simp only [hs]
  have h := remove_spec hv hi
  exact ⟨i, hf, (h _).1 rfl, (h _).2, ht⟩

lemma flush_spec : Valid q.flush ∧ q.flush.toList = [] ∧ q.flush.droppedCount = q.droppedCount :=
  ⟨⟨Nat.zero_le _, rfl, rfl⟩, rfl, rfl⟩

end MessageQueue
end Ipc
