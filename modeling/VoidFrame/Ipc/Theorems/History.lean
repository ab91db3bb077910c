import VoidFrame.Ipc.Theorems.Queue
import VoidFrame.Sched.EEVDF.Kernel

-- What becomes of the messages that are sent to a process.

namespace Ipc

-- The calls that use the queue of a process. The kernel writes the timestamp and the sequence ID into
-- a message that is sent.
inductive Call
  | send (msg : Message) (systemTicks : UInt64) (sequenceId : UInt32)
  | receive
  | receiveType (type : MessageType)
  | flush

-- A queue, with what an observer notes down: the messages that have been accepted, the places of
-- those in the ring (a message is known by its number), and what happened to the others.
structure History where
  queue : MessageQueue := {}
  accepted : List Message := []
  numbers : List Nat := []
  received : List (Nat × Message) := []
  flushed : List Nat := []
  replaced : List (Nat × Nat) := []

namespace History

open MessageQueue

def number (h : History) (i : Nat) : Nat :=
  h.numbers.getD i 0

-- A message replaces another one if the ring is full.
def send (h : History) (msg : Message) (queue : MessageQueue) : History :=
  let n := h.accepted.length
  if h.queue.count < maxMessages then
    { h with queue, accepted := h.accepted ++ [msg], numbers := h.numbers ++ [n] }
  else
    let i := h.queue.position h.queue.findLowest.1
    { h with
      queue
      accepted := h.accepted ++ [msg]
      numbers := h.numbers.set i n
      replaced := h.replaced ++ [(h.number i, n)] }

def receive (h : History) (i : Nat) (msg : Message) (queue : MessageQueue) : History :=
  { h with queue, numbers := h.numbers.eraseIdx i, received := h.received ++ [(h.number i, msg)] }

def flush (h : History) : History :=
  { h with queue := h.queue.flush, numbers := [], flushed := h.flushed ++ h.numbers }

-- A receiver for which there is no message waits, and nothing happens to the queue.
def step (h : History) : Call → History
  | .send msg systemTicks sequenceId =>
    let msg := { msg with timestamp := systemTicks, sequenceId }
    (h.queue.push msg).elim h (h.send msg)
  | .receive =>
    if 0 < h.queue.count then
      h.receive (h.queue.position (h.queue.findPriorityMessage .low)) h.queue.pop.1 h.queue.pop.2
    else h
  | .receiveType type =>
    match h.queue.findType type, h.queue.popType type with
    | some i, some (msg, queue) => h.receive i msg queue
    | _,      _ => h
  | .flush => h.flush

-- The histories of calls that `ok` admits.
inductive Run (ok : History → Call → Prop) : History → Prop
  | init : Run ok {}
  | step {h : History} {c : Call} : Run ok h → ok h c → Run ok (h.step c)

-- What a call can do.
inductive Step (h : History) : Call → History → Prop
  | refuse {c : Call} : Step h c h
  | send {msg : Message} {systemTicks : UInt64} {sequenceId : UInt32} {queue : MessageQueue} :
    Valid queue → Pushed h.queue { msg with timestamp := systemTicks, sequenceId } queue →
    Step h (.send msg systemTicks sequenceId)
      (h.send { msg with timestamp := systemTicks, sequenceId } queue)
  | receive {i : Nat} {msg : Message} {queue : MessageQueue} :
    Valid queue → Removed h.queue i msg queue → (∀ j, j < h.queue.count → h.queue.Precedes i j) →
    Step h .receive (h.receive i msg queue)
  | receiveType {type : MessageType} {i : Nat} {msg : Message} {queue : MessageQueue} :
    Valid queue → Removed h.queue i msg queue → Step h (.receiveType type) (h.receive i msg queue)
  | flush : Step h .flush h.flush

variable {h h' : History} {c : Call} {i n : Nat} {msg : Message} {queue : MessageQueue}

lemma step_cases (hv : Valid h.queue) (c : Call) : Step h c (h.step c) := by
  cases c
  case send msg systemTicks sequenceId =>
    unfold step
    dsimp only
    cases hp : h.queue.push { msg with timestamp := systemTicks, sequenceId }
    case none => exact .refuse
    case some queue => exact .send (push_spec hv hp).1 (push_spec hv hp).2
  case receive =>
    unfold step
    dsimp only
    split
    case isTrue hc =>
      obtain ⟨i, hf, hv', hr, hp⟩ := pop_spec hv hc
      rw [hf, position_index (Nat.lt_of_lt_of_le hr.lt hv.count)]
      exact .receive hv' hr hp
    case isFalse => exact .refuse
  case receiveType type =>
    unfold step
    dsimp only
    split
    case h_1 i msg queue hf hp =>
      obtain ⟨j, hj, hv', hr, _⟩ := popType_spec hv hp
      obtain rfl : i = j := Option.some.inj (hf.symm.trans hj)
      exact .receiveType hv' hr
    case h_2 => exact .refuse
  case flush => exact .flush

-- How often a message is found, in the ring or among those that have left it.
def places (h : History) (n : Nat) : Nat :=
  h.numbers.count n + (h.received.map (·.1)).count n + h.flushed.count n + (h.replaced.map (·.1)).count n

-- Every message that has been accepted is in one place.
structure Conserved (h : History) : Prop where
  valid : Valid h.queue
  contents : h.numbers.map (h.accepted[·]?) = h.queue.toList.map some
  received : ∀ e ∈ h.received, h.accepted[e.1]? = some e.2
  replaced : ∀ e ∈ h.replaced, e.1 < e.2 ∧ ∃ v m, h.accepted[e.1]? = some v ∧
    h.accepted[e.2]? = some m ∧ (¬Priority.urgent < v.priority → v.priority < m.priority)
  once : ∀ n, h.places n = if n < h.accepted.length then 1 else 0
  dropped : h.queue.droppedCount = UInt32.ofNat h.replaced.length

lemma getElem?_concat (hn : l[n]? = some msg) (m : Message) : (l ++ [m])[n]? = some msg := by
  rw [List.getElem?_append_left (List.getElem?_eq_some_iff.mp hn).1, hn]

lemma count_eraseIdx {l : List Nat} (hi : i < l.length) (n : Nat) :
    l.count n = (l.eraseIdx i).count n + if l.getD i 0 = n then 1 else 0 := by
  rw [← (List.getElem_cons_eraseIdx_perm hi).count_eq, List.count_cons,
    List.getD_eq_getElem l 0 hi]
  simp

lemma count_set {l : List Nat} (hi : i < l.length) (a n : Nat) :
    (l.set i a).count n = (l.eraseIdx i).count n + if a = n then 1 else 0 := by
  rw [(List.set_perm_cons_eraseIdx hi a).count_eq, List.count_cons]
  simp

namespace Conserved

lemma length_numbers (h' : Conserved h) : h.numbers.length = h.queue.count := by
  simpa using congrArg List.length h'.contents

lemma number_eq (h' : Conserved h) (hi : i < h.queue.count) :
    h.accepted[h.number i]? = some (h.queue.nth i) := by
  have hn : i < h.numbers.length := h'.length_numbers ▸ hi
  have hq : i < h.queue.toList.length := length_toList ▸ hi
  have he := congrArg (·[i]?) h'.contents
  simp only [List.getElem?_map, List.getElem?_eq_getElem hn, List.getElem?_eq_getElem hq,
    Option.map_some, getElem_toList] at he
  rw [number, List.getD_eq_getElem _ _ hn]
  exact Option.some.inj he

lemma lt_length (h' : Conserved h) (hn : n ∈ h.numbers) : n < h.accepted.length := by
  by_contra hlt
  have ho := h'.once n
  have hc := List.count_pos_iff.mpr hn
  rw [if_neg hlt, places] at ho
  omega

lemma map_concat (h' : Conserved h) (msg : Message) :
    h.numbers.map ((h.accepted ++ [msg])[·]?) = h.queue.toList.map some := by
  rw [← h'.contents]
  exact List.map_congr_left fun n hn => List.getElem?_append_left (h'.lt_length hn)

lemma replaced_concat (h' : Conserved h) (msg : Message) (e) (he : e ∈ h.replaced) :
    e.1 < e.2 ∧ ∃ v m, (h.accepted ++ [msg])[e.1]? = some v ∧
      (h.accepted ++ [msg])[e.2]? = some m ∧ (¬Priority.urgent < v.priority → v.priority < m.priority) := by
  obtain ⟨hlt, v, m, hv, hm, hvm⟩ := h'.replaced e he
  exact ⟨hlt, v, m, getElem?_concat hv msg, getElem?_concat hm msg, hvm⟩

lemma send (h' : Conserved h) (hv : Valid queue) (hp : Pushed h.queue msg queue) :
    Conserved (h.send msg queue) := by
  unfold History.send
  cases hp
  case append hc hl hd =>
    rw [if_pos hc]
    constructor
    case valid => exact hv
    case contents =>
      dsimp only
      rw [List.map_append, h'.map_concat, hl, List.map_append]
      simp
    case received => exact fun e he => getElem?_concat (h'.received e he) msg
    case replaced => exact h'.replaced_concat msg
    case once =>
      intro n
      have ho := h'.once n
      simp only [places, List.count_append, List.count_singleton, List.length_append,
        List.length_singleton, beq_iff_eq] at ho ⊢
      split_ifs at ho ⊢ <;> omega
    case dropped => exact hd.trans h'.dropped
  case replace i hc hi hf _ hlt hl hd =>
    have hi' : i < h.numbers.length := by rw [h'.length_numbers, hc]; exact hi
    rw [if_neg (by omega), hf, position_index hi]
    have hnum := h'.number_eq (hc ▸ hi)
    constructor
    case valid => exact hv
    case contents =>
      dsimp only
      rw [List.map_set, h'.map_concat, hl, List.map_set]
      simp
    case received => exact fun e he => getElem?_concat (h'.received e he) msg
    case replaced =>
      intro e he
      rcases List.mem_append.mp he with he | he
      · exact h'.replaced_concat msg e he
      · obtain rfl := List.mem_singleton.mp he
        refine ⟨(List.getElem?_eq_some_iff.mp hnum).1, _, msg, getElem?_concat hnum msg, ?_, hlt⟩
        simp
    case once =>
      intro n
      have ho := h'.once n
      have he := count_eraseIdx hi' n
      have hs := count_set hi' h.accepted.length n
      simp only [places, number, List.map_append, List.map_cons, List.map_nil, List.count_append,
        List.count_singleton, List.length_append, List.length_singleton, beq_iff_eq] at ho ⊢
      split_ifs at ho he hs ⊢ <;> omega
    case dropped =>
      rw [hd, h'.dropped, List.length_append]
      exact UInt32.ofNat_add _ _ |>.symm

lemma receive (h' : Conserved h) (hv : Valid queue) (hr : Removed h.queue i msg queue) :
    Conserved (h.receive i msg queue) := by
  have hi : i < h.numbers.length := h'.length_numbers ▸ hr.lt
  constructor
  case valid => exact hv
  case contents =>
    change (h.numbers.eraseIdx i).map (h.accepted[·]?) = queue.toList.map some
    rw [← List.eraseIdx_map, h'.contents, hr.toList, List.eraseIdx_map]
  case received =>
    intro e he
    rcases List.mem_append.mp he with he | he
    · exact h'.received e he
    · obtain rfl := List.mem_singleton.mp he
      exact hr.message ▸ h'.number_eq hr.lt
  case replaced => exact h'.replaced
  case once =>
    intro n
    refine Eq.trans ?_ (h'.once n)
    have he := count_eraseIdx hi n
    simp only [places, History.receive, number, List.map_append, List.map_cons, List.map_nil,
      List.count_append, List.count_singleton, beq_iff_eq]
    omega
  case dropped => exact hr.droppedCount.trans h'.dropped

lemma flush (h' : Conserved h) : Conserved h.flush where
  valid := flush_spec.1
  contents := rfl
  received := h'.received
  replaced := h'.replaced
  once n := by
    refine Eq.trans ?_ (h'.once n)
    simp only [places, History.flush, List.count_append, List.count_nil]
    omega
  dropped := h'.dropped

lemma step (h' : Conserved h) (hs : Step h c h1) : Conserved h1 := by
  cases hs
  case refuse => exact h'
  case send hv hp => exact h'.send hv hp
  case receive hv hr _ => exact h'.receive hv hr
  case receiveType hv hr => exact h'.receive hv hr
  case flush => exact h'.flush

lemma init : Conserved {} :=
  ⟨⟨Nat.zero_le _, rfl, rfl⟩, rfl, nofun, nofun, fun _ => rfl, rfl⟩

lemma foldl (h' : Conserved h) (calls : List Call) : Conserved (calls.foldl History.step h) := by
  induction calls generalizing h
  case nil => exact h'
  case cons c calls ih => exact ih (h'.step (step_cases h'.valid c))

end Conserved

lemma Run.conserved (hr : Run ok h) : Conserved h := by
  induction hr
  case init => exact .init
  case step h c _ _ ih => exact ih.step (step_cases ih.valid c)

-- The order of two messages in the ring: the later one may stand first only if it is younger.
def InOrder (h : History) (a b : Nat) : Prop :=
  ∀ m m', h.accepted[a]? = some m → h.accepted[b]? = some m' → m.priority = m'.priority → b < a →
    m'.timestamp < m.timestamp

-- Messages of the same priority leave the ring in the order in which they were sent.
structure Ordered (h : History) : Prop where
  clock : h.accepted.Pairwise (·.timestamp ≤ ·.timestamp)
  ring : h.numbers.Pairwise h.InOrder
  pending : ∀ e ∈ h.received, ∀ n ∈ h.numbers, ∀ m, h.accepted[n]? = some m →
    e.2.priority = m.priority → e.1 < n
  received : h.received.Pairwise fun a b => a.2.priority = b.2.priority → a.1 < b.1

lemma Conserved.nodup (hc : Conserved h) : h.numbers.Nodup := by
  refine List.nodup_iff_count_le_one.mpr fun n => ?_
  have ho := hc.once n
  rw [places] at ho
  split at ho <;> omega

namespace Ordered

-- The message that is received is the first one of its priority that was sent.
lemma first (ho : Ordered h) (hc : Conserved h) (hi : i < h.queue.count)
    (hp : ∀ j, j < h.queue.count → h.queue.Precedes i j) (hn : n ∈ h.numbers.eraseIdx i)
    (hm : h.accepted[n]? = some msg) (he : (h.queue.nth i).priority = msg.priority) : h.number i < n := by
  have hi' : i < h.numbers.length := hc.length_numbers ▸ hi
  obtain ⟨j, hj, hne, rfl⟩ := List.mem_eraseIdx_iff_getElem.mp hn
  have hj' : j < h.queue.count := hc.length_numbers ▸ hj
  have hni : h.number i = h.numbers[i] := List.getD_eq_getElem _ _ hi'
  have hnj : h.number j = h.numbers[j] := List.getD_eq_getElem _ _ hj
  have hai := hc.number_eq hi
  have haj := hc.number_eq hj'
  obtain rfl : h.queue.nth j = msg := Option.some.inj (haj.symm.trans (hnj ▸ hm))
  by_contra hlt
  have hlt : h.number j < h.number i := by
    refine lt_of_le_of_ne (hnj ▸ Nat.le_of_not_lt hlt) fun he => hne ?_
    exact (List.Nodup.getElem_inj_iff hc.nodup).mp (hnj.symm.trans (he.trans hni))
  have hprec := hp j hj'
  have htime : (h.queue.nth j).timestamp ≤ (h.queue.nth i).timestamp := by
    obtain ⟨hli, hei⟩ := List.getElem?_eq_some_iff.mp hai
    obtain ⟨hlj, hej⟩ := List.getElem?_eq_some_iff.mp haj
    have := List.pairwise_iff_getElem.mp ho.clock _ _ hlj hli hlt
    rwa [hei, hej] at this
  rw [precedes_iff] at hprec
  rw [Priority.eq_iff] at he
  rw [UInt64.le_iff_toNat_le] at htime
  -- the younger message would have to stand first in the ring
  have hij : i < j := by omega
  have hinv := List.pairwise_iff_getElem.mp ho.ring i j hi' hj hij _ _ (hni ▸ hai) (hnj ▸ haj)
    (Priority.eq_iff.mpr he) (hni ▸ hnj ▸ hlt)
  rw [UInt64.lt_iff_toNat_lt] at hinv
  omega

lemma receive (ho : Ordered h) (hc : Conserved h) (hr : Removed h.queue i msg queue)
    (hp : ∀ j, j < h.queue.count → h.queue.Precedes i j) : Ordered (h.receive i msg queue) where
  clock := ho.clock
  ring := ho.ring.sublist (List.eraseIdx_sublist _ _)
  pending e he n hn m hm hpr := by
    rcases List.mem_append.mp he with he | he
    · exact ho.pending e he n (List.mem_of_mem_eraseIdx hn) m hm hpr
    · obtain rfl := List.mem_singleton.mp he
      exact ho.first hc hr.lt hp hn hm (hr.message ▸ hpr)
  received := by
    refine List.pairwise_append.mpr ⟨ho.received, List.pairwise_singleton _ _, fun a ha b hb hpr => ?_⟩
    obtain rfl := List.mem_singleton.mp hb
    have hi : i < h.numbers.length := hc.length_numbers ▸ hr.lt
    have hn : h.number i ∈ h.numbers := by
      rw [number, List.getD_eq_getElem _ _ hi]
      exact List.getElem_mem hi
    exact ho.pending a ha _ hn _ (hc.number_eq hr.lt) (hr.message ▸ hpr)

lemma inOrder_concat (hc : Conserved h) (ha : h'.accepted = h.accepted ++ [msg])
    (hr : h.numbers.Pairwise h.InOrder) : h.numbers.Pairwise h'.InOrder := by
  refine hr.imp_of_mem fun hx hy hxy m m' hm hm' => hxy m m' ?_ ?_
  · rwa [ha, List.getElem?_append_left (hc.lt_length hx)] at hm
  · rwa [ha, List.getElem?_append_left (hc.lt_length hy)] at hm'

lemma inOrder_new (hn : n ≤ h.accepted.length) : h'.InOrder n h.accepted.length :=
  fun _ _ _ _ _ hlt => absurd hlt (Nat.not_lt.mpr hn)

lemma send (ho : Ordered h) (hc : Conserved h) (hp : Pushed h.queue msg queue)
    (hclock : ∀ m ∈ h.accepted, m.timestamp ≤ msg.timestamp)
    (hfull : ∀ i j, h.queue.count = maxMessages → h.queue.findLowest.1 = h.queue.index i →
      h.queue.findLowest.2 < msg.priority → i < j → j < maxMessages →
      (h.queue.nth j).priority = msg.priority → (h.queue.nth j).timestamp ≠ msg.timestamp) :
    Ordered (h.send msg queue) := by
  have hclock' : (h.accepted ++ [msg]).Pairwise (·.timestamp ≤ ·.timestamp) := by
    refine List.pairwise_append.mpr ⟨ho.clock, List.pairwise_singleton _ _, fun a ha b hb => ?_⟩
    exact List.mem_singleton.mp hb ▸ hclock a ha
  have hpending (e) (he : e ∈ h.received) (n) (hn : n ∈ h.numbers ∨ n = h.accepted.length) (m)
      (hm : (h.accepted ++ [msg])[n]? = some m) (hpr : e.2.priority = m.priority) : e.1 < n := by
    rcases hn with hn | rfl
    · rw [List.getElem?_append_left (hc.lt_length hn)] at hm
      exact ho.pending e he n hn m hm hpr
    · exact (List.getElem?_eq_some_iff.mp (hc.received e he)).1
  unfold History.send
  cases hp
  case append hlt hl hd =>
    rw [if_pos hlt]
    constructor
    case clock => exact hclock'
    case ring =>
      refine List.pairwise_append.mpr ⟨inOrder_concat hc rfl ho.ring, List.pairwise_singleton _ _, ?_⟩
      intro a ha b hb
      obtain rfl := List.mem_singleton.mp hb
      exact inOrder_new (hc.lt_length ha).le
    case pending =>
      intro e he n hn
      exact hpending e he n (by simpa using hn)
    case received => exact ho.received
  case replace i hcount hi hf hlt _ hl hd =>
    rw [if_neg (by omega), hf, position_index hi]
    constructor
    case clock => exact hclock'
    case ring =>
      have hold : h.numbers.Pairwise { h with accepted := h.accepted ++ [msg] }.InOrder :=
        inOrder_concat hc rfl ho.ring
      have hold := List.pairwise_iff_getElem.mp hold
      refine List.pairwise_iff_getElem.mpr fun a b ha hb hab => ?_
      rw [List.length_set] at ha hb
      rw [List.getElem_set, List.getElem_set]
      split
      case isTrue hia =>
        subst hia
        rw [if_neg hab.ne]
        -- the new message stands before the message at `b`
        intro m m' hm hm' hpr _
        obtain rfl : msg = m := by simpa using hm
        have hbc : b < h.queue.count := hc.length_numbers ▸ hb
        have hnb : h.number b = h.numbers[b] := List.getD_eq_getElem _ _ hb
        have hab' := hc.number_eq hbc
        obtain rfl : h.queue.nth b = m' :=
          Option.some.inj ((getElem?_concat hab' msg).symm.trans (hnb ▸ hm'))
        have hle := hclock _ (List.mem_of_getElem? hab')
        exact UInt64.lt_of_le_of_ne hle (hfull i b hcount hf hlt hab (hcount ▸ hbc) hpr.symm)
      case isFalse hia =>
        split
        · exact inOrder_new (hc.lt_length (List.getElem_mem ha)).le
        · exact hold a b ha hb hab
    case pending =>
      intro e he n hn
      exact hpending e he n (List.mem_or_eq_of_mem_set hn)
    case received => exact ho.received

end Ordered

-- The calls that keep the order of the messages. The clock does not run backwards. A message does not
-- take the place of another one in a full ring while a message of its own priority, which was sent in
-- the same tick, stands behind that place. Messages are neither received by their type nor flushed.
def KeepsOrder (h : History) : Call → Prop
  | .send msg systemTicks _ => (∀ m ∈ h.accepted, m.timestamp ≤ systemTicks) ∧
    (h.queue.count = maxMessages → h.queue.findLowest.2 < msg.priority →
      ∀ j, j < maxMessages → h.queue.position h.queue.findLowest.1 < j →
        (h.queue.nth j).priority = msg.priority → (h.queue.nth j).timestamp ≠ systemTicks)
  | .receive => True
  | _ => False

lemma Run.ordered (hr : Run KeepsOrder h) : Ordered h := by
  induction hr
  case init => exact ⟨.nil, .nil, nofun, .nil⟩
  case step h c hr hok ih =>
    have hc := hr.conserved
    have hs := step_cases hc.valid c
    generalize h.step c = h' at hs
    cases hs
    case refuse => exact ih
    case send hp =>
      refine ih.send hc hp hok.1 fun i j hcount hf hlt hij hj => hok.2 hcount hlt j hj ?_
      rwa [hf, position_index (hij.trans hj)]
    case receive hr hp => exact ih.receive hc hr hp
    case receiveType => exact hok.elim
    case flush => exact hok.elim

-- A message of the highest priority is received, and messages of the same priority are received in the
-- order in which they were sent.
theorem Run.delivered_in_order (hr : Run KeepsOrder h) :
    (h.received.Pairwise fun a b => a.2.priority = b.2.priority → a.1 < b.1) ∧
    (0 < h.queue.count → h.queue.pop.1 ∈ h.queue.toList ∧
      ∀ m ∈ h.queue.toList, ¬h.queue.pop.1.priority < m.priority) := by
  refine ⟨hr.ordered.received, fun hc => ?_⟩
  obtain ⟨i, _, _, hr, hp⟩ := pop_spec hr.conserved.valid hc
  refine ⟨mem_toList.mpr ⟨i, hr.lt, hr.message.symm⟩, fun m hm hlt => ?_⟩
  obtain ⟨j, hj, rfl⟩ := mem_toList.mp hm
  have hpj := precedes_iff.mp (hp j hj)
  rw [hr.message, Priority.lt_iff] at hlt
  omega

instance {h : History} : DecidablePred (KeepsOrder h)
  | .send _ _ _ => inferInstanceAs (Decidable (_ ∧ (_ → _ → ∀ _, _ → _ → _ → _)))
  | .receive => isTrue trivial
  | .receiveType _ | .flush => isFalse id

-- Two messages of one priority are received after one of a priority without a name.
theorem Run.delivered_in_order_sent :
    ∃ h, Run KeepsOrder h ∧ h.received.map (fun e => (e.1, e.2.priority)) = [(2, 7), (0, 1)] ∧
      (h.received.Pairwise fun a b => a.2.priority = b.2.priority → a.1 < b.1) ∧
      ∀ m ∈ h.queue.toList, ¬h.queue.pop.1.priority < m.priority := by
  have h1 : Run KeepsOrder _ := .step (c := .send { (default : Message) with priority := .normal } 1 0) .init
    (by decide +kernel)
  have h2 := h1.step (c := .send { (default : Message) with priority := .normal } 1 0) (by decide +kernel)
  have h3 := h2.step (c := .send { (default : Message) with priority := 7 } 2 0) (by decide +kernel)
  have h5 := (h3.step (c := .receive) trivial).step (c := .receive) trivial
  exact ⟨_, h5, by decide +kernel, (Run.delivered_in_order h5).1,
    ((Run.delivered_in_order h5).2 (by decide +kernel)).2⟩

-- A message of low priority is sent, then normal ones until the ring is full, then another normal one.
-- It takes the place of the first message, and is received before those that were sent earlier.
theorem delivered_out_of_order :
    let low : Message := default
    let calls := Call.send low 1 0 :: List.replicate 32 (.send { low with priority := .normal } 1 0) ++
      [.receive, .receive]
    (calls.foldl History.step {}).received.map (fun e => (e.1, e.2.priority)) =
      [(32, .normal), (1, .normal)] := by
  decide +kernel

section

open EEVDF

variable {s : State} {target : Slot} {pid : UInt32}

lemma sendMessage_full {msg : Option Message} (hf : (sendMessage s pid msg).1 = .queueFull) :
    (sendMessage s pid msg).2 = s := by
  unfold sendMessage at hf ⊢
  split
  · rfl
  · split
    · rfl
    · dsimp only at hf ⊢
      split
      · rfl
      · simp_all

-- The calls are what the kernel does to the queue of a process.
lemma sendMessage_step (ht : s.getCurrentProcessByPID pid = some target)
    (hq : (s.processes target).ipcQueue = h.queue) (msg : Message) :
    ((sendMessage s pid (some msg)).2.processes target).ipcQueue =
      (h.step (.send msg s.systemTicks s.nextSequenceId)).queue := by
  simp only [sendMessage, step, ht, hq]
  cases h.queue.push { msg with timestamp := s.systemTicks, sequenceId := s.nextSequenceId }
  case none => exact hq
  case some queue =>
    have hqueue : (h.send { msg with timestamp := s.systemTicks, sequenceId := s.nextSequenceId }
        queue).queue = queue := by
      unfold History.send
      dsimp only
      split <;> rfl
    dsimp only [Option.elim_some]
    rw [hqueue]
    split <;> simp [State.modifyProcess, State.setProcess, State.countMessage]

lemma receiveMessage_step (hq : (s.processes s.currentProcess).ipcQueue = h.queue) :
    ((receiveMessage s).2.processes s.currentProcess).ipcQueue = (h.step .receive).queue := by
  simp only [receiveMessage, step, hq]
  split
  · simp [State.modifyProcess, State.setProcess, History.receive]
  · simpa [State.modifyProcess, State.setProcess] using hq

end

-- A message whose priority is one of the enumeration.
def Named : Call → Prop
  | .send msg _ _ => ¬Priority.urgent < msg.priority
  | _ => True

lemma step_accepted (c : Call) (hc : Named c) (ha : ∀ m ∈ h.accepted, ¬Priority.urgent < m.priority) :
    ∀ m ∈ (h.step c).accepted, ¬Priority.urgent < m.priority := by
  cases c
  case send msg systemTicks sequenceId =>
    unfold step
    dsimp only
    cases h.queue.push { msg with timestamp := systemTicks, sequenceId }
    case none => exact ha
    case some queue =>
      intro m hm
      have hm : m ∈ h.accepted ++ [{ msg with timestamp := systemTicks, sequenceId }] := by
        unfold Option.elim History.send at hm
        dsimp only at hm
        split at hm <;> exact hm
      rcases List.mem_append.mp hm with hm | hm
      · exact ha m hm
      · obtain rfl := List.mem_singleton.mp hm
        exact hc
  case receive =>
    unfold step
    dsimp only
    split <;> exact ha
  case receiveType =>
    unfold step
    dsimp only
    split <;> exact ha
  case flush => exact ha

lemma foldl_accepted (calls : List Call) (hc : ∀ c ∈ calls, Named c)
    (ha : ∀ m ∈ h.accepted, ¬Priority.urgent < m.priority) :
    ∀ m ∈ (calls.foldl History.step h).accepted, ¬Priority.urgent < m.priority := by
  induction calls generalizing h
  case nil => exact ha
  case cons c calls ih =>
    exact ih (fun c hc' => hc c (.tail _ hc')) (step_accepted c (hc c (.head _)) ha)

-- The queue stays valid, and every message that has been accepted is in the ring, has been received as
-- it was, has been flushed, or has been replaced. A message that is refused changes nothing. If all priorities
-- are those of the enumeration, the bitmap shows which are in the ring, and a message is only replaced
-- by one of a higher priority.
theorem messages_conserved (calls : List Call) :
    let h := calls.foldl History.step {}
    (h.queue.count ≤ maxMessages ∧
      (h.queue.tail : Nat) = (h.queue.head + h.queue.count) % maxMessages ∧
      (∀ n, n < h.accepted.length → h.places n = 1) ∧
      h.numbers.map (h.accepted[·]?) = h.queue.toList.map some ∧
      (∀ e ∈ h.received, h.accepted[e.1]? = some e.2) ∧
      h.queue.droppedCount = UInt32.ofNat h.replaced.length ∧
      ∀ s pid msg, (EEVDF.sendMessage s pid msg).1 = .queueFull → (EEVDF.sendMessage s pid msg).2 = s) ∧
    ((∀ c ∈ calls, Named c) →
      (∀ k, k < 32 → (h.queue.priorityBitmap.getLsbD k = true ↔
        ∃ m ∈ h.queue.toList, m.priority.toNat = k)) ∧
      ∀ e ∈ h.replaced, e.1 < e.2 ∧ ∃ v m, h.accepted[e.1]? = some v ∧ h.accepted[e.2]? = some m ∧
        v.priority < m.priority) := by
  intro h
  have hc : Conserved h := Conserved.init.foldl calls
  refine ⟨⟨hc.valid.count, congrArg Fin.val hc.valid.tail, fun n hn => ?_, hc.contents, hc.received, hc.dropped,
    fun s pid msg => sendMessage_full⟩, fun hn => ?_⟩
  · rw [hc.once, if_pos hn]
  have ha : ∀ m ∈ h.accepted, ¬Priority.urgent < m.priority := foldl_accepted calls hn nofun
  constructor
  · intro k hk
    rw [hc.valid.bitmap, getLsbD_computePriorityBitmap hk]
    refine exists_congr fun m => and_congr_right fun hm => ?_
    have hm' : some m ∈ h.numbers.map (h.accepted[·]?) := hc.contents ▸ List.mem_map_of_mem hm
    obtain ⟨n, _, hn⟩ := List.mem_map.mp hm'
    have hle : ¬Priority.urgent.toNat < m.priority.toNat := mt Priority.lt_iff.mpr (ha m (List.mem_of_getElem? hn))
    have h3 : Priority.urgent.toNat = 3 := rfl
    rw [Nat.mod_eq_of_lt (by omega)]
  · intro e he
    obtain ⟨hlt, v, m, hv, hm, hp⟩ := hc.replaced e he
    exact ⟨hlt, v, m, hv, hm, hp (ha v (List.mem_of_getElem? hv))⟩

-- The ring is filled with messages of one priority, then another one is sent.
def overfull (p q : Priority) : List Call :=
  List.replicate 32 (.send { (default : Message) with priority := p } 1 0) ++
    [.send { (default : Message) with priority := q } 1 0]

theorem messages_conserved_full : ∃ h : History, h = (overfull .normal .urgent).foldl History.step {} ∧
    h.replaced = [(0, 32)] ∧ ∃ v m, h.accepted[0]? = some v ∧ h.accepted[32]? = some m ∧
      v.priority < m.priority := by
  have hr : ((overfull .normal .urgent).foldl History.step {}).replaced = [(0, 32)] := by decide +kernel
  have hn : ∀ c ∈ overfull .normal .urgent, Named c := by
    intro c hc
    rcases List.mem_append.mp hc with hc | hc
    · exact List.eq_of_mem_replicate hc ▸ (by decide : ¬Priority.urgent < Priority.normal)
    · exact List.mem_singleton.mp hc ▸ (by decide : ¬Priority.urgent < Priority.urgent)
  exact ⟨_, rfl, hr, (((messages_conserved _).2 hn).2 (0, 32) (hr ▸ .head _)).2⟩

-- In a full ring of messages of priority 5, one of priority 4 replaces the first. A message of
-- priority 33 sets the bit of the normal ones.
theorem messages_misplaced :
    (((overfull 5 4).foldl History.step {}).replaced = [(0, 32)] ∧
      ((overfull 5 4).foldl History.step {}).accepted[0]?.map (·.priority) = some 5 ∧
      ((overfull 5 4).foldl History.step {}).accepted[32]?.map (·.priority) = some 4) ∧
    (History.step {} (.send { (default : Message) with priority := 33 } 1 0)).queue.priorityBitmap.getLsbD 1 = true ∧
    (History.step {} (.send { (default : Message) with priority := 33 } 1 0)).queue.toList.map (·.priority) = [33] := by
  decide +kernel

end History
end Ipc
