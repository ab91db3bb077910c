import VoidFrame.Mem.Buddy

-- The lists, hash chains and the pool of nodes of the allocator.

open Function (update_eq_self update_of_ne update_self)

namespace Buddy

variable {a a' : Allocator} {n k : Node} {x : UInt64} {o : Nat}

namespace Allocator

def links (a : Allocator) : Node → Linked.Links Node :=
  fun n => (a.nodePool n).toLinks

def next (a : Allocator) : Node → Option Node :=
  fun n => (a.nodePool n).next

def hnext (a : Allocator) : Node → Option Node :=
  fun n => (a.nodePool n).hnext

def base (a : Allocator) : Node → UInt64 :=
  fun n => (a.nodePool n).base

def size (a : Allocator) : Node → UInt64 :=
  fun n => (a.nodePool n).size

end Allocator

-- Every node is on the list of its order and on the hash chain of its base, or in the pool.
structure Shape (a : Allocator) (L H : Nat → List Node) (P : List Node) : Prop where
  rows : Linked.Rows a.links (fun o => ⟨a.freeLists o, (L o).getLast?⟩) L
  sized : ∀ {o n}, n ∈ L o → o < numOrders ∧ a.size n = orderToSize o
  chains : ∀ h, Chain a.hnext (a.hashTable h) (H h) none
  hdup : ∀ h, (H h).Nodup
  hashed : ∀ {h n}, n ∈ H h ↔ (∃ o, n ∈ L o) ∧ hashAddress (a.base n) = h
  pool : Chain a.next a.nodeHead P none
  pdup : P.Nodup
  pooled : ∀ {n}, n ∈ P ↔ ∀ o, n ∉ L o

section

-- A node of the pool records a block.
structure Added (a a' : Allocator) (n : Node) (x : UInt64) (o : Nat) : Prop where
  freeLists : a'.freeLists = Function.update a.freeLists o (some n)
  hashTable : a'.hashTable = Function.update a.hashTable (hashAddress x) (some n)
  nodeHead : a'.nodeHead = a.next n
  links : a'.links = Linked.prepend a.links (a.freeLists o) n
  hnext : a'.hnext = Function.update a.hnext n (a.hashTable (hashAddress x))
  base : a'.base = Function.update a.base n x
  size : a'.size = Function.update a.size n (orderToSize o)

lemma addFreeBlock_added (ho : o < numOrders) (hn : a.nodeHead = some n) (hne : a.freeLists o ≠ some n) :
    Added a (addFreeBlock a x o) n x o := by
  rw [addFreeBlock, if_neg (Nat.not_le_of_lt ho), allocBuddyNode, hn]
  simp only [Option.map_some, Allocator.modify, Allocator.modify?]
  cases hf : a.freeLists o
  case none =>
    refine ⟨rfl, rfl, rfl, ?_, ?_, ?_, ?_⟩
    all_goals
      funext k
      by_cases hk : k = n <;>
        simp [hk, hf, Allocator.links, Allocator.hnext, Allocator.base, Allocator.size, Linked.prepend, Linked.setPrev]
  case some j =>
    have hj : j ≠ n := fun h => hne (hf.trans (congrArg some h))
    refine ⟨rfl, rfl, rfl, ?_, ?_, ?_, ?_⟩
    all_goals
      funext k
      by_cases hk : k = n
      case pos =>
        simp [hk, hf, hj.symm, Allocator.links, Allocator.hnext, Allocator.base, Allocator.size, Linked.prepend,
          Linked.setPrev]
      by_cases hkj : k = j <;>
        simp [hk, hf, hj, hkj, Allocator.links, Allocator.hnext, Allocator.base, Allocator.size, Linked.prepend,
          Linked.setPrev]

variable {L H : Nat → List Node} {P : List Node}

lemma mem_push : k ∈ Function.update L i (n :: L i) j ↔ k ∈ L j ∨ j = i ∧ k = n := by
  by_cases hj : j = i
  · simp [hj, or_comm]
  · simp [hj]

lemma Shape.add (h : Shape a L H (n :: P)) (ho : o < numOrders) (ha : Added a a' n x o) :
    Shape a' (Function.update L o (n :: L o)) (Function.update H (hashAddress x) (n :: H (hashAddress x))) P := by
  have hnot : ∀ j, n ∉ L j := h.pooled.mp (.head P)
  have hh : ∀ j, n ∉ H j := fun j hj => (h.hashed.mp hj).1.elim hnot
  have hbase {k : Node} (hk : k ≠ n) : a'.base k = a.base k := by rw [ha.base, update_of_ne hk]
  constructor
  case rows =>
    have hr := h.rows.prepend (i := o) hnot
    rw [← ha.links] at hr
    convert hr using 1
    funext j
    by_cases hj : j = o <;> simp [hj, ha.freeLists]
  case sized =>
    intro j k hk
    obtain hk | ⟨rfl, rfl⟩ := mem_push.mp hk
    · rw [ha.size, update_of_ne (ne_of_mem_of_not_mem hk (hnot j))]
      exact h.sized hk
    · exact ⟨ho, ha.size ▸ update_self ..⟩
  case chains =>
    intro j
    have hk (k) (hk : k ∈ H j) : a'.hnext k = a.hnext k := by
      rw [ha.hnext, update_of_ne (ne_of_mem_of_not_mem hk (hh j))]
    by_cases hj : j = hashAddress x
    case neg =>
      rw [ha.hashTable, update_of_ne hj, update_of_ne hj]
      exact (h.chains j).congr hk
    subst hj
    rw [ha.hashTable, update_self, update_self]
    exact (h.chains _).push hk (ha.hnext ▸ update_self ..)
  case hdup =>
    intro j
    by_cases hj : j = hashAddress x
    case neg => exact update_of_ne hj _ _ ▸ h.hdup j
    subst hj
    rw [update_self]
    exact List.nodup_cons.mpr ⟨hh _, h.hdup _⟩
  case hashed =>
    intro j k
    rw [mem_push, h.hashed]
    simp only [mem_push]
    by_cases hk : k = n
    · subst hk
      simp [hnot, ha.base, eq_comm]
    · simp [hk, hbase hk]
  case pool =>
    rw [ha.nodeHead]
    refine h.pool.2.congr fun k hk => ?_
    have hkn : k ≠ n := ne_of_mem_of_not_mem hk (List.nodup_cons.mp h.pdup).1
    have hko : k ∉ L o := h.pooled.mp (.tail n hk) o
    have hl : a'.links k = a.links k := by
      rw [ha.links]
      exact (h.rows.holds o).prepend_of_notMem hko hkn
    exact congrArg (·.next) hl
  case pdup => exact (List.nodup_cons.mp h.pdup).2
  case pooled =>
    intro k
    simp only [mem_push, not_or, forall_and, ← h.pooled, List.mem_cons]
    have hn := (List.nodup_cons.mp h.pdup).1
    constructor
    · intro hk
      exact ⟨.inr hk, fun j hj => hn (hj.2 ▸ hk)⟩
    · rintro ⟨hk | hk, hne⟩
      · exact absurd ⟨rfl, hk⟩ (hne o)
      · exact hk

end

section

variable {L H : Nat → List Node} {P l : List Node} {p : Option Node} {fuel : Nat}

lemma length_le_maxBuddyNodes (h : l.Nodup) : l.length ≤ maxBuddyNodes := by
  simpa using h.length_le_card

lemma findLoop_eq (h : Chain a.hnext p l none) (hf : l.length ≤ fuel) :
    findLoop a x size fuel p = .ok (l.find? fun k => a.base k = x ∧ a.size k = size) := by
  induction l generalizing p fuel
  case nil =>
    cases h
    unfold findLoop
    rfl
  case cons n l ih =>
    obtain ⟨fuel, rfl⟩ := Nat.exists_eq_succ_of_ne_zero (Nat.ne_zero_of_lt hf)
    obtain ⟨rfl, h⟩ := h
    rw [findLoop, List.find?_cons]
    by_cases hn : a.base n = x ∧ a.size n = size
    case pos =>
      rw [decide_eq_true hn]
      exact if_pos hn
    rw [decide_eq_false hn]
    exact (if_neg hn).trans (ih h (Nat.le_of_succ_le_succ hf))

lemma orderToSize_inj (ho : o < numOrders) (ho' : o' < numOrders)
    (h : orderToSize o = orderToSize o') : o = o' := by
  have h := congrArg UInt64.toNat h
  simp only [numOrders, minOrder] at ho ho'
  rw [orderToSize, orderToSize, UInt64.toNat_ofNat', UInt64.toNat_ofNat',
    Nat.mod_eq_of_lt (Nat.pow_lt_pow_right (by decide) (by simp only [minOrder]; omega)),
    Nat.mod_eq_of_lt (Nat.pow_lt_pow_right (by decide) (by simp only [minOrder]; omega))] at h
  exact Nat.add_right_cancel (Nat.pow_right_injective le_rfl h)

lemma Shape.find (h : Shape a L H P) (ho : o < numOrders) : ∃ r, findFreeBlock a x o = .ok r ∧
    (∀ n, r = some n → n ∈ L o ∧ a.base n = x) ∧ (r = none → x ∉ (L o).map a.base) := by
  refine ⟨_, findLoop_eq (h.chains _) (length_le_maxBuddyNodes (h.hdup _)), fun n hr => ?_, fun hr hx => ?_⟩
  · have hn := List.find?_some hr
    simp only [decide_eq_true_eq] at hn
    obtain ⟨⟨j, hj⟩, _⟩ := h.hashed.mp (List.mem_of_find?_eq_some hr)
    obtain ⟨hlt, hs⟩ := h.sized hj
    cases orderToSize_inj hlt ho (hs.symm.trans hn.2)
    exact ⟨hj, hn.1⟩
  · obtain ⟨n, hn, rfl⟩ := List.mem_map.mp hx
    have hm : n ∈ H (hashAddress (a.base n)) := h.hashed.mpr ⟨⟨o, hn⟩, rfl⟩
    have hnot := List.find?_eq_none.mp hr n hm
    exact hnot (decide_eq_true ⟨rfl, (h.sized hn).2⟩)

end

section

variable {L H : Nat → List Node} {P l xs ys : List Node} {p q : Option Node} {fuel : Nat}

lemma modify_next (v : Option Node) : (a.modify? p ({ · with next := v })).links = Linked.setNext a.links p v ∧
    (a.modify? p ({ · with next := v })).hnext = a.hnext ∧ (a.modify? p ({ · with next := v })).base = a.base ∧
    (a.modify? p ({ · with next := v })).size = a.size := by
  rcases p with _ | n
  · exact ⟨rfl, rfl, rfl, rfl⟩
  refine ⟨?_, ?_, ?_, ?_⟩
  all_goals
    funext k
    by_cases hk : k = n <;>
      simp [hk, Allocator.modify?, Allocator.modify, Allocator.links, Allocator.hnext, Allocator.base,
        Allocator.size, Linked.setNext]

lemma modify_prev (v : Option Node) : (a.modify? p ({ · with prev := v })).links = Linked.setPrev a.links p v ∧
    (a.modify? p ({ · with prev := v })).hnext = a.hnext ∧ (a.modify? p ({ · with prev := v })).base = a.base ∧
    (a.modify? p ({ · with prev := v })).size = a.size := by
  rcases p with _ | n
  · exact ⟨rfl, rfl, rfl, rfl⟩
  refine ⟨?_, ?_, ?_, ?_⟩
  all_goals
    funext k
    by_cases hk : k = n <;>
      simp [hk, Allocator.modify?, Allocator.modify, Allocator.links, Allocator.hnext, Allocator.base,
        Allocator.size, Linked.setPrev]

lemma modify_hnext (v : Option Node) :
    (a.modify n ({ · with hnext := v })).hnext = Function.update a.hnext n v ∧
    (a.modify n ({ · with hnext := v })).links = a.links ∧ (a.modify n ({ · with hnext := v })).base = a.base ∧
    (a.modify n ({ · with hnext := v })).size = a.size := by
  refine ⟨?_, ?_, ?_, ?_⟩
  all_goals
    funext k
    by_cases hk : k = n <;>
      simp [hk, Allocator.modify, Allocator.links, Allocator.hnext, Allocator.base, Allocator.size]

def unhashed (a : Allocator) (n : Node) (h : Nat) (prev : Option Node) : Allocator :=
  match prev with
  | some prev => a.modify prev ({ · with hnext := a.hnext n })
  | none => { a with hashTable := Function.update a.hashTable h (a.hnext n) }

lemma unhashLoop_eq (hc : Chain a.hnext q (xs ++ n :: ys) none) (hn : n ∉ xs)
    (hf : (xs ++ n :: ys).length ≤ fuel) :
    unhashLoop a n h fuel p q = .ok (unhashed a n h (xs.getLast?.or p)) := by
  induction xs generalizing p q fuel
  case nil =>
    obtain ⟨fuel, rfl⟩ := Nat.exists_eq_succ_of_ne_zero (Nat.ne_zero_of_lt hf)
    obtain ⟨rfl, _⟩ := hc
    unfold unhashLoop
    rw [if_pos rfl]
    cases p <;> rfl
  case cons m xs ih =>
    obtain ⟨fuel, rfl⟩ := Nat.exists_eq_succ_of_ne_zero (Nat.ne_zero_of_lt hf)
    obtain ⟨rfl, hc⟩ := hc
    rw [List.mem_cons, not_or] at hn
    unfold unhashLoop
    rw [if_neg (Ne.symm hn.1)]
    have hi := ih (p := some m) hc hn.2 (Nat.le_of_succ_le_succ hf)
    rw [List.getLast?_cons]
    cases hl : xs.getLast?
    all_goals
      rw [hl] at hi
      exact hi

-- A node is taken from its lists and put into the pool. `prev` comes before it in its hash chain.
structure Removed (a a' : Allocator) (n : Node) (o : Nat) (prev : Option Node) : Prop where
  freeLists : a'.freeLists = (a.links n).prev.elim (Function.update a.freeLists o (a.links n).next) fun _ => a.freeLists
  hashTable : a'.hashTable = prev.elim (Function.update a.hashTable (hashAddress (a.base n)) (a.hnext n))
    fun _ => a.hashTable
  hnext : a'.hnext = prev.elim a.hnext fun m => Function.update a.hnext m (a.hnext n)
  nodeHead : a'.nodeHead = some n
  links : a'.links = Linked.setNext (Linked.setPrev (Linked.setNext a.links (a.links n).prev (a.links n).next)
    (a.links n).next (a.links n).prev) (some n) a.nodeHead
  base : a'.base = a.base
  size : a'.size = a.size

-- The list without the node.
structure Unlisted (a a' : Allocator) (n : Node) (o : Nat) : Prop where
  freeLists : a'.freeLists = (a.links n).prev.elim (Function.update a.freeLists o (a.links n).next) fun _ => a.freeLists
  hashTable : a'.hashTable = a.hashTable
  nodeHead : a'.nodeHead = a.nodeHead
  links : a'.links = Linked.setPrev (Linked.setNext a.links (a.links n).prev (a.links n).next)
    (a.links n).next (a.links n).prev
  hnext : a'.hnext = a.hnext
  base : a'.base = a.base
  size : a'.size = a.size

lemma modify?_frame : (a.modify? p f).freeLists = a.freeLists ∧
    (a.modify? p f).hashTable = a.hashTable ∧ (a.modify? p f).nodeHead = a.nodeHead := by
  cases p <;> exact ⟨rfl, rfl, rfl⟩

lemma unlistBlock_unlisted (a : Allocator) (n : Node) (o : Nat) : Unlisted a (unlistBlock a n o) n o := by
  unfold unlistBlock
  dsimp only
  obtain ⟨hf, hh, hd⟩ := modify?_frame (a := a) (p := (a.nodePool n).prev)
    (f := ({ · with next := (a.nodePool n).next }))
  obtain ⟨hl, hn, hb, hs⟩ := modify_next (a := a) (p := (a.nodePool n).prev) (a.nodePool n).next
  generalize a.modify? (a.nodePool n).prev ({ · with next := (a.nodePool n).next }) = b at hf hh hd hl hn hb hs ⊢
  generalize hc : (if (a.nodePool n).prev.isNone = true then
    { b with freeLists := Function.update b.freeLists o (a.nodePool n).next } else b) = c
  have hlist : c.freeLists = (a.nodePool n).prev.elim (Function.update a.freeLists o (a.nodePool n).next)
      fun _ => a.freeLists := by
    subst hc
    cases (a.nodePool n).prev
    case none => exact congrArg (Function.update · o _) hf
    case some m => exact hf
  have hrest : c.hashTable = b.hashTable ∧ c.nodeHead = b.nodeHead ∧ c.nodePool = b.nodePool := by
    subst hc
    split <;> exact ⟨rfl, rfl, rfl⟩
  obtain ⟨hh', hd', hp'⟩ := hrest
  obtain ⟨hf2, hh2, hd2⟩ := modify?_frame (a := c) (p := (a.nodePool n).next)
    (f := ({ · with prev := (a.nodePool n).prev }))
  obtain ⟨hl2, hn2, hb2, hs2⟩ := modify_prev (a := c) (p := (a.nodePool n).next) (a.nodePool n).prev
  have hlinks : c.links = b.links := congrArg (fun f k => (f k).toLinks) hp'
  have hnext : c.hnext = b.hnext := congrArg (fun f k => (f k).hnext) hp'
  have hbase : c.base = b.base := congrArg (fun f k => (f k).base) hp'
  have hsize : c.size = b.size := congrArg (fun f k => (f k).size) hp'
  exact ⟨hf2.trans hlist, hh2.trans (hh'.trans hh), hd2.trans (hd'.trans hd), by rw [hl2, hlinks, hl]; rfl,
    hn2.trans (hnext.trans hn), hb2.trans (hbase.trans hb), hs2.trans (hsize.trans hs)⟩

lemma unhashed_frame : (unhashed a n h p).links = a.links ∧ (unhashed a n h p).base = a.base ∧
    (unhashed a n h p).size = a.size ∧ (unhashed a n h p).freeLists = a.freeLists ∧
    (unhashed a n h p).nodeHead = a.nodeHead := by
  rcases p with _ | m
  · exact ⟨rfl, rfl, rfl, rfl, rfl⟩
  obtain ⟨_, hl, hb, hs⟩ := modify_hnext (a := a) (n := m) (a.hnext n)
  exact ⟨hl, hb, hs, rfl, rfl⟩

lemma unhashed_hash :
    (unhashed a n h p).hashTable = p.elim (Function.update a.hashTable h (a.hnext n)) (fun _ => a.hashTable) ∧
    (unhashed a n h p).hnext = p.elim a.hnext fun m => Function.update a.hnext m (a.hnext n) := by
  cases p
  case none => exact ⟨rfl, rfl⟩
  case some m => exact ⟨rfl, (modify_hnext (a.hnext n)).1⟩

lemma removeFreeBlock_removed (hc : Chain a.hnext (a.hashTable (hashAddress (a.base n))) (xs ++ n :: ys) none)
    (hn : n ∉ xs) (hl : (xs ++ n :: ys).length ≤ maxBuddyNodes) :
    ∃ a', removeFreeBlock a n o = .ok a' ∧ Removed a a' n o xs.getLast? := by
  have hu := unlistBlock_unlisted a n o
  unfold removeFreeBlock
  dsimp only
  generalize unlistBlock a n o = b at hu ⊢
  have hbn : (b.nodePool n).base = a.base n := congrFun hu.base n
  rw [hbn, hu.hashTable, unhashLoop_eq (hu.hnext.symm ▸ hc) hn hl, Option.or_none]
  refine ⟨_, rfl, ?_⟩
  obtain ⟨hl, hb, hs, hf, hd⟩ := unhashed_frame (a := b) (n := n) (h := hashAddress (a.base n)) (p := xs.getLast?)
  obtain ⟨ht, hh⟩ := unhashed_hash (a := b) (n := n) (h := hashAddress (a.base n)) (p := xs.getLast?)
  generalize unhashed b n (hashAddress (a.base n)) xs.getLast? = c at hl hb hs hf hd ht hh ⊢
  obtain ⟨hrl, hrn, hrb, hrs⟩ := modify_next (a := c) (p := some n) c.nodeHead
  rw [hu.hnext, hu.hashTable] at ht
  rw [hu.hnext] at hh
  have hlinks : (releaseBuddyNode c n).links = _ := hrl.trans (by rw [hl, hd, hu.nodeHead, hu.links])
  exact ⟨hf.trans hu.freeLists, ht, hrn.trans hh, rfl, hlinks, hrb.trans (hb.trans hu.base),
    hrs.trans (hs.trans hu.size)⟩

variable {us vs : List Node}

lemma Shape.freeLists_removed (h : Shape a L H P) (hl : L o = xs ++ n :: ys) (hr : Removed a a' n o p) :
    a'.freeLists = Function.update a.freeLists o (xs ++ ys).head? := by
  have hh := h.rows.holds o
  rw [hl] at hh
  obtain ⟨hp, hn⟩ := hh.links
  rw [hr.freeLists, hp, hn]
  rcases xs.eq_nil_or_concat' with rfl | ⟨zs, m, rfl⟩
  · rfl
  · have hhead : a.freeLists o = ((zs ++ [m]) ++ ys).head? := hh.head.trans (by simp)
    rw [← hhead, update_eq_self, List.getLast?_concat]
    rfl

lemma Shape.links_removed (h : Shape a L H P) (hl : L o = xs ++ n :: ys) (hr : Removed a a' n o p)
    (hk : k ≠ n) : a'.links k = (Linked.unlink a.links ⟨a.freeLists o, (L o).getLast?⟩ n).1 k := by
  have hh := h.rows.holds o
  rw [hl] at hh ⊢
  obtain ⟨hp, hn⟩ := hh.links
  rw [hr.links, hp, hn, hh.unlink_eq]
  exact Linked.setNext_of_ne fun he => hk (Option.some.inj he).symm

lemma Shape.chain_removed (h : Shape a L H P) (hh : H (hashAddress (a.base n)) = us ++ n :: vs)
    (hr : Removed a a' n o us.getLast?) :
    Chain a'.hnext (a'.hashTable j) (Function.update H (hashAddress (a.base n)) (us ++ vs) j) none := by
  have hd := h.hdup (hashAddress (a.base n))
  have hc := h.chains (hashAddress (a.base n))
  rw [hh] at hd hc
  -- the node in front of it has another successor
  have hother (hj : j ≠ hashAddress (a.base n)) (m) (hm : m ∈ H (hashAddress (a.base n))) (k) (hk : k ∈ H j) :
      k ≠ m := by
    rintro rfl
    exact hj ((h.hashed.mp hk).2.symm.trans (h.hashed.mp hm).2)
  rcases us.eq_nil_or_concat' with rfl | ⟨ws, m, rfl⟩
  · rw [hr.hashTable, hr.hnext]
    by_cases hj : j = hashAddress (a.base n)
    case neg =>
      simp only [List.getLast?_nil, Option.elim, update_of_ne hj]
      exact h.chains j
    simp only [List.getLast?_nil, Option.elim, hj, update_self]
    exact hc.unlink_head
  · rw [hr.hashTable, hr.hnext, List.getLast?_concat]
    by_cases hj : j = hashAddress (a.base n)
    case neg =>
      simp only [Option.elim, update_of_ne hj]
      refine (h.chains j).congr fun k hk => update_of_ne (hother hj m ?_ k hk) _ _
      rw [hh]
      simp
    case pos =>
      simp only [Option.elim, hj, update_self, List.append_assoc, List.singleton_append] at hc hd ⊢
      refine hc.unlink (update_self ..) fun k hk => update_of_ne ?_ _ _
      rintro rfl
      have hnot := (List.nodup_cons.mp (List.nodup_middle.mp hd)).1
      simp only [List.mem_append, List.mem_cons] at hk hnot
      tauto

lemma Shape.removed (h : Shape a L H P) (hl : L o = xs ++ n :: ys)
    (hh : H (hashAddress (a.base n)) = us ++ n :: vs) (hr : Removed a a' n o us.getLast?) :
    Shape a' (Function.update L o (xs ++ ys)) (Function.update H (hashAddress (a.base n)) (us ++ vs)) (n :: P) := by
  have hmem {j k} : k ∈ Function.update L o (xs ++ ys) j ↔ k ≠ n ∧ k ∈ L j := h.rows.mem_remove hl
  have hn : n ∈ L o := hl ▸ List.mem_append_right _ (.head _)
  have hdup := h.hdup (hashAddress (a.base n))
  rw [hh] at hdup
  constructor
  case rows =>
    have hu := h.rows.unlink hl
    have hc : Linked.Rows a'.links _ _ := hu.congr fun hk => h.links_removed hl hr (hmem.mp hk).1
    convert hc using 1
    funext j
    have hholds := h.rows.holds o
    rw [hl] at hholds
    have he := hholds.unlink_eq
    rw [← hl] at he
    rw [he, h.freeLists_removed hl hr]
    by_cases hj : j = o <;> simp [hj]
  case sized =>
    intro j k hk
    rw [hr.size]
    exact h.sized (hmem.mp hk).2
  case chains => exact fun j => h.chain_removed hh hr
  case hdup =>
    intro j
    by_cases hj : j = hashAddress (a.base n)
    case neg => exact update_of_ne hj _ _ ▸ h.hdup j
    rw [hj, update_self]
    exact (List.nodup_cons.mp (List.nodup_middle.mp hdup)).2
  case hashed =>
    intro j k
    simp only [hmem, hr.base]
    by_cases hj : j = hashAddress (a.base n)
    case neg =>
      rw [update_of_ne hj, h.hashed]
      by_cases hk : k = n
      · simp [hk, Ne.symm hj]
      · simp [hk]
    case pos =>
      have hnot := (List.nodup_cons.mp (List.nodup_middle.mp hdup)).1
      have hiff : k ∈ us ++ vs ↔ k ≠ n ∧ k ∈ H (hashAddress (a.base n)) := by
        rw [hh]
        constructor
        · intro hk
          exact ⟨ne_of_mem_of_not_mem hk hnot, List.mem_append.mpr
            ((List.mem_append.mp hk).imp_right (List.mem_cons_of_mem n))⟩
        · rintro ⟨hne, hk⟩
          simp only [List.mem_append, List.mem_cons, hne, false_or] at hk ⊢
          exact hk
      rw [hj, update_self, hiff, h.hashed]
      simp only [exists_and_left, and_assoc]
  case pool =>
    rw [hr.nodeHead]
    have hnext : a'.next n = a.nodeHead := by
      change (a'.links n).next = _
      rw [hr.links, Linked.setNext_self]
    refine h.pool.push (fun k hk => ?_) hnext
    have hkn : k ≠ n := fun he => h.pooled.mp hk o (he ▸ hn)
    have hu := (h.rows.holds o).unlink_of_notMem hn (h.pooled.mp hk o)
    exact congrArg (·.next) ((h.links_removed hl hr hkn).trans hu)
  case pdup =>
    exact List.nodup_cons.mpr ⟨fun hp => h.pooled.mp hp o hn, h.pdup⟩
  case pooled =>
    intro k
    simp only [hmem, List.mem_cons, h.pooled, not_and, ne_eq]
    by_cases hk : k = n
    · simp [hk]
    · simp [hk]

end

end Buddy
