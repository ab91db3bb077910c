import VoidFrame.Library.Bytes
import VoidFrame.Library.Returns
import VoidFrame.Library.Yields

-- Buffers of a fixed size. An access outside of a buffer fails with a given error.

structure Buffer where
  size : Nat
  data : Nat → UInt8

namespace Buffer

variable {ε : Type} {α : Type} {b src dst : Buffer} {e e' : ε} {P : α → Prop}

def zero (size : Nat) : Buffer where
  size
  data := fun _ => 0

-- The range of an access that does not matter if it is empty.
def Within (b : Buffer) (offset count : Nat) : Prop :=
  count = 0 ∨ offset + count ≤ b.size

instance {offset count : Nat} : Decidable (b.Within offset count) :=
  inferInstanceAs (Decidable (_ ∨ _))

-- A value that takes `width` bytes is read.
def load (b : Buffer) (e : ε) (width : Nat) (f : (Nat → UInt8) → Nat → α) (offset : Nat) : Except ε α :=
  if offset + width ≤ b.size then return f b.data offset else throw e

def load8 (b : Buffer) (e : ε) : Nat → Except ε UInt8 :=
  b.load e 1 fun data offset => data offset

def load16 (b : Buffer) (e : ε) : Nat → Except ε UInt16 :=
  b.load e 2 Bytes.u16

def load32 (b : Buffer) (e : ε) : Nat → Except ε UInt32 :=
  b.load e 4 Bytes.u32

def load64 (b : Buffer) (e : ε) : Nat → Except ε UInt64 :=
  b.load e 8 Bytes.u64

def slice (b : Buffer) (e : ε) (offset count : Nat) : Except ε (List UInt8) :=
  if b.Within offset count then return (List.range count).map fun i => b.data (offset + i) else throw e

-- `memcpy`
def copy (dst src : Buffer) (e e' : ε) (dstOffset srcOffset count : Nat) : Except ε Buffer :=
  if ¬src.Within srcOffset count then throw e
  else if ¬dst.Within dstOffset count then throw e'
  else return {
    dst with
    data := fun i =>
      if dstOffset ≤ i ∧ i < dstOffset + count then src.data (srcOffset + (i - dstOffset)) else dst.data i }

-- `memset`
def fill (b : Buffer) (e : ε) (offset count : Nat) (value : UInt8) : Except ε Buffer :=
  if b.Within offset count then
    return { b with data := fun i => if offset ≤ i ∧ i < offset + count then value else b.data i }
  else throw e

def store8 (b : Buffer) (e : ε) (offset : Nat) (value : UInt8) : Except ε Buffer :=
  if offset < b.size then return { b with data := Function.update b.data offset value } else throw e

lemma load_eq {width offset : Nat} {f : (Nat → UInt8) → Nat → α} (h : offset + width ≤ b.size) :
    b.load e width f offset = .ok (f b.data offset) :=
  if_pos h

lemma le_of_load_eq {width offset : Nat} {f : (Nat → UInt8) → Nat → α} {a : α}
    (h : b.load e width f offset = .ok a) : offset + width ≤ b.size := by
  by_contra hn
  rw [load, if_neg hn] at h
  cases h

lemma load_yields {width offset : Nat} {f : (Nat → UInt8) → Nat → α} (h : offset + width ≤ b.size) :
    (b.load e width f offset).Yields (· = f b.data offset) :=
  .of_eq (load_eq h) rfl

lemma slice_eq {offset count : Nat} (h : offset + count ≤ b.size) :
    b.slice e offset count = .ok ((List.range count).map fun i => b.data (offset + i)) :=
  if_pos (.inr h)

lemma store8_yields {offset : Nat} {value : UInt8} (h : offset < b.size) :
    (b.store8 e offset value).Yields fun b' => b'.size = b.size :=
  .of_eq (if_pos h) rfl

lemma copy_size (e e' : ε) {dstOffset srcOffset count : Nat} (hs : src.Within srcOffset count)
    (hd : dst.Within dstOffset count) :
    ∃ b, dst.copy src e e' dstOffset srcOffset count = .ok b ∧ b.size = dst.size := by
  rw [copy, if_neg (not_not.mpr hs), if_neg (not_not.mpr hd)]
  exact ⟨_, rfl, rfl⟩

lemma fill_size (e : ε) (value : UInt8) {offset count : Nat} (h : b.Within offset count) :
    ∃ b', b.fill e offset count value = .ok b' ∧ b'.size = b.size := by
  rw [fill, if_pos h]
  exact ⟨_, rfl, rfl⟩

lemma copy_eq_ok {dstOffset srcOffset count : Nat} (h : dst.copy src e e' dstOffset srcOffset count = .ok b) :
    b.size = dst.size ∧ ∀ i, b.data i =
      if dstOffset ≤ i ∧ i < dstOffset + count then src.data (srcOffset + (i - dstOffset)) else dst.data i := by
  unfold copy at h
  split_ifs at h
  obtain rfl := Except.ok.inj h
  exact ⟨rfl, fun _ => rfl⟩

lemma within_of_copy {dstOffset srcOffset count : Nat} (h : dst.copy src e e' dstOffset srcOffset count = .ok b) :
    src.Within srcOffset count ∧ dst.Within dstOffset count := by
  unfold copy at h
  split_ifs at h with hs hd
  exact ⟨hs, hd⟩

lemma fill_eq_ok {b' : Buffer} {offset count : Nat} {value : UInt8} (h : b.fill e offset count value = .ok b') :
    b.Within offset count ∧ b'.size = b.size ∧
      ∀ i, b'.data i = if offset ≤ i ∧ i < offset + count then value else b.data i := by
  unfold fill at h
  split_ifs at h with hw
  obtain rfl := Except.ok.inj h
  exact ⟨hw, rfl, fun _ => rfl⟩

end Buffer
