import VoidFrame.Library.Crc
import VoidFrame.Crypto.CRC32

-- The checksum is a remainder of polynomials over two elements.

open Polynomial

namespace CRC32

variable {data : List (BitVec 8)}

-- The bits of a message, each byte from its lowest bit on.
def bits (data : List (BitVec 8)) : List Bool :=
  data.flatMap fun b => (List.range 8).map b.getLsbD

def bitwise (data : List (BitVec 8)) : BitVec 32 :=
  (bits data).foldl (Crc.feed polynomial) 0xFFFFFFFF ^^^ 0xFFFFFFFF

lemma bits_cons (b : BitVec 8) : bits (b :: data) = (List.range 8).map b.getLsbD ++ bits data :=
  List.flatMap_cons

lemma length_bits : (bits data).length = 8 * data.length := by
  simp [bits, List.length_flatMap, Nat.mul_comm]

lemma shift_eq : shift = Crc.shift polynomial := by
  funext c
  have hlow : c &&& 1 ≠ 0 ↔ c.getLsbD 0 = true := by
    change c &&& 1#32 ≠ 0 ↔ _
    rw [BitVec.and_one_eq_setWidth_ofBool_getLsbD]
    cases c.getLsbD 0 <;> decide
  unfold shift Crc.shift
  simp only [hlow]

-- Eight shifts of a register are those of its low byte, and the other bits move down.
lemma repeat_shift_eight (x : BitVec 32) : Nat.repeat shift 8 x = tableEntry (x &&& 0xFF) ^^^ (x >>> 8) := by
  have hbit (i : Nat) : (0xFF : BitVec 32).getLsbD i = decide (i < 8) := by
    rw [show (0xFF : BitVec 32) = BitVec.ofNat 32 (2 ^ 8 - 1) from rfl, BitVec.getLsbD_ofNat,
      Nat.testBit_two_pow_sub_one]
    by_cases hi : i < 8 <;> simp [hi]
    omega
  have hsplit : x = (x &&& 0xFF) ^^^ (x &&& ~~~0xFF) := by
    apply BitVec.eq_of_getLsbD_eq
    intro i hi
    rw [BitVec.getLsbD_xor, BitVec.getLsbD_and, BitVec.getLsbD_and, BitVec.getLsbD_not, hbit]
    by_cases h8 : i < 8 <;> simp [h8, hi]
  have hlow : ∀ i < 8, (x &&& ~~~0xFF).getLsbD i = false := by
    intro i hi
    rw [BitVec.getLsbD_and, BitVec.getLsbD_not, hbit]
    simp [hi]
  have hhigh : (x &&& ~~~0xFF) >>> 8 = x >>> 8 := by
    apply BitVec.eq_of_getLsbD_eq
    intro i hi
    rw [BitVec.getLsbD_ushiftRight, BitVec.getLsbD_ushiftRight, BitVec.getLsbD_and, BitVec.getLsbD_not, hbit]
    by_cases h : 8 + i < 32
    · simp [h]
    · simp [BitVec.getLsbD_of_ge x (8 + i) (by omega)]
  unfold tableEntry
  conv => lhs; rw [hsplit]
  rw [shift_eq, Crc.repeat_shift_xor, Crc.repeat_shift_of_low hlow, hhigh]

lemma update_eq_repeat (crc : BitVec 32) (byte : BitVec 8) :
    update crc byte = Nat.repeat shift 8 (crc ^^^ byte.setWidth 32) := by
  have hbyte : byte.setWidth 32 >>> 8 = 0#32 := by
    apply BitVec.eq_of_getLsbD_eq
    intro i hi
    rw [BitVec.getLsbD_ushiftRight, BitVec.getLsbD_setWidth, BitVec.getLsbD_of_ge byte (8 + i) (by omega)]
    simp
  rw [repeat_shift_eight, BitVec.ushiftRight_xor_distrib, hbyte, BitVec.xor_zero, update]

lemma update_eq_foldl (crc : BitVec 32) (byte : BitVec 8) :
    update crc byte = ((List.range 8).map byte.getLsbD).foldl (Crc.feed polynomial) crc := by
  rw [update_eq_repeat, shift_eq, Crc.repeat_shift_eq_foldl (by decide)]

lemma foldl_update_eq (crc : BitVec 32) :
    data.foldl update crc = (bits data).foldl (Crc.feed polynomial) crc := by
  induction data generalizing crc
  case nil => rfl
  case cons b l ih =>
    rw [List.foldl_cons, ih, update_eq_foldl, bits_cons, List.foldl_append]

lemma shift_injective : Function.Injective shift := by
  -- The top bit of the polynomial is set, so the top bit of the result is the bit that was shifted out.
  have htop (c : BitVec 32) : (shift c).getLsbD 31 = c.getLsbD 0 := by
    rw [shift_eq, Crc.shift]
    cases h : c.getLsbD 0 <;> simp [polynomial]
  intro a b h
  have hlow : a.getLsbD 0 = b.getLsbD 0 := by rw [← htop, ← htop, h]
  have hhigh : a >>> 1 = b >>> 1 := by
    rw [shift_eq, Crc.shift, Crc.shift, hlow] at h
    split at h
    · exact (BitVec.xor_right_inj _).mp h
    · exact h
  apply BitVec.eq_of_getLsbD_eq
  intro i hi
  rcases i with _ | i
  · exact hlow
  · simpa [BitVec.getLsbD_ushiftRight, Nat.add_comm] using congrArg (BitVec.getLsbD · i) hhigh

lemma repeat_shift_injective (n : Nat) : Function.Injective (Nat.repeat shift n) := by
  induction n
  case zero => exact fun _ _ h => h
  case succ n ih => exact shift_injective.comp ih

lemma update_left_injective (byte : BitVec 8) : Function.Injective (update · byte) := by
  intro a b h
  simp only [update_eq_repeat] at h
  exact (BitVec.xor_left_inj _).mp (repeat_shift_injective 8 h)

lemma update_right_injective (crc : BitVec 32) : Function.Injective (update crc) := by
  intro a b h
  rw [update_eq_repeat, update_eq_repeat] at h
  have hw := (BitVec.xor_right_inj _).mp (repeat_shift_injective 8 h)
  simpa using congrArg (BitVec.setWidth 8) hw

lemma foldl_update_injective : Function.Injective (data.foldl update) := by
  induction data
  case nil => exact fun _ _ h => h
  case cons b l ih => exact ih.comp (update_left_injective b)

lemma crc32Init_getD (x : BitVec 32) : crc32Init.getD (x &&& 0xFF).toNat 0 = tableEntry (x &&& 0xFF) := by
  have hlt : (x &&& 0xFF).toNat < 256 := by
    rw [BitVec.toNat_and]
    exact Nat.and_lt_two_pow (n := 8) _ (by decide)
  rw [crc32Init, List.getD_eq_getElem?_getD, List.getElem?_map, List.getElem?_range hlt]
  simp

namespace Static

def after (calls : List (List (BitVec 8))) : Static :=
  calls.foldl (fun s data => (s.crc32 data).2) {}

def Ready (s : Static) : Prop :=
  s.tableGenerated = true → s.crc32Table = crc32Init

variable {s : Static}

lemma Ready.crc32 (h : s.Ready) : (s.crc32 data).2.Ready := by
  unfold Static.crc32
  split
  · exact h
  · exact fun _ => rfl

lemma ready_after (calls : List (List (BitVec 8))) : (after calls).Ready := by
  suffices ∀ s : Static, s.Ready → (calls.foldl (fun s data => (s.crc32 data).2) s).Ready from
    this _ fun h => by cases h
  induction calls
  case nil => exact fun _ h => h
  case cons data l ih => exact fun s h => ih _ h.crc32

lemma Ready.crc32_eq (h : s.Ready) : (s.crc32 data).1 = CRC32.crc32 data := by
  have htable : (if s.tableGenerated = true then s
      else { tableGenerated := true, crc32Table := crc32Init }).crc32Table = crc32Init := by
    split
    case isTrue hg => exact h hg
    case isFalse => rfl
  unfold Static.crc32 CRC32.crc32
  simp only [htable, crc32Init_getD]
  rfl

-- A call returns what the bits of the message leave in the register one by one, and this is the remainder
-- of the message whose first 32 bits are inverted.
theorem crc32_eq_remainder (calls : List (List (BitVec 8))) (data : List (BitVec 8)) :
    ((after calls).crc32 data).1 = bitwise data ∧
    Crc.poly (bitwise data ^^^ 0xFFFFFFFF) =
      (Crc.message (bits data) * X ^ 32 + Crc.poly (0xFFFFFFFF : BitVec 32) * X ^ (8 * data.length)) %ₘ
        Crc.generator polynomial := by
  constructor
  · rw [(ready_after calls).crc32_eq, CRC32.crc32, foldl_update_eq]
    rfl
  · rw [bitwise, BitVec.xor_assoc, BitVec.xor_self, BitVec.xor_zero, ← length_bits]
    exact Crc.poly_foldl_eq_mod polynomial (by decide) (bits data) 0xFFFFFFFF

-- Two messages that differ in one byte have different checksums, whatever was computed before.
theorem crc32_detects_byte (calls calls' : List (List (BitVec 8))) (before rest : List (BitVec 8))
    {x y : BitVec 8} (h : x ≠ y) :
    ((after calls).crc32 (before ++ x :: rest)).1 ≠ ((after calls').crc32 (before ++ y :: rest)).1 := by
  rw [(ready_after calls).crc32_eq, (ready_after calls').crc32_eq, CRC32.crc32, CRC32.crc32]
  intro he
  have hf := (BitVec.xor_left_inj _).mp he
  rw [List.foldl_append, List.foldl_append] at hf
  exact h (update_right_injective _ (foldl_update_injective hf))

theorem crc32_detects_byte_zero : (1 : BitVec 8) ≠ 0 ∧
    ((after []).crc32 [1, 2]).1 ≠ ((after [[7]]).crc32 [0, 2]).1 :=
  ⟨by decide, crc32_detects_byte [] [[7]] [] [2] (by decide)⟩

end Static

end CRC32
