import VoidFrame.Library.CString

-- Strings in buffers.

namespace CString

def bytes (s : CString) : List UInt8 :=
  s.map (·.val)

-- The string in some bytes, up to the first one that is 0.
def ofBytes : List UInt8 → CString
  | [] => []
  | b :: l => if h : b ≠ 0 then ⟨b, h⟩ :: ofBytes l else []

@[simp]
lemma length_bytes {s : CString} : s.bytes.length = s.length :=
  List.length_map _

lemma bytes_injective : Function.Injective bytes :=
  List.map_injective_iff.mpr Subtype.val_injective

lemma bytes_append {s t : CString} : (s ++ t).bytes = s.bytes ++ t.bytes :=
  List.map_append

-- The characters of a string and the null character behind them, from an index on.
def At (buf : Nat → UInt8) : Nat → CString → Prop
  | i, [] => buf i = 0
  | i, c :: s => buf i = c.val ∧ At buf (i + 1) s

variable {buf buf' : Nat → UInt8} {i : Nat} {s : CString}

lemma At.congr (h : At buf i s) (he : ∀ j, i ≤ j → buf' j = buf j) : At buf' i s := by
  induction s generalizing i
  case nil => exact (he i le_rfl).trans h
  case cons c s ih =>
    exact ⟨(he i le_rfl).trans h.1, ih h.2 fun j hj => he j (by omega)⟩

lemma at_of_getElem? (h : ∀ j < s.length, s.bytes[j]? = some (buf (i + j))) (h0 : buf (i + s.length) = 0) :
    At buf i s := by
  induction s generalizing i
  case nil => exact h0
  case cons c s ih =>
    refine ⟨?_, ih (fun j hj => ?_) ?_⟩
    · simpa [bytes] using (h 0 (by simp)).symm
    · have hs := h (j + 1) (by simpa using hj)
      rw [show i + 1 + j = i + (j + 1) by omega]
      simpa [bytes] using hs
    · rw [show i + 1 + s.length = i + (c :: s).length by simp; omega]
      exact h0

end CString
