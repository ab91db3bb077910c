import Mathlib

-- Strings of C: what stands before the null character.

abbrev CChar := { c : UInt8 // c ≠ 0 }

abbrev CString := List CChar

namespace CString

def slash : CChar := ⟨0x2F, by decide⟩

def dot : CChar := ⟨0x2E, by decide⟩

def space : CChar := ⟨0x20, by decide⟩

-- The characters of a text in ASCII.
def ofChars (l : List Char) : CString :=
  l.filterMap fun c => if h : c.toNat.toUInt8 ≠ 0 then some ⟨c.toNat.toUInt8, h⟩ else none

-- `strncpy` leaves room for the null character.
def strncpy (src : CString) (maxLen : Nat) : CString :=
  src.take (maxLen - 1)

end CString
