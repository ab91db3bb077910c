import VoidFrame.Text.Rendering

-- The rendering that the C standard gives to formats without flags, width and precision.

namespace Format

def numeral (base n : Nat) : List UInt8 :=
  (Nat.toDigits base n).map ascii

def upperNumeral (base n : Nat) : List UInt8 :=
  (Nat.toDigits base n).map fun c => ascii c.toUpper

def signedNumeral (v : Int) : List UInt8 :=
  if v < 0 then ascii '-' :: numeral 10 v.natAbs else numeral 10 v.natAbs

def Conversion.isInteger : Conversion → Bool
  | .d | .i | .u | .x | .X | .o => true
  | _ => false

def Length.spelling : Length → List Char
  | .none => []
  | .long => ['l']
  | .longLong => ['l', 'l']

-- The length modifiers that the standard gives a meaning to.
def Length.Fits (l : Length) (k : Conversion) : Prop :=
  l = .none ∨ k.isInteger ∨ l = .long ∧ (k = .c ∨ k = .s)

inductive Piece
  | literal (c : CChar) (h : is '%' c = false)
  | directive (l : Length) (k : Conversion) (h : l.Fits k)

-- The standard text of a directive, if the next argument is of its kind. With `l`, a character or a string is wide;
-- the wide characters with a text are those of ASCII, as in the locale of a program that has set none.
def Conversion.text (l : Length) : Conversion → List Arg → Option (List UInt8 × List Arg)
  | .c,       .word w :: args => if l = .none ∨ w.toUInt32 < 128 then some ([w.toUInt8], args) else none
  | .s,       .string (some str) :: args => if l = .none then some (str.map (·.val), args) else none
  | .s,       .string none :: args       => if l = .none then some ("(null)".toList.map ascii, args) else none
  | .s,       .wide str :: args =>
    if l = .long ∧ ∀ c ∈ str, c.val < 128 then some (str.map (·.val.toUInt8), args) else none
  | .d,       .word w :: args => some (signedNumeral (l.signed w).toInt, args)
  | .i,       .word w :: args => some (signedNumeral (l.signed w).toInt, args)
  | .u,       .word w :: args => some (numeral 10 (l.unsigned w).toNat, args)
  | .x,       .word w :: args => some (numeral 16 (l.unsigned w).toNat, args)
  | .X,       .word w :: args => some (upperNumeral 16 (l.unsigned w).toNat, args)
  | .o,       .word w :: args => some (numeral 8 (l.unsigned w).toNat, args)
  | .p,       .word w :: args => some (ascii '0' :: ascii 'x' :: numeral 16 w.toNat, args)
  | .percent, args => some ([ascii '%'], args)
  | _,        _ => none

namespace Piece

def text : Piece → List Arg → Option (List UInt8 × List Arg)
  | literal c _,     args => some ([c.val], args)
  | directive l k _, args => k.text l args

def chars : Piece → CString
  | literal c _ => [c]
  | directive l k _ => CString.ofChars ('%' :: l.spelling ++ [k.char])

-- The string of a piece is not too long for `StringLength`.
def Measured : Piece → List Arg → Prop
  | directive _ .s _, .string (some str) :: _ => str.length < 2 ^ 31
  | _,                _ => True

-- A wide string has at most one character.
def Narrow : Piece → List Arg → Prop
  | directive _ .s _, .wide str :: _ => str.length ≤ 1
  | _,                _ => True

end Piece

def format (pieces : List Piece) : CString :=
  pieces.flatMap Piece.chars

def standard : List Piece → List Arg → Option (List UInt8)
  | [],          _ => some []
  | p :: pieces, args => do
    let (text, args) ← p.text args
    return text ++ (← standard pieces args)

-- The pieces that are reached while there is room; `n` characters are stored.
def Along (P : Piece → List Arg → Prop) (limit : Nat) (n : Nat) : List Piece → List Arg → Prop
  | [],          _ => True
  | p :: pieces, args =>
    n < limit → P p args ∧
      ∀ text rest, p.text args = some (text, rest) → Along P limit (n + text.length) pieces rest

abbrev Measured := Along Piece.Measured

abbrev Narrow := Along Piece.Narrow

end Format
