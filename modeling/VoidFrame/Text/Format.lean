import VoidFrame.Library.CString
import VoidFrame.Library.Returns
import VoidFrame.Library.Sink

namespace Format

abbrev ascii (c : Char) : UInt8 := c.toNat.toUInt8

-- What keeps a call from being defined.
inductive Fault
  | pastEnd  -- a character behind the end of the format is read
  | argument -- an argument is missing or not of the kind that is read
  | length   -- the counter of `StringLength` overflows and leaves the string
  deriving DecidableEq, Repr

abbrev WChar := { c : UInt32 // c ≠ 0 }

-- An argument is the word of a number or of an untyped pointer, a string, which can be null, or a string of
-- wide characters.
inductive Arg
  | word (w : UInt64)
  | string (s : Option CString)
  | wide (s : List WChar)
  deriving DecidableEq

inductive Length
  | none
  | long
  | longLong
  deriving DecidableEq, Repr

inductive Conversion
  | c | s | d | i | u | x | X | o | p | percent
  deriving DecidableEq, Repr

def Conversion.char : Conversion → Char
  | .c => 'c'
  | .s => 's'
  | .d => 'd'
  | .i => 'i'
  | .u => 'u'
  | .x => 'x'
  | .X => 'X'
  | .o => 'o'
  | .p => 'p'
  | .percent => '%'

def conversions : List Conversion :=
  [.c, .s, .d, .i, .u, .x, .X, .o, .p, .percent]

-- The case of the `switch` for a character.
def Conversion.ofChar (c : CChar) : Option Conversion :=
  conversions.find? fun k => ascii k.char = c.val

def isFlag (c : CChar) : Bool :=
  c.val ∈ [ascii '-', ascii '+', ascii ' ', ascii '#', ascii '0']

def isDigit (c : CChar) : Bool :=
  ascii '0' ≤ c.val ∧ c.val ≤ ascii '9'

def is (k : Char) (c : CChar) : Bool :=
  c.val = ascii k

-- A loop over the format stops at the null character at the latest.
def skipPrecision (fmt : CString) : CString :=
  match fmt with
  | [] => []
  | c :: fmt => if is '.' c then fmt.dropWhile isDigit else c :: fmt

def lengthModifier (fmt : CString) : Length × CString :=
  match fmt with
  | [] => (.none, [])
  | c :: fmt =>
    if is 'l' c then
      match fmt with
      | [] => (.long, [])
      | c' :: rest => if is 'l' c' then (.longLong, rest) else (.long, c' :: rest)
    else if is 'h' c ∨ is 'L' c then (.none, fmt)
    else (.none, c :: fmt)

-- From behind the `%` to the character of the conversion, which can be the null character.
def directive (fmt : CString) : Length × CString :=
  lengthModifier (skipPrecision ((fmt.dropWhile isFlag).dropWhile isDigit))

def lowerDigits : List Char :=
  "0123456789abcdefghijklmnopqrstuvwxyz".toList

def upperDigits : List Char :=
  "0123456789ABCDEFGHIJKLMNOPQRSTUVWXYZ".toList

def digit (small : Bool) (d : Nat) : UInt8 :=
  ascii ((if small then lowerDigits else upperDigits).getD d '0')

-- The digits in `tmp`, the last one that was stored first.
def storeDigits (small : Bool) (base : Nat) : Nat → Nat → List UInt8 → List UInt8
  | 0,        _,   tmp => tmp
  | room + 1, num, tmp =>
    if num = 0 then tmp
    else storeDigits small base room (num / base) (digit small (num % base) :: tmp)

def digits (small : Bool) (base num : Nat) : List UInt8 :=
  if num = 0 then [ascii '0'] else storeDigits small base 23 num []

def numberToStr (limit : Nat) (s : Sink UInt8) (num base : Nat) (small : Bool) : Sink UInt8 :=
  s.copy limit (digits small base num)

-- An `int` is in the lower half of its word.
def Length.signed (l : Length) (w : UInt64) : Int64 :=
  match l with
  | .none => w.toUInt32.toInt32.toInt64
  | _ => w.toInt64

def Length.unsigned (l : Length) (w : UInt64) : UInt64 :=
  match l with
  | .none => w.toUInt32.toUInt64
  | _ => w

def vaWord : List Arg → Except Fault (UInt64 × List Arg)
  | .word w :: args => return (w, args)
  | _ => throw .argument

def WChar.bytes (c : UInt32) : List UInt8 :=
  [c.toUInt8, (c >>> 8).toUInt8, (c >>> 16).toUInt8, (c >>> 24).toUInt8]

-- Wide characters when they are read as characters: the bytes before the first one that is zero.
def asString (s : List WChar) : CString :=
  ((s.flatMap fun c => WChar.bytes c.val).takeWhile (· ≠ 0)).filterMap fun b =>
    if h : b ≠ 0 then some ⟨b, h⟩ else none

def vaString : List Arg → Except Fault (Option CString × List Arg)
  | .string s :: args => return (s, args)
  | .wide s :: args => return (some (asString s), args)
  | _ => throw .argument

def null : List UInt8 :=
  "(null)".toList.map ascii

-- The counter is an `int`.
def stringLength (s : CString) : Except Fault Nat :=
  if s.length < 2 ^ 31 then return s.length else throw .length

variable (limit : Nat)

def putChar (s : Sink UInt8) (args : List Arg) : Except Fault (Sink UInt8 × List Arg) :=
  if s.pos < limit then do
    let (w, args) ← vaWord args
    return (s.push w.toUInt8, args)
  else return (s, args)

def putString (s : Sink UInt8) (args : List Arg) : Except Fault (Sink UInt8 × List Arg) := do
  let (p, args) ← vaString args
  match p with
  | none => return (s.copy limit null, args)
  | some p =>
    let len ← stringLength p
    return (s.copy limit ((p.take len).map (·.val)), args)

-- Negation wraps around.
def putSigned (l : Length) (s : Sink UInt8) (args : List Arg) : Except Fault (Sink UInt8 × List Arg) := do
  let (w, args) ← vaWord args
  let snum := l.signed w
  if snum < 0 ∧ s.pos < limit then
    return (numberToStr limit (s.push (ascii '-')) (-snum).toUInt64.toNat 10 false, args)
  else return (numberToStr limit s snum.toUInt64.toNat 10 false, args)

def putUnsigned (l : Length) (base : Nat) (small : Bool) (s : Sink UInt8) (args : List Arg) :
    Except Fault (Sink UInt8 × List Arg) := do
  let (w, args) ← vaWord args
  return (numberToStr limit s (l.unsigned w).toNat base small, args)

def putPointer (s : Sink UInt8) (args : List Arg) : Except Fault (Sink UInt8 × List Arg) := do
  let s := (s.emit limit (ascii '0')).emit limit (ascii 'x')
  let (w, args) ← vaWord args
  return (numberToStr limit s w.toNat 16 true, args)

-- The `switch` at the rest of the format.
def convert (l : Length) (rest : CString) (s : Sink UInt8) (args : List Arg) :
    Except Fault (Sink UInt8 × List Arg) :=
  match rest with
  | [] => return (s.emit limit (ascii '%'), args)
  | c :: _ =>
    match Conversion.ofChar c with
    | some .c => putChar limit s args
    | some .s => putString limit s args
    | some .d => putSigned limit l s args
    | some .i => putSigned limit l s args
    | some .u => putUnsigned limit l 10 false s args
    | some .x => putUnsigned limit l 16 true s args
    | some .X => putUnsigned limit l 16 false s args
    | some .o => putUnsigned limit l 8 false s args
    | some .p => putPointer limit s args
    | some .percent => return (s.emit limit (ascii '%'), args)
    | none => return ((s.emit limit (ascii '%')).emit limit c.val, args)

lemma length_skipPrecision_le (fmt : CString) : (skipPrecision fmt).length ≤ fmt.length := by
  unfold skipPrecision
  split
  case h_1 => exact le_rfl
  case h_2 c rest =>
    have := List.length_dropWhile_le isDigit rest
    split <;> simp only [List.length_cons] <;> omega

lemma length_lengthModifier_le (fmt : CString) : (lengthModifier fmt).2.length ≤ fmt.length := by
  unfold lengthModifier
  split
  · exact le_rfl
  · split <;> (try split) <;> (try split) <;> simp; omega

lemma length_directive_le (fmt : CString) : (directive fmt).2.length ≤ fmt.length :=
  calc
    _ ≤ _ := length_lengthModifier_le _
    _ ≤ _ := length_skipPrecision_le _
    _ ≤ _ := List.length_dropWhile_le _ _
    _ ≤ _ := List.length_dropWhile_le _ _

lemma length_lt_of_directive (h : directive fmt = (l, k :: rest)) : rest.length < fmt.length := by
  have hl := length_directive_le fmt
  rw [h, List.length_cons] at hl
  exact hl

-- The loop of `vsnprintf`. The step to the next character is made at the null character, too.
def scan (fmt : CString) (s : Sink UInt8) (args : List Arg) : Except Fault (Sink UInt8) :=
  match fmt with
  | [] => return s
  | c :: fmt =>
    if s.pos < limit then
      if is '%' c then
        match h : directive fmt with
        | (l, []) => do
          let _ ← convert limit l [] s args
          throw .pastEnd
        | (l, k :: rest) => do
          have := length_lt_of_directive h
          let (s, args) ← convert limit l (k :: rest) s args
          scan rest s args
      else scan fmt (s.push c.val) args
    else return s
termination_by fmt.length

-- What `pos` is compared with, which is computed as an `int`; no position is below a negative bound.
def bound (size : UInt64) : Nat :=
  (size.toUInt32.toInt32 - 1).toInt.toNat

def vsnprintf (buf : Option (Nat → UInt8)) (size : UInt64) (fmt : CString) (args : List Arg) :
    Except Fault (Option (Nat → UInt8) × Nat) :=
  match buf with
  | none => return (none, 0)
  | some buf =>
    if size = 0 then return (some buf, 0)
    else do
      let s ← scan (bound size) fmt ⟨buf, 0⟩ args
      return (some (Function.update s.buf s.pos 0), s.pos)

end Format
