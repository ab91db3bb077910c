import VoidFrame.Library.CBuffer
import VoidFrame.Library.Sink

-- The path resolver of `FsUtils.h` that works in place.

namespace FsUtils

open CString (slash dot bytes)

inductive Fault
  | outOfBounds
  deriving DecidableEq, Repr

def workSize : Nat := 512

def componentSize : Nat := 64

def workPath (work : Nat → UInt8) (currentDir : Option CString) (input : CString) : Sink UInt8 :=
  if input.head? = some slash then Sink.copy (workSize - 1) ⟨work, 0⟩ (bytes input)
  else
    let s := Sink.copy (workSize - 2) ⟨work, 0⟩ (bytes (currentDir.getD []))
    let s := if 0 < s.pos ∧ s.buf (s.pos - 1) ≠ slash.val then s.push slash.val else s
    s.copy (workSize - 1) (bytes input)

structure Cursor where
  buf : Nat → UInt8
  read : Nat
  write : Nat
  component : List UInt8

-- `*read_ptr == '/'` from a position on.
def skip (buf : Nat → UInt8) : Nat → Nat → Except Fault Nat
  | 0,        _ => throw .outOfBounds
  | room + 1, read => if buf read = slash.val then skip buf room (read + 1) else return read

-- The write pointer goes back to behind a slash.
def backUp (buf : Nat → UInt8) : Nat → Nat
  | write + 2 => if buf (write + 1) ≠ slash.val then backUp buf (write + 1) else write + 2
  | write => write

-- The end of a component, with the characters that are written behind a normal one.
def endComponent (separator : List UInt8) (c : Cursor) : Cursor :=
  if c.component = [] then c
  else if c.component = [dot.val] then c
  else if c.component = [dot.val, dot.val] then
    { c with write := if 1 < c.write then backUp c.buf (c.write - 1) else c.write }
  else
    let s := (c.component ++ separator).foldl Sink.push ⟨c.buf, c.write⟩
    { c with buf := s.buf, write := s.pos }

-- The loop over the characters. Each round moves `read` on, and a read behind `work_buffer` is a fault.
def scan : Nat → Cursor → Except Fault Cursor
  | 0,        _ => throw .outOfBounds
  | fuel + 1, c =>
    if workSize ≤ c.read then throw .outOfBounds
    else if c.buf c.read = 0 then return c
    else if c.buf c.read = slash.val then do
      let c := endComponent [slash.val] c
      let read ← skip c.buf (workSize - c.read) c.read
      scan fuel { c with read, component := [] }
    else
      scan fuel
        { c with
          read := c.read + 1
          component :=
            if c.component.length < componentSize - 1 then c.component ++ [c.buf c.read] else c.component }

def normalizeInPlace (buf : Nat → UInt8) : Except Fault (Sink UInt8) := do
  let buf := Function.update buf 0 slash.val
  let read ← skip buf workSize 0
  let c ← scan workSize { buf, read, write := 1, component := [] }
  let c := endComponent [] c
  let write := if 1 < c.write ∧ c.buf (c.write - 1) = slash.val then c.write - 1 else c.write
  return ⟨Function.update c.buf write 0, write⟩

-- `work_buffer` and the output after the call.
def resolvePathH (work : Nat → UInt8) (currentDir input : Option CString) (output : Option (Nat → UInt8))
    (maxLen : Int) : Except Fault ((Nat → UInt8) × Option (Nat → UInt8)) :=
  match input, output with
  | _,          none => return (work, none)
  | none,       some output =>
    return (work, some (if 0 < maxLen then Function.update output 0 0 else output))
  | some input, some output =>
    if maxLen ≤ 1 then return (work, some (if 0 < maxLen then Function.update output 0 0 else output))
    else do
      let path := workPath work currentDir input
      let s ← normalizeInPlace (Function.update path.buf path.pos 0)
      let copyLen := if (s.pos : Int) < maxLen - 1 then s.pos else (maxLen - 1).toNat
      let out := ((List.range copyLen).map s.buf).foldl Sink.push ⟨output, 0⟩
      return (s.buf, some (Function.update out.buf out.pos 0))

end FsUtils
