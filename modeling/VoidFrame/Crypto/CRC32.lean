import Mathlib

namespace CRC32

def polynomial : BitVec 32 := 0xEDB88320

-- One round of the inner loop of `CRC32Init`.
def shift (c : BitVec 32) : BitVec 32 :=
  if c &&& 1 ≠ 0 then polynomial ^^^ (c >>> 1) else c >>> 1

def tableEntry (i : BitVec 32) : BitVec 32 :=
  Nat.repeat shift 8 i

def update (crc : BitVec 32) (byte : BitVec 8) : BitVec 32 :=
  tableEntry ((crc ^^^ byte.setWidth 32) &&& 0xFF) ^^^ (crc >>> 8)

def crc32 (data : List (BitVec 8)) : BitVec 32 :=
  data.foldl update 0xFFFFFFFF ^^^ 0xFFFFFFFF

-- What the first call of `CRC32` generates.
def crc32Init : List (BitVec 32) :=
  (List.range 256).map fun i => tableEntry (BitVec.ofNat 32 i)

-- The static variables.
structure Static where
  tableGenerated : Bool := false
  crc32Table : List (BitVec 32) := List.replicate 256 0

def Static.crc32 (s : Static) (data : List (BitVec 8)) : BitVec 32 × Static :=
  let s := if s.tableGenerated then s else { tableGenerated := true, crc32Table := crc32Init }
  let next (crc : BitVec 32) (byte : BitVec 8) :=
    s.crc32Table.getD ((crc ^^^ byte.setWidth 32) &&& 0xFF).toNat 0 ^^^ (crc >>> 8)
  (data.foldl next 0xFFFFFFFF ^^^ 0xFFFFFFFF, s)

-- The bytes of a 64-bit word in memory, the lowest one first.
def bytes (x : BitVec 64) : List (BitVec 8) :=
  (List.range 8).map fun i => x.extractLsb' (8 * i) 8

end CRC32
