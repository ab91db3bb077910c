import VoidFrame.Library.Buffer
import VoidFrame.Library.Table12

-- The table of a FAT12 volume in memory.

namespace FAT1x

inductive Fault
  | fatTable
deriving DecidableEq, Repr

def fat12ClusterEof : UInt16 := 0xFF8

-- The two bytes that an entry shares with another one are accessed as one number.
def entryOffset (cluster : UInt16) : Nat :=
  Table12.offset cluster.toNat

def fat12GetNextCluster (fatTable : Buffer) (cluster : UInt16) : Except Fault UInt16 :=
  if 0xFF8 ≤ cluster then return fat12ClusterEof
  else fatTable.load .fatTable 2 (fun data _ => Table12.get data cluster.toNat) (entryOffset cluster)

def fat12SetFatEntry (fatTable : Buffer) (cluster value : UInt16) : Except Fault Buffer :=
  if entryOffset cluster + 2 ≤ fatTable.size then
    return { fatTable with data := Table12.set fatTable.data cluster.toNat value }
  else throw .fatTable

end FAT1x
