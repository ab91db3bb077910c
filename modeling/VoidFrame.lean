import VoidFrame.Clock.Theorems.Rtc
import VoidFrame.Crypto.Theorems.CRC32
import VoidFrame.Exec.Theorems.Elf
import VoidFrame.Exec.Theorems.Image
import VoidFrame.Exec.Theorems.Macho
import VoidFrame.Exec.Theorems.PE
import VoidFrame.Fs.Ext2.Theorems.Geometry
import VoidFrame.Fs.FAT.Theorems.Table
import VoidFrame.Fs.NTFS.Theorems.Namespace
import VoidFrame.Fs.NTFS.Theorems.WriteBack
import VoidFrame.Fs.Theorems.Handle
import VoidFrame.Fs.Theorems.IsoCopy
import VoidFrame.Fs.Theorems.Partition
import VoidFrame.Ipc.Theorems.Sender
import VoidFrame.Lock.Theorems.Conservation
import VoidFrame.Mem.Theorems.AddressSpace
import VoidFrame.Mem.Theorems.Boot
import VoidFrame.Mem.Theorems.Pool
import VoidFrame.Net.Theorems.Arp
import VoidFrame.Net.Theorems.Bounds
import VoidFrame.Net.Theorems.Echo
import VoidFrame.Sched.EEVDF.Theorems.Containment
import VoidFrame.Sched.EEVDF.Theorems.Context
import VoidFrame.Sched.EEVDF.Theorems.Load
import VoidFrame.Sched.EEVDF.Theorems.Pid
import VoidFrame.Sched.EEVDF.Theorems.Termination
import VoidFrame.Sched.EEVDF.Theorems.Timer
import VoidFrame.Sched.EEVDF.Theorems.Wakeup
import VoidFrame.Sched.MLFQ.Theorems.DynamoX
import VoidFrame.Sched.MLFQ.Theorems.Quantum
import VoidFrame.Sched.MLFQ.Theorems.RealTime
import VoidFrame.Sched.MLFQ.Theorems.Representation
import VoidFrame.Sched.MLFQ.Theorems.Selection
import VoidFrame.Sched.Theorems.Deadlock
import VoidFrame.Storage.Theorems.Completion
import VoidFrame.Storage.Theorems.Dma
import VoidFrame.Storage.Theorems.Transfer
import VoidFrame.Syscall.Theorems.Handler
import VoidFrame.Text.Theorems.Format
import VoidFrame.Usb.Theorems.CommandRing
import VoidFrame.Fs.Path
import VoidFrame.Fs.Theorems.Path
