import VoidFrame.Storage.Transfer
import VoidFrame.Storage.Theorems.Dma

-- A request of a block device reaches the sectors it is for.

namespace Storage

-- The sectors of a request one after another, with the bytes of the buffer at the given addresses.
def expected (address : Nat → Nat) (lba count : Nat) : List Transfer :=
  (List.range count).map fun i =>
    (lba + i, (List.range Dma.sectorSize).map fun j => address (i * Dma.sectorSize + j))

lemma take_drop_map_range {α : Type} {f : Nat → α} {k w m : Nat} (h : k + w ≤ m) :
    (((List.range m).map f).drop k).take w = (List.range w).map fun j => f (k + j) := by
  refine List.ext_getElem (by simp; omega) fun i h1 h2 => ?_
  simp

lemma transfers_eq {address : Nat → Nat} {first n : Nat} :
    transfers first n ((List.range (n * Dma.sectorSize)).map address) = expected address first n := by
  refine List.map_congr_left fun i hi => ?_
  have hle : i * Dma.sectorSize + Dma.sectorSize ≤ n * Dma.sectorSize := by
    rw [← Nat.succ_mul]
    exact Nat.mul_le_mul_right _ (List.mem_range.mp hi)
  rw [take_drop_map_range hle]

lemma transfers_inversion {address : Nat → Nat} {first m lba n : Nat} {bytes : List Nat}
    (h : transfers first m bytes = expected address lba n) : m = n ∧ ∀ i < n, first = lba ∧
      (bytes.drop (i * Dma.sectorSize)).take Dma.sectorSize =
        (List.range Dma.sectorSize).map fun j => address (i * Dma.sectorSize + j) := by
  obtain rfl : m = n := by simpa [transfers, expected] using congrArg List.length h
  refine ⟨rfl, fun i hi => ?_⟩
  have hi := Prod.mk.inj (List.map_inj_left.mp h i (List.mem_range.mpr hi))
  exact ⟨Nat.add_right_cancel hi.1, hi.2⟩

-- The bytes of the last sector are there.
lemma le_length_of_transfers {address : Nat → Nat} {first m lba n : Nat} {bytes : List Nat}
    (h : transfers first m bytes = expected address lba n) : n * Dma.sectorSize ≤ bytes.length := by
  rcases n with _ | n
  · rw [Nat.zero_mul]
    exact Nat.zero_le _
  have hl := congrArg List.length ((transfers_inversion h).2 n (Nat.lt_succ_self n)).2
  simp only [List.length_take, List.length_drop, List.length_map, List.length_range] at hl
  unfold Dma.sectorSize at *
  omega

section

variable {lba : UInt64}

lemma toNat_byte (hk : k.toNat = n) (hn : n < 64) :
    (lba >>> k &&& 0xFF).toUInt8.toNat = lba.toNat / 2 ^ n % 2 ^ 8 := by
  have hand : (lba >>> k &&& 0xFF).toNat = lba.toNat / 2 ^ n % 2 ^ 8 := by
    rw [UInt64.toNat_and, UInt64.toNat_shiftRight, hk, Nat.mod_eq_of_lt hn, Nat.shiftRight_eq_div_pow]
    exact Nat.and_two_pow_sub_one_eq_mod _ 8
  rw [UInt64.toNat_toUInt8, hand, Nat.mod_mod]

lemma toNat_byte_zero : (lba &&& 0xFF).toUInt8.toNat = lba.toNat % 2 ^ 8 := by
  have hand : (lba &&& 0xFF).toNat = lba.toNat % 2 ^ 8 := by
    rw [UInt64.toNat_and]
    exact Nat.and_two_pow_sub_one_eq_mod _ 8
  rw [UInt64.toNat_toUInt8, hand, Nat.mod_mod]

lemma toNat_toUInt16 {n : UInt32} (h : n.toNat < 2 ^ 16) : n.toUInt16.toNat = n.toNat := by
  rw [UInt32.toNat_toUInt16]
  exact Nat.mod_eq_of_lt h

end

namespace Ide

variable {env : Environment} {command drive : UInt8} {lba startLba : UInt64} {buffer : Nat} {count : UInt32}

lemma driveHead_mod : (driveHead drive lba.toUInt32).toNat % 2 ^ 4 = lba.toNat / 2 ^ 24 % 2 ^ 4 := by
  unfold driveHead
  have hshift : (drive <<< 4).toNat % 2 ^ 4 = 0 := by
    rw [UInt8.toNat_shiftLeft, show UInt8.toNat 4 % 8 = 4 from rfl, Nat.shiftLeft_eq]
    omega
  have hlow : (lba.toUInt32 >>> 24 &&& 0x0F).toNat = lba.toNat / 2 ^ 24 % 2 ^ 4 := by
    rw [UInt32.toNat_and, UInt32.toNat_shiftRight, UInt64.toNat_toUInt32, show UInt32.toNat 24 % 32 = 24 from rfl,
      Nat.shiftRight_eq_div_pow, show UInt32.toNat 0x0F = 2 ^ 4 - 1 from rfl, Nat.and_two_pow_sub_one_eq_mod]
    omega
  rw [UInt8.toNat_or, UInt8.toNat_or, Nat.or_mod_two_pow, Nat.or_mod_two_pow, hshift, UInt32.toNat_toUInt8, hlow,
    show UInt8.toNat 0xE0 % 2 ^ 4 = 0 from rfl, Nat.zero_or, Nat.zero_or]
  omega

-- The registers have the lower 28 bits of the address.
lemma registers_sector : (registers command drive lba).sector = lba.toNat % 2 ^ 28 := by
  unfold Registers.sector registers
  dsimp only
  rw [driveHead_mod, toNat_byte_zero, toNat_byte (k := 8) (n := 8) rfl (by decide), toNat_byte (k := 16) (n := 16) rfl (by decide)]
  omega

lemma transfer_eq : transfer (registers command drive lba) buf =
      [(lba.toNat % 2 ^ 28, (List.range Dma.sectorSize).map (buf + ·))] := by
  unfold transfer
  rw [transfers_eq, registers_sector]
  show [(_, _)] = _
  simp

lemma loop_transfers (h : (loop env ready command drive startLba buffer l).1 = 0) :
    (loop env ready command drive startLba buffer l).2 = l.map fun i =>
      ((startLba + (UInt32.ofNat i).toUInt64).toNat % 2 ^ 28,
        (List.range Dma.sectorSize).map (buffer + (UInt32.ofNat i * 512).toNat + ·)) := by
  induction l
  case nil => rfl
  case cons i l ih =>
    unfold loop at h ⊢
    dsimp only at h ⊢
    split_ifs at h ⊢ with hsel hdata hready
    · exact absurd h hsel
    · exact absurd h hdata
    · exact absurd h hready.right
    · rw [transfer_eq, ih h]
      rfl

-- The addresses of the sectors are those that the registers have, and their places in the buffer have 32 bits.
structure Fits (startLba : UInt64) (i : Nat) : Prop where
  sector : startLba.toNat + i < 2 ^ 28
  offset : i < 2 ^ 23

-- What is transferred for a sector is what is asked for.
lemma fits_iff (hi : i < 2 ^ 32) : Fits startLba i ↔
    ((startLba + (UInt32.ofNat i).toUInt64).toNat % 2 ^ 28,
      (List.range Dma.sectorSize).map (buffer + (UInt32.ofNat i * 512).toNat + ·)) =
    (startLba.toNat + i, (List.range Dma.sectorSize).map fun j => buffer + (i * Dma.sectorSize + j)) := by
  have hn : (UInt32.ofNat i).toNat = i := UInt32.toNat_ofNat_of_lt' hi
  have hlba : (startLba + (UInt32.ofNat i).toUInt64).toNat = (startLba.toNat + i) % 2 ^ 64 := by
    rw [UInt64.toNat_add, UInt32.toNat_toUInt64, hn]
  have hbuf : (UInt32.ofNat i * 512).toNat = i * 512 % 2 ^ 32 := by rw [UInt32.toNat_mul, hn]; rfl
  rw [hlba, hbuf, Prod.mk.injEq, List.map_inj_left]
  unfold Dma.sectorSize
  constructor
  case mp =>
    intro h
    have := h.sector
    have := h.offset
    exact ⟨by omega, fun j _ => by omega⟩
  case mpr =>
    intro h
    have := h.2 0 (List.mem_range.mpr (by decide))
    exact ⟨by omega, by omega⟩

lemma blocks_transfers (h : (blocks env ready command startLba count buffer).1 = 0) :
    (blocks env ready command startLba count buffer).2 = expected (buffer + ·) startLba.toNat count.toNat ↔
      ∀ i < count.toNat, Fits startLba i := by
  have hlt := count.toNat_lt
  have he : (blocks env ready command startLba count buffer).2 = (List.range count.toNat).map fun i =>
      ((startLba + (UInt32.ofNat i).toUInt64).toNat % 2 ^ 28,
        (List.range Dma.sectorSize).map (buffer + (UInt32.ofNat i * 512).toNat + ·)) := by
    unfold blocks at h ⊢
    split at h
    case h_1 => cases h
    case h_2 data hd =>
      dsimp only at h ⊢
      split_ifs at h ⊢
      · cases h
      · cases h
      · exact loop_transfers h
  rw [he, expected, List.map_inj_left]
  refine forall_congr' fun i => ?_
  rw [List.mem_range]
  exact forall_congr' fun hi => (fits_iff (hi.trans hlt)).symm

end Ide

namespace Ahci

variable {lba : UInt64} {count : UInt16}

-- The FIS has the lower 48 bits of the address.
lemma fis_sector : (fis lba count).sector = lba.toNat % 2 ^ 48 := by
  unfold Fis.sector fis
  dsimp only
  rw [toNat_byte_zero, toNat_byte (k := 8) (n := 8) rfl (by decide), toNat_byte (k := 16) (n := 16) rfl (by decide),
    toNat_byte (k := 24) (n := 24) rfl (by decide), toNat_byte (k := 32) (n := 32) rfl (by decide),
    toNat_byte (k := 40) (n := 40) rfl (by decide)]
  omega

lemma fis_count (h : count ≠ 0) : (fis lba count).count = count.toNat := by
  have hne : count.toNat ≠ 0 := fun h0 => h (UInt16.toNat_inj.mp h0)
  have hlow : (count &&& 0xFF).toUInt8.toNat = count.toNat % 2 ^ 8 := by
    rw [UInt16.toNat_toUInt8, UInt16.toNat_and, show UInt16.toNat 0xFF = 2 ^ 8 - 1 from rfl,
      Nat.and_two_pow_sub_one_eq_mod, Nat.mod_mod]
  have hhigh : (count >>> 8 &&& 0xFF).toUInt8.toNat = count.toNat / 2 ^ 8 := by
    have := count.toNat_lt
    rw [UInt16.toNat_toUInt8, UInt16.toNat_and, UInt16.toNat_shiftRight, show UInt16.toNat 8 % 16 = 8 from rfl,
      Nat.shiftRight_eq_div_pow, show UInt16.toNat 0xFF = 2 ^ 8 - 1 from rfl, Nat.and_two_pow_sub_one_eq_mod]
    omega
  have hsum : (fis lba count).countl.toNat + (fis lba count).counth.toNat * 2 ^ 8 = count.toNat := by
    show (count &&& 0xFF).toUInt8.toNat + (count >>> 8 &&& 0xFF).toUInt8.toNat * 2 ^ 8 = _
    rw [hlow, hhigh]
    omega
  unfold Fis.count
  rw [hsum]
  exact if_neg hne

variable {env : Environment} {startLba : UInt64} {n : UInt32} {buffer : Nat}

-- The count of the request has 16 bits, the address has 48, and the buffer has the size of a region.
structure Fits (startLba : UInt64) (n : UInt32) : Prop where
  pos : 0 < n.toNat
  region : n.toNat * Dma.sectorSize ≤ 2 ^ 22
  sector : startLba.toNat < 2 ^ 48

lemma ahciSendCommand_inversion (h : (ahciSendCommand env port lba count buffer).1 = 0) :
    ∃ prd, Dma.ahciSendCommand env.pt count buffer = some prd ∧
      (ahciSendCommand env port lba count buffer).2 =
        transfers (fis lba count).sector (fis lba count).count prd.bytes := by
  unfold ahciSendCommand at h ⊢
  cases hprd : Dma.ahciSendCommand env.pt count buffer
  case none =>
    rw [hprd] at h
    dsimp only at h
    split_ifs at h
    · cases h
    · cases h
    · cases h
  case some prd =>
    rw [hprd] at h
    dsimp only at h ⊢
    split_ifs at h ⊢
    · cases h
    · cases h
    · cases h
    · cases h
    · exact ⟨prd, rfl, rfl⟩

lemma ahciSendCommand_transfers {port : Int} (hf : Fits lba n)
    (hc : Dma.Contiguous env.pt buffer (n.toNat * Dma.sectorSize))
    (h : (ahciSendCommand env port lba n.toUInt16 buffer).1 = 0) :
    (ahciSendCommand env port lba n.toUInt16 buffer).2 =
      expected (fun i => Dma.vmemGetPhysAddr env.pt (buffer + i)) lba.toNat n.toNat := by
  have hle := hf.region
  have hn : n.toUInt16.toNat = n.toNat := toNat_toUInt16 (by unfold Dma.sectorSize at hle; omega)
  have hne : n.toUInt16 ≠ 0 := fun h0 => hf.pos.ne' (hn.symm.trans (congrArg UInt16.toNat h0))
  obtain ⟨prd, hprd, ht⟩ := ahciSendCommand_inversion h
  rw [ht, Dma.ahciSendCommand_exact ⟨hne, hn ▸ hle, hn ▸ hc⟩ hprd, fis_sector, fis_count hne, Nat.mod_eq_of_lt hf.sector,
    Dma.bufferBytes, transfers_eq, hn]

lemma blocks_inversion (h : (blocks env startLba n buffer).1 = 0) : ∃ port,
    blocks env startLba n buffer = ahciSendCommand env port startLba n.toUInt16 buffer := by
  unfold blocks sectors at h ⊢
  split at h
  case h_1 => cases h
  case h_2 data hd =>
    split_ifs at h ⊢
    · cases h
    · cases h
    · exact ⟨_, rfl⟩

lemma blocks_transfers (hf : Fits startLba n) (hc : Dma.Contiguous env.pt buffer (n.toNat * Dma.sectorSize))
    (h : (blocks env startLba n buffer).1 = 0) :
    (blocks env startLba n buffer).2 =
      expected (fun i => Dma.vmemGetPhysAddr env.pt (buffer + i)) startLba.toNat n.toNat := by
  obtain ⟨port, he⟩ := blocks_inversion h
  rw [he] at h ⊢
  exact ahciSendCommand_transfers hf hc h

lemma fits_of_transfers {address : Nat → Nat} (h0 : (blocks env startLba n buffer).1 = 0)
    (h : (blocks env startLba n buffer).2 = expected address startLba.toNat n.toNat) : Fits startLba n := by
  obtain ⟨port, he⟩ := blocks_inversion h0
  rw [he] at h0 h
  obtain ⟨prd, -, ht⟩ := ahciSendCommand_inversion h0
  rw [ht] at h
  have hlen := le_length_of_transfers h
  obtain ⟨hcount, hsec⟩ := transfers_inversion h
  have hpos : 0 < n.toNat := by
    rw [← hcount]
    unfold Fis.count
    dsimp only
    split
    · decide
    · omega
  refine ⟨hpos, hlen.trans ?_, ?_⟩
  · rw [Dma.Prd.bytes, List.length_map, List.length_range]
    exact prd.dbc.isLt
  · rw [← (hsec 0 hpos).1, fis_sector]
    exact Nat.mod_lt _ (by decide)

end Ahci

namespace Nvme

variable {lba : UInt64}

lemma sector_eq :
    sector (lba &&& 0xFFFFFFFF).toUInt32 (lba >>> 32 &&& 0xFFFFFFFF).toUInt32 = lba.toNat := by
  have hlow : (lba &&& 0xFFFFFFFF).toUInt32.toNat = lba.toNat % 2 ^ 32 := by
    rw [UInt64.toNat_toUInt32, UInt64.toNat_and, show UInt64.toNat 0xFFFFFFFF = 2 ^ 32 - 1 from rfl,
      Nat.and_two_pow_sub_one_eq_mod, Nat.mod_mod]
  have hhigh : (lba >>> 32 &&& 0xFFFFFFFF).toUInt32.toNat = lba.toNat / 2 ^ 32 := by
    have := lba.toNat_lt
    rw [UInt64.toNat_toUInt32, UInt64.toNat_and, UInt64.toNat_shiftRight, show UInt64.toNat 32 % 64 = 32 from rfl,
      Nat.shiftRight_eq_div_pow, show UInt64.toNat 0xFFFFFFFF = 2 ^ 32 - 1 from rfl, Nat.and_two_pow_sub_one_eq_mod]
    omega
  unfold sector
  rw [hlow, hhigh]
  omega

variable {env : Environment} {n : UInt32} {buffer : Nat} {next : Int}

-- The count of the request has 16 bits, or the driver refuses what is left of it.
def Fits (n : UInt32) (buffer : Nat) : Prop :=
  0 < n.toNat ∧ n.toNat < 2 ^ 16 ∨ Dma.TooLong n.toUInt16 buffer

-- The buffer does not have exactly two pages, and their frames follow each other.
structure Linear (pt : Dma.PageTable) (n : UInt32) (buffer : Nat) : Prop where
  mapped : Dma.Mapped pt buffer (n.toNat * Dma.sectorSize)
  contiguous : Dma.Contiguous pt buffer (n.toNat * Dma.sectorSize)
  pages : n.toNat * Dma.sectorSize ≤ Dma.bytesInFirstPage buffer ∨
    Dma.bytesInFirstPage buffer + Dma.pageSize < n.toNat * Dma.sectorSize

lemma numBlocks_eq (hn : count ≠ 0)
    (h : Dma.nvmeCommand c pt count buffer = some (cmd, c')) : numBlocks cmd = count.toNat := by
  obtain ⟨r, -, hc⟩ := Option.bind_eq_some_iff.mp h
  cases hc
  have hs := Dma.size_eq hn (Dma.vmemGetPhysAddr pt buffer) (if 0 < r.1 then r.2.prpListPhys else 0)
  exact Nat.eq_of_mul_eq_mul_right (by decide) hs

lemma submit_inversion (h : (submit env next lba n.toUInt16 buffer).1 = 0) : ∃ cmd c,
    Dma.nvmeCommand env.controller env.pt n.toUInt16 buffer = some (cmd, c) ∧
      (submit env next lba n.toUInt16 buffer).2 = transfers lba.toNat (numBlocks cmd) (cmd.bytes c.memory) := by
  unfold submit at h ⊢
  dsimp only at h ⊢
  rcases hcmd : Dma.nvmeCommand env.controller env.pt n.toUInt16 buffer with _ | r
  · rw [hcmd] at h
    split at h <;> cases h
  rw [hcmd] at h
  split at h
  case isTrue => cases h
  case isFalse hi =>
    rw [if_neg hi, sector_eq]
    exact ⟨_, _, rfl, rfl⟩

lemma submit_transfers (hf : Fits n buffer) (hl : Linear env.pt n buffer)
    (h : (submit env next lba n.toUInt16 buffer).1 = 0) :
    (submit env next lba n.toUInt16 buffer).2 =
      expected (fun i => Dma.vmemGetPhysAddr env.pt (buffer + i)) lba.toNat n.toNat := by
  obtain ⟨cmd, c, hcmd, ht⟩ := submit_inversion h
  have hle : n.toUInt16.toNat * Dma.sectorSize ≤ n.toNat * Dma.sectorSize :=
    Nat.mul_le_mul_right _ (by rw [UInt32.toNat_toUInt16]; exact Nat.mod_le _ _)
  have hm : Dma.Mapped env.pt buffer (n.toUInt16.toNat * Dma.sectorSize) := fun i hi => hl.mapped i (by omega)
  rcases hf with ⟨hpos, hlt⟩ | hlong
  · have hn := toNat_toUInt16 hlt
    have hne : n.toUInt16 ≠ 0 := fun h0 => hpos.ne' (hn.symm.trans (congrArg UInt16.toNat h0))
    have hs : Dma.PrpSafe env.pt n.toUInt16 buffer := ⟨hne, hn ▸ hl.pages.imp_right (⟨·, hl.contiguous⟩)⟩
    rw [ht, numBlocks_eq hne hcmd, Dma.nvmeCommand_exact hm hs hcmd, Dma.bufferBytes, transfers_eq, hn]
  · cases (Dma.nvmeCommand_none hm hlong).symm.trans hcmd

end Nvme

-- What a block device of a driver does with a request.
inductive Driver
  | ide (env : Ide.Environment)
  | ahci (env : Ahci.Environment)
  | nvme (env : Nvme.Environment)

namespace Driver

def readBlocks : Driver → UInt64 → UInt32 → Nat → Int × List Transfer
  | ide env => Ide.ideReadBlocks env
  | ahci env => Ahci.ahciReadBlocksWrapper env
  | nvme env => Nvme.nvmeReadBlocksWrapper env

def writeBlocks : Driver → UInt64 → UInt32 → Nat → Int × List Transfer
  | ide env => Ide.ideWriteBlocks env
  | ahci env => Ahci.ahciWriteBlocksWrapper env
  | nvme env => Nvme.nvmeWriteBlocksWrapper env

-- Where a byte of the buffer is for the driver: IDE copies the bytes, the others let the device do that.
def address : Driver → Nat → Nat → Nat
  | ide _,    buffer, i => buffer + i
  | ahci env, buffer, i => Dma.vmemGetPhysAddr env.pt (buffer + i)
  | nvme env, buffer, i => Dma.vmemGetPhysAddr env.pt (buffer + i)

inductive Kind
  | ide
  | ahci
  | nvme

def kind : Driver → Kind
  | ide _ => .ide
  | ahci _ => .ahci
  | nvme _ => .nvme

-- The device can reach the buffer with the addresses that it is given.
def Linear (count : UInt32) (buffer : Nat) : Driver → Prop
  | ide _ => True
  | ahci env => Dma.Contiguous env.pt buffer (count.toNat * Dma.sectorSize)
  | nvme env => Nvme.Linear env.pt count buffer

-- The interface of the device can express the request, or the driver refuses it.
def Expresses (startLba : UInt64) (count : UInt32) (buffer : Nat) : Kind → Prop
  | .ide => ∀ i < count.toNat, Ide.Fits startLba i
  | .ahci => Ahci.Fits startLba count
  | .nvme => Nvme.Fits count buffer

-- A request that returns 0 has transferred its sectors, in order and to their places in the buffer.
def Exact (driver : Driver) (startLba : UInt64) (count : UInt32) (buffer : Nat) : Prop :=
  ((driver.readBlocks startLba count buffer).1 = 0 →
    (driver.readBlocks startLba count buffer).2 =
      expected (driver.address buffer) startLba.toNat count.toNat) ∧
  ((driver.writeBlocks startLba count buffer).1 = 0 →
    (driver.writeBlocks startLba count buffer).2 =
      expected (driver.address buffer) startLba.toNat count.toNat)

end Driver

-- Every virtual page is mapped to the frame after that of its number.
def raised : Dma.PageTable :=
  fun page => some (page + 1)

lemma raised_phys (vaddr : Nat) : Dma.vmemGetPhysAddr raised vaddr = vaddr + Dma.pageSize := by
  change (vaddr / Dma.pageSize + 1) * Dma.pageSize + vaddr % Dma.pageSize = _
  unfold Dma.pageSize
  omega

lemma raised_contiguous : Dma.Contiguous raised buffer n := by
  intro i _
  rw [raised_phys, raised_phys]
  omega

def sampleIde : Driver :=
  .ide { driverData := some 1, driveExists := fun _ _ => true, select := fun _ => 0, waitData := fun _ => 0,
         waitReady := fun _ => 0 }

def sampleAhci : Driver :=
  .ahci { driverData := some 1, initialized := true, active := fun _ => true, portReady := true, completes := true,
          taskFileError := false, pt := raised }

def sampleController : Nvme.Environment where
  initialized := true
  controller := Dma.controller
  pt := raised
  status := 0
  flush := 0

def sampleNvme : Driver :=
  .nvme sampleController

lemma sampleIde_returns (startLba : UInt64) (count : UInt32) (buffer : Nat) :
    (sampleIde.readBlocks startLba count buffer).1 = 0 := by
  change (Ide.loop _ _ _ _ _ _ (List.range count.toNat)).1 = 0
  induction List.range count.toNat
  case nil => rfl
  case cons i l ih => exact ih

lemma sampleAhci_returns (startLba : UInt64) (count : UInt32) (buffer : Nat) :
    (sampleAhci.readBlocks startLba count buffer).1 = 0 := by
  have h0 : Dma.vmemGetPhysAddr raised buffer ≠ 0 := by
    rw [raised_phys]
    exact Nat.ne_of_gt (Nat.add_pos_right _ (by decide))
  simp [Driver.readBlocks, sampleAhci, Ahci.ahciReadBlocksWrapper, Ahci.blocks, Ahci.sectors, Ahci.ahciSendCommand,
    Dma.ahciSendCommand, h0]

-- A count of zero stands for the highest one, and then the list of pages is missing.
lemma fits_of_exact (h : sampleNvme.Exact startLba n buffer) : Nvme.Fits n buffer := by
  by_contra hf
  obtain ⟨hn, hlong⟩ := not_or.mp hf
  have hlt := n.toNat_lt
  have hm : Dma.Mapped raised buffer (n.toUInt16.toNat * Dma.sectorSize) := fun _ _ => rfl
  have hfirst : Dma.bytesInFirstPage (Dma.vmemGetPhysAddr raised buffer) = Dma.bytesInFirstPage buffer := by
    rw [raised_phys, Dma.bytesInFirstPage, Nat.add_mod_right, Dma.bytesInFirstPage]
  obtain ⟨⟨cmd, c⟩, hcmd⟩ : ∃ r, Dma.nvmeCommand Dma.controller raised n.toUInt16 buffer = some r := by
    unfold Dma.nvmeCommand Dma.nvmeSetupPrpList
    dsimp only
    have hle := Dma.numPrpEntries_le hlong hfirst
    split
    · exact ⟨_, rfl⟩
    · rw [if_neg (Nat.not_lt.mpr hle)]
      exact ⟨_, rfl⟩
  have h0 : (Nvme.submit sampleController 0 startLba n.toUInt16 buffer).1 = 0 := by
    unfold Nvme.submit sampleController
    dsimp only
    rw [hcmd]
    rfl
  have he : (Nvme.submit sampleController 0 startLba n.toUInt16 buffer).2 = _ := h.1 h0
  obtain ⟨cmd', c', hcmd', ht⟩ := Nvme.submit_inversion h0
  obtain ⟨rfl, rfl⟩ := Prod.mk.inj (Option.some.inj (hcmd.symm.trans hcmd'))
  rw [ht] at he
  obtain ⟨hcount, hbytes⟩ := transfers_inversion he
  by_cases hz : n.toUInt16 = 0
  case neg =>
    have hn16 := Nvme.numBlocks_eq hz hcmd
    have hpos : n.toUInt16.toNat ≠ 0 := fun h0 => hz (UInt16.toNat_inj.mp h0)
    have := n.toUInt16.toNat_lt
    omega
  obtain ⟨rfl, rfl⟩ : cmd = ⟨Dma.vmemGetPhysAddr raised buffer, 0, 0 - 1⟩ ∧ c = Dma.controller := by
    rw [hz] at hcmd
    simpa [Dma.nvmeCommand, Dma.nvmeSetupPrpList, Dma.numPrpEntries, eq_comm] using hcmd
  have hmax : ((0 : UInt32) - 1).toNat % 2 ^ 16 + 1 = 65536 := by decide
  have hn16 : n.toNat = 65536 := hcount.symm.trans hmax
  have hsize : (⟨Dma.vmemGetPhysAddr raised buffer, 0, 0 - 1⟩ : Dma.Command).size = 33554432 :=
    congrArg (· * Dma.sectorSize) hmax
  have h8 := (hbytes 8 (by omega)).2
  rw [Dma.Command.bytes, hsize, take_drop_map_range (by decide)] at h8
  have ha := List.map_inj_left.mp h8 0 (List.mem_range.mpr (by decide))
  unfold Dma.Command.address at ha
  dsimp only at ha
  have hle : Dma.bytesInFirstPage buffer ≤ 4096 := Nat.sub_le _ _
  have hpos : 0 < Dma.bytesInFirstPage buffer := Nat.sub_pos_of_lt (Nat.mod_lt _ (by decide))
  have hto : sampleNvme.address buffer (8 * Dma.sectorSize + 0) = buffer + 4096 + 4096 := raised_phys _
  rw [hfirst, if_neg (by unfold Dma.sectorSize; omega), hsize, if_neg (by unfold Dma.pageSize; omega), hto] at ha
  simp only [Dma.controller, Dma.pageSize, Dma.sectorSize] at ha
  omega

end Storage
