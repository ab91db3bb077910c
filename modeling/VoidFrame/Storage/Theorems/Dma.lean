import VoidFrame.Storage.Dma

-- A device accesses the buffer of its caller, and nothing else.

namespace Dma

variable {pt : PageTable} {buffer n i : Nat} {c c' : Controller} {cmd : Command}

def Mapped (pt : PageTable) (buffer n : Nat) : Prop :=
  ∀ i < n, (translate pt (buffer + i)).isSome

def Contiguous (pt : PageTable) (buffer n : Nat) : Prop :=
  ∀ i < n, vmemGetPhysAddr pt (buffer + i) = vmemGetPhysAddr pt buffer + i

lemma Contiguous.bufferBytes (h : Contiguous pt buffer n) :
    bufferBytes pt buffer n = (List.range n).map (vmemGetPhysAddr pt buffer + ·) :=
  List.map_congr_left fun i hi => h i (List.mem_range.mp hi)

lemma vmemGetPhysAddr_mod (h : (translate pt buffer).isSome) :
    vmemGetPhysAddr pt buffer % pageSize = buffer % pageSize := by
  unfold vmemGetPhysAddr translate at *
  rcases hf : pt (buffer / pageSize) with _ | f
  · rw [hf] at h; cases h
  simp only [Option.map_some, Option.getD_some]
  rw [Nat.mul_add_mod', Nat.mod_mod]

lemma bytesInFirstPage_phys (hm : Mapped pt buffer n) (hn : 0 < n) :
    bytesInFirstPage (vmemGetPhysAddr pt buffer) = bytesInFirstPage buffer :=
  congrArg (pageSize - ·) (vmemGetPhysAddr_mod (hm 0 hn))

lemma vmemGetPhysAddr_add (h : (translate pt buffer).isSome) (hi : buffer % pageSize + i < pageSize) :
    vmemGetPhysAddr pt (buffer + i) = vmemGetPhysAddr pt buffer + i := by
  have hdiv : (buffer + i) / pageSize = buffer / pageSize := by
    unfold pageSize at *
    omega
  have hmod : (buffer + i) % pageSize = buffer % pageSize + i := by
    unfold pageSize at *
    omega
  unfold vmemGetPhysAddr translate at *
  rw [hdiv, hmod]
  rcases hf : pt (buffer / pageSize) with _ | f
  · rw [hf] at h; cases h
  simp only [Option.map_some, Option.getD_some]
  omega

lemma writeList_memory (hk : k < n) :
    (c.writeList current n).memory (c.prpListPhys + 8 * k) = current + k * pageSize := by
  unfold Controller.writeList
  dsimp only
  rw [if_pos (by omega)]
  congr 2
  omega

lemma size_eq {count : UInt16} (h : count ≠ 0) (prp1 prp2 : Nat) :
    ({ prp1, prp2, cdw12 := count.toUInt32 - 1 } : Command).size = count.toNat * sectorSize := by
  have hpos : 0 < count.toNat := Nat.pos_of_ne_zero fun h0 => h (UInt16.toNat_inj.mp h0)
  have hlt := count.toNat_lt
  have hsub : (count.toUInt32 - 1).toNat = count.toNat - 1 := by
    rw [UInt32.toNat_sub_of_le _ _ (UInt32.le_iff_toNat_le.mpr (by simpa using Nat.succ_le_of_lt hpos))]
    simp
  unfold Command.size
  rw [hsub, Nat.mod_eq_of_lt (by omega), Nat.sub_add_cancel hpos]

-- The transfer lies in one page, or it has more than two pages whose frames follow each other.
structure PrpSafe (pt : PageTable) (count : UInt16) (buffer : Nat) : Prop where
  ne : count ≠ 0
  pages : count.toNat * sectorSize ≤ bytesInFirstPage buffer ∨
    bytesInFirstPage buffer + pageSize < count.toNat * sectorSize ∧
      Contiguous pt buffer (count.toNat * sectorSize)

lemma bytes_eq_of_le (hp : cmd.prp1 = phys) (hs : cmd.size ≤ bytesInFirstPage phys) :
    cmd.bytes memory = (List.range cmd.size).map (phys + ·) := by
  refine List.map_congr_left fun i hi => ?_
  unfold Command.address
  dsimp only
  rw [hp, if_pos (Nat.lt_of_lt_of_le (List.mem_range.mp hi) hs)]

lemma bytes_eq_of_list (hp : cmd.prp1 = phys) (hs : bytesInFirstPage phys + pageSize < cmd.size)
    (hl : ∀ k < numPrpEntries phys cmd.size,
      memory (cmd.prp2 + 8 * k) = phys + bytesInFirstPage phys + k * pageSize) :
    cmd.bytes memory = (List.range cmd.size).map (phys + ·) := by
  refine List.map_congr_left fun i hi => ?_
  have hi' := List.mem_range.mp hi
  unfold Command.address
  dsimp only
  rw [hp, if_neg (not_le.mpr hs)]
  split
  case isTrue => rfl
  case isFalse hge =>
    have hk : (i - bytesInFirstPage phys) / pageSize < numPrpEntries phys cmd.size := by
      unfold numPrpEntries
      rw [if_neg (by omega)]
      unfold pageSize at *
      omega
    rw [hl _ hk]
    unfold pageSize at *
    omega

lemma nvmeCommand_exact {count : UInt16} (hm : Mapped pt buffer (count.toNat * sectorSize))
    (hs : PrpSafe pt count buffer) (h : nvmeCommand c pt count buffer = some (cmd, c')) :
    cmd.bytes c'.memory = bufferBytes pt buffer (count.toNat * sectorSize) := by
  have hpos : 0 < count.toNat * sectorSize :=
    Nat.mul_pos (Nat.pos_of_ne_zero fun h0 => hs.ne (UInt16.toNat_inj.mp h0)) (by decide)
  have hmap : (translate pt buffer).isSome := hm 0 hpos
  have hfirst := bytesInFirstPage_phys hm hpos
  obtain ⟨⟨n, c''⟩, hn, hc⟩ := Option.bind_eq_some_iff.mp h
  cases hc
  have hsize := size_eq hs.ne (vmemGetPhysAddr pt buffer) (if 0 < n then c'.prpListPhys else 0)
  cases hs.pages
  case inl hle =>
    rw [bytes_eq_of_le rfl (by rw [hsize, hfirst]; exact hle), hsize]
    refine List.map_congr_left fun i hi => (vmemGetPhysAddr_add hmap ?_).symm
    have hi' := Nat.lt_of_lt_of_le (List.mem_range.mp hi) hle
    unfold bytesInFirstPage at hi'
    omega
  case inr hlong =>
    unfold nvmeSetupPrpList at hn
    have hne : numPrpEntries (vmemGetPhysAddr pt buffer) (count.toNat * sectorSize) ≠ 0 := by
      unfold numPrpEntries
      rw [hfirst, if_neg (by omega)]
      have := hlong.1
      unfold pageSize at *
      omega
    dsimp only at hn
    rw [if_neg hne] at hn
    split at hn
    case isTrue => cases hn
    cases hn
    rw [bytes_eq_of_list rfl (by rw [hsize, hfirst]; exact hlong.1), hsize, hlong.2.bufferBytes]
    intro k hk
    rw [hsize] at hk
    dsimp only
    rw [if_pos (Nat.pos_of_ne_zero hne)]
    exact writeList_memory hk

-- There are more pages than the PRP list has entries.
def TooLong (count : UInt16) (buffer : Nat) : Prop :=
  bytesInFirstPage buffer + prpListEntries * pageSize < count.toNat * sectorSize

lemma numPrpEntries_le (h : ¬TooLong count buffer) (hf : bytesInFirstPage phys = bytesInFirstPage buffer) :
    numPrpEntries phys (count.toNat * sectorSize) ≤ prpListEntries := by
  unfold TooLong at h
  unfold numPrpEntries
  rw [hf]
  split
  · exact Nat.zero_le _
  · unfold prpListEntries pageSize at *
    omega

lemma nvmeCommand_none {count : UInt16} (hm : Mapped pt buffer (count.toNat * sectorSize)) (h : TooLong count buffer) :
    nvmeCommand c pt count buffer = none := by
  unfold TooLong at h
  have hfirst := bytesInFirstPage_phys hm (Nat.zero_lt_of_lt h)
  have hn : prpListEntries < numPrpEntries (vmemGetPhysAddr pt buffer) (count.toNat * sectorSize) := by
    unfold numPrpEntries
    rw [hfirst, if_neg (by omega)]
    unfold prpListEntries pageSize at *
    omega
  unfold nvmeCommand nvmeSetupPrpList
  dsimp only
  rw [if_neg (by omega), if_pos hn]
  rfl

lemma nvmeCommand_some (h0 : numPrpEntries (vmemGetPhysAddr pt buffer) (count.toNat * sectorSize) ≠ 0)
    (hn : numPrpEntries (vmemGetPhysAddr pt buffer) (count.toNat * sectorSize) ≤ prpListEntries) (c : Controller) :
    nvmeCommand c pt count buffer = some (⟨vmemGetPhysAddr pt buffer, c.prpListPhys, count.toUInt32 - 1⟩,
      c.writeList (vmemGetPhysAddr pt buffer + bytesInFirstPage (vmemGetPhysAddr pt buffer))
        (numPrpEntries (vmemGetPhysAddr pt buffer) (count.toNat * sectorSize))) := by
  unfold nvmeCommand nvmeSetupPrpList
  dsimp only
  rw [if_neg h0, if_neg (by omega)]
  exact congrArg (fun prp2 => some (Command.mk _ prp2 _, _)) (if_pos (Nat.pos_of_ne_zero h0))

-- A list of addresses that begin at the first byte is that of the buffer only if its frames follow each other.
lemma contiguous_of_eq (h : (List.range n).map (vmemGetPhysAddr pt buffer + ·) = bufferBytes pt buffer n) :
    Contiguous pt buffer n :=
  fun i hi => (List.map_inj_left.mp h i (List.mem_range.mpr hi)).symm

lemma prpSafe_of_exact {count : UInt16} (hm : Mapped pt buffer (count.toNat * sectorSize)) (hn : ¬TooLong count buffer)
    (h : ∀ c cmd c', nvmeCommand c pt count buffer = some (cmd, c') →
      cmd.bytes c'.memory = bufferBytes pt buffer (count.toNat * sectorSize)) : PrpSafe pt count buffer := by
  have hne : count ≠ 0 := by
    rintro rfl
    have hl := congrArg List.length (h ⟨0, fun _ => 0⟩ ⟨vmemGetPhysAddr pt buffer, 0, 0 - 1⟩ ⟨0, fun _ => 0⟩
      (by simp [nvmeCommand, nvmeSetupPrpList, numPrpEntries]))
    simp [Command.bytes, Command.size, bufferBytes, sectorSize] at hl
  refine ⟨hne, or_iff_not_imp_left.mpr fun hlong => ?_⟩
  have hpos : 0 < count.toNat * sectorSize := by omega
  have hfirst := bytesInFirstPage_phys hm hpos
  have h0 : numPrpEntries (vmemGetPhysAddr pt buffer) (count.toNat * sectorSize) ≠ 0 := by
    unfold numPrpEntries
    rw [hfirst, if_neg hlong]
    unfold pageSize at *
    omega
  have hcmd := nvmeCommand_some h0 (numPrpEntries_le hn hfirst)
  by_cases h2 : bytesInFirstPage buffer + pageSize < count.toNat * sectorSize
  · refine ⟨h2, contiguous_of_eq ?_⟩
    have he := h _ _ _ (hcmd ⟨0, fun _ => 0⟩)
    rwa [bytes_eq_of_list rfl (by rw [size_eq hne, hfirst]; exact h2), size_eq hne] at he
    intro k hk
    rw [size_eq hne] at hk
    exact writeList_memory hk
  · -- the second page is taken for the one of the PRP list
    have he := h _ _ _ (hcmd ⟨vmemGetPhysAddr pt (buffer + bytesInFirstPage buffer) + 1, fun _ => 0⟩)
    unfold Command.bytes bufferBytes at he
    rw [size_eq hne] at he
    have ha := List.map_inj_left.mp he (bytesInFirstPage buffer) (List.mem_range.mpr (by omega))
    unfold Command.address at ha
    dsimp only at ha
    rw [hfirst, if_neg (lt_irrefl _), size_eq hne, if_pos (by omega)] at ha
    omega

-- The transfer fits into a region, and its frames follow each other.
structure PrdSafe (pt : PageTable) (count : UInt16) (buffer : Nat) : Prop where
  ne : count ≠ 0
  le : count.toNat * sectorSize ≤ 2 ^ 22
  contiguous : Contiguous pt buffer (count.toNat * sectorSize)

lemma ahciSendCommand_exact (hs : PrdSafe pt count buffer)
    (h : ahciSendCommand pt count buffer = some prd) :
    prd.bytes = bufferBytes pt buffer (count.toNat * sectorSize) := by
  have hpos : 0 < count.toNat := Nat.pos_of_ne_zero fun h0 => hs.ne (UInt16.toNat_inj.mp h0)
  have hle := hs.le
  unfold ahciSendCommand at h
  dsimp only at h
  split at h
  case isTrue => cases h
  cases h
  have hlen : (BitVec.ofInt 22 (count.toNat * sectorSize - 1)).toNat + 1 = count.toNat * sectorSize := by
    unfold sectorSize at *
    rw [BitVec.toNat_ofInt]
    omega
  unfold Prd.bytes
  rw [hlen, hs.contiguous.bufferBytes]

lemma prdSafe_of_exact {count : UInt16} (h0 : vmemGetPhysAddr pt buffer ≠ 0)
    (h : ∀ prd, ahciSendCommand pt count buffer = some prd →
      prd.bytes = bufferBytes pt buffer (count.toNat * sectorSize)) : PrdSafe pt count buffer := by
  have he := h _ (if_neg h0)
  have hl : (BitVec.ofInt 22 (count.toNat * sectorSize - 1)).toNat + 1 = count.toNat * sectorSize := by
    simpa [Prd.bytes, bufferBytes] using congrArg List.length he
  have hlt := (BitVec.ofInt 22 (count.toNat * sectorSize - 1)).isLt
  refine ⟨?_, by omega, contiguous_of_eq ?_⟩
  · rintro rfl
    exact absurd hl (by decide)
  · unfold Prd.bytes at he
    rwa [hl] at he

-- The length fits into a descriptor, and the frames follow each other.
structure DescSafe (pt : PageTable) (count : UInt32) (buffer : Nat) : Prop where
  lt : count.toNat * sectorSize < 2 ^ 32
  contiguous : Contiguous pt buffer (count.toNat * sectorSize)

lemma virtioBlkData_exact (hs : DescSafe pt count buffer) :
    (virtioBlkData pt count buffer).bytes = bufferBytes pt buffer (count.toNat * sectorSize) := by
  have hlen : (count * 512).toNat = count.toNat * sectorSize := by
    rw [UInt32.toNat_mul]
    exact Nat.mod_eq_of_lt hs.lt
  rw [hs.contiguous.bufferBytes, ← hlen]
  rfl

lemma descSafe_of_exact (h : (virtioBlkData pt count buffer).bytes =
    bufferBytes pt buffer (count.toNat * sectorSize)) : DescSafe pt count buffer := by
  have hl : (count * 512).toNat = count.toNat * sectorSize := by
    simpa [VirtqDesc.bytes, virtioBlkData, bufferBytes] using congrArg List.length h
  refine ⟨hl ▸ (count * 512).toNat_lt, contiguous_of_eq ?_⟩
  rw [← hl] at h ⊢
  exact h

-- Byte for byte and in order, each driver hands over the bytes of the buffer whatever its controller holds,
-- exactly if it refuses the request or the request is one of those that it can describe.
theorem transfers_exact (pt : PageTable) (buffer : Nat) :
    (∀ count : UInt16, Mapped pt buffer (count.toNat * sectorSize) →
      ((∀ c cmd c', nvmeReadSectors c pt count buffer = some (cmd, c') →
        cmd.bytes c'.memory = bufferBytes pt buffer (count.toNat * sectorSize)) ↔
      TooLong count buffer ∨ PrpSafe pt count buffer)) ∧
    (∀ count : UInt16, Mapped pt buffer (count.toNat * sectorSize) →
      ((∀ prd, ahciSendCommand pt count buffer = some prd →
        prd.bytes = bufferBytes pt buffer (count.toNat * sectorSize)) ↔
      vmemGetPhysAddr pt buffer = 0 ∨ PrdSafe pt count buffer)) ∧
    ∀ count : UInt32, Mapped pt buffer (count.toNat * sectorSize) →
      ((virtioBlkData pt count buffer).bytes = bufferBytes pt buffer (count.toNat * sectorSize) ↔
        DescSafe pt count buffer) := by
  refine ⟨fun count hm => ⟨fun h => ?_, ?_⟩, fun count _ => ⟨fun h => ?_, ?_⟩,
    fun count _ => ⟨descSafe_of_exact, virtioBlkData_exact⟩⟩
  · exact or_iff_not_imp_left.mpr fun hn => prpSafe_of_exact hm hn h
  · rintro (hn | hs) c cmd c' h
    · cases (nvmeCommand_none hm hn).symm.trans h
    · exact nvmeCommand_exact hm hs h
  · exact or_iff_not_imp_left.mpr fun h0 => prdSafe_of_exact h0 h
  · rintro (h0 | hs) prd h
    · cases (if_pos h0).symm.trans h
    · exact ahciSendCommand_exact hs h

lemma identity_mapped : Mapped some buffer n :=
  fun _ _ => rfl

lemma identity_contiguous : Contiguous some buffer n := by
  have hid (vaddr : Nat) : vmemGetPhysAddr some vaddr = vaddr := Nat.div_add_mod' vaddr pageSize
  intro i _
  rw [hid, hid]

-- Three pages of the identity map.
theorem transfers_exact_identity :
    (∀ c cmd c', nvmeReadSectors c some 24 4096 = some (cmd, c') →
      cmd.bytes c'.memory = bufferBytes some 4096 12288) ∧
    (∀ prd, ahciSendCommand some 24 4096 = some prd → prd.bytes = bufferBytes some 4096 12288) ∧
    (virtioBlkData some 24 4096).bytes = bufferBytes some 4096 12288 := by
  obtain ⟨hnvme, hahci, hvirtio⟩ := transfers_exact some 4096
  exact ⟨(hnvme 24 identity_mapped).mpr (.inr ⟨by decide, .inr ⟨by decide, identity_contiguous⟩⟩),
    (hahci 24 identity_mapped).mpr (.inr ⟨by decide, by decide, identity_contiguous⟩),
    (hvirtio 24 identity_mapped).mpr ⟨by decide, identity_contiguous⟩⟩

-- The first page has frame `5`, the others frame `9`.
def scattered : PageTable :=
  fun page => some (if page = 0 then 5 else 9)

def controller : Controller where
  prpListPhys := 0x7000
  memory _ := 0

-- The two sectors lie in two pages: the second one is transferred to the PRP list, or to the frame
-- after the first.
theorem buffer_missed :
    (bufferBytes scattered 3584 1024)[512]? = some 36864 ∧
    ((nvmeReadSectors controller scattered 2 3584).map fun r => (r.1.bytes r.2.memory)[512]?) =
      some (some 0x7000) ∧
    ((ahciSendCommand scattered 2 3584).map fun prd => prd.bytes[512]?) = some (some 24576) ∧
    (virtioBlkData scattered 2 3584).bytes[512]? = some 24576 := by
  decide +kernel

end Dma
