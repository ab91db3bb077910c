import VoidFrame.Fs.BlockDevice

-- Partitions stay inside of their drives.

namespace BlockIo

open Function (update)

variable {s t : State} {d p : DeviceId} {lba b : UInt64} {count : UInt32} {success : Bool}

-- A drive, as its driver registers it.
structure Drive (s : State) (d : DeviceId) : Prop where
  type : (s.devices d).type ≠ .partition
  reads : (s.devices d).readBlocks = some .driver
  writes : (s.devices d).writeBlocks = some .driver

-- A partition, with a range of blocks of its parent that does not hold the master boot record.
structure Partition (s : State) (d p : DeviceId) : Prop where
  type : (s.devices d).type = .partition
  reads : (s.devices d).readBlocks = some .partition
  writes : (s.devices d).writeBlocks = some .partition
  parent : (s.devices d).parent = some p
  lt : p < s.nextDeviceId
  drive : Drive s p
  offset : 0 < (s.devices d).lbaOffset.toNat
  fits : (s.devices d).lbaOffset.toNat + (s.devices d).totalBlocks.toNat ≤ (s.devices p).totalBlocks.toNat

structure Registered (s : State) : Prop where
  bound : s.nextDeviceId ≤ maxBlockDevices
  ids : ∀ d : DeviceId, d < s.nextDeviceId → (s.devices d).id = d
  kinds : ∀ d : DeviceId, d < s.nextDeviceId → Drive s d ∨ ∃ p, Partition s d p

-- The devices that are registered stay as they are.
structure Extends (s t : State) : Prop where
  next : s.nextDeviceId ≤ t.nextDeviceId
  devices : ∀ d : DeviceId, d < s.nextDeviceId → t.devices d = s.devices d

lemma Drive.extend (h : Drive s d) (hd : d < s.nextDeviceId) (he : Extends s t) : Drive t d := by
  have hsame := he.devices d hd
  exact ⟨hsame ▸ h.type, hsame ▸ h.reads, hsame ▸ h.writes⟩

lemma Partition.extend (h : Partition s d p) (hd : d < s.nextDeviceId) (he : Extends s t) : Partition t d p := by
  have hsame := he.devices d hd
  have hparent := he.devices p h.lt
  exact ⟨hsame ▸ h.type, hsame ▸ h.reads, hsame ▸ h.writes, hsame ▸ h.parent, h.lt.trans_le he.next,
    h.drive.extend h.lt he, hsame ▸ h.offset, hsame ▸ hparent ▸ h.fits⟩

lemma Registered.add (h : Registered s) (hn : s.nextDeviceId < maxBlockDevices)
    (hid : dev.id = s.nextDeviceId) (hk : ∀ t, Extends s t → t.devices ⟨s.nextDeviceId, hn⟩ = dev →
      Drive t ⟨s.nextDeviceId, hn⟩ ∨ ∃ p, Partition t ⟨s.nextDeviceId, hn⟩ p) : Registered { s with
      devices := update s.devices ⟨s.nextDeviceId, hn⟩ dev
      nextDeviceId := s.nextDeviceId + 1 } ∧
    Extends s { s with
      devices := update s.devices ⟨s.nextDeviceId, hn⟩ dev
      nextDeviceId := s.nextDeviceId + 1 } := by
  have hne {d : DeviceId} (hd : d < s.nextDeviceId) : d ≠ ⟨s.nextDeviceId, hn⟩ := by
    rintro rfl
    exact lt_irrefl _ hd
  have he : Extends s { s with
      devices := update s.devices ⟨s.nextDeviceId, hn⟩ dev
      nextDeviceId := s.nextDeviceId + 1 } :=
    ⟨Nat.le_succ _, fun d hd => Function.update_of_ne (hne hd) ..⟩
  have hself : update s.devices ⟨s.nextDeviceId, hn⟩ dev ⟨s.nextDeviceId, hn⟩ = dev := Function.update_self ..
  refine ⟨⟨hn, fun d hd => ?_, fun d hd => ?_⟩, he⟩
  · obtain hd | hd := Nat.lt_succ_iff_lt_or_eq.mp hd
    · rw [he.devices d hd]
      exact h.ids d hd
    · obtain rfl : d = ⟨s.nextDeviceId, hn⟩ := Fin.ext hd
      exact (congrArg BlockDevice.id hself).trans hid
  · obtain hd | hd := Nat.lt_succ_iff_lt_or_eq.mp hd
    · obtain hdrive | ⟨p, hp⟩ := h.kinds d hd
      · exact .inl (hdrive.extend hd he)
      · exact .inr ⟨p, hp.extend hd he⟩
    · obtain rfl : d = ⟨s.nextDeviceId, hn⟩ := Fin.ext hd
      exact hk _ he hself

def PartitionEntry.Used (e : PartitionEntry) : Prop :=
  e.type ≠ 0 ∧ 0 < e.numSectors

instance (e : PartitionEntry) : Decidable e.Used :=
  inferInstanceAs (Decidable (_ ∧ _))

-- An entry of the table that is used lies on the drive, behind the master boot record.
def Fits (s : State) (drive : DeviceId) (e : PartitionEntry) : Prop :=
  e.Used → e.lbaStart ≠ 0 ∧ e.lbaStart.toNat + e.numSectors.toNat ≤ (s.devices drive).totalBlocks.toNat

lemma Registered.registerPartition (h : Registered s) (hd : d < s.nextDeviceId)
    (hdrive : Drive s d) (hf : s.nextDeviceId < maxBlockDevices → Fits s d (partitionEntry mbr i)) :
    Registered (registerPartition d mbr s i) ∧ Extends s (registerPartition d mbr s i) ∧
      ((registerPartition d mbr s i).nextDeviceId < maxBlockDevices → (partitionEntry mbr i).Used →
        s.nextDeviceId < (registerPartition d mbr s i).nextDeviceId) := by
  unfold BlockIo.registerPartition
  dsimp only
  split
  case isFalse hentry => exact ⟨h, ⟨le_rfl, fun _ _ => rfl⟩, fun _ hu => absurd hu hentry⟩
  case isTrue hentry =>
    unfold blockDeviceRegister
    by_cases hn : s.nextDeviceId < maxBlockDevices
    case neg =>
      rw [dif_neg hn]
      exact ⟨h, ⟨le_rfl, fun _ _ => rfl⟩, fun hlt => absurd hlt hn⟩
    obtain ⟨hstart, hle⟩ := hf hn hentry
    rw [dif_pos hn]
    dsimp only
    rw [Function.update_self, Function.update_idem]
    refine and_assoc.mp ⟨h.add hn rfl fun t he ht => .inr ⟨d, ?_⟩, fun _ _ => Nat.lt_succ_self _⟩
    have hpos : 0 < (partitionEntry mbr i).lbaStart.toNat :=
      Nat.pos_of_ne_zero fun hz => hstart (UInt32.toNat_inj.mp hz)
    refine ⟨by rw [ht], by rw [ht], by rw [ht], by rw [ht], hd.trans_le he.next, hdrive.extend hd he, ?_, ?_⟩
    · rw [ht]
      exact hpos
    · rw [ht, he.devices d hd]
      exact hle

-- The used entries before an entry.
def usedBefore (mbr : Block) (l : List Nat) : Nat :=
  l.countP fun i => (partitionEntry mbr i).Used

lemma Registered.foldl (h : Registered s) (hd : d < s.nextDeviceId)
    (hdrive : Drive s d) (hf : ∀ xs i ys, l = xs ++ i :: ys →
      s.nextDeviceId + usedBefore mbr xs < maxBlockDevices → Fits s d (partitionEntry mbr i)) :
    Registered (l.foldl (BlockIo.registerPartition d mbr) s) := by
  induction l generalizing s
  case nil => exact h
  case cons i l ih =>
    obtain ⟨hreg, he, hnext⟩ := h.registerPartition hd hdrive fun hn => hf [] i l rfl hn
    refine ih hreg (hd.trans_le he.next) (hdrive.extend hd he) fun xs j ys hl hlt => ?_
    unfold Fits
    rw [he.devices d hd]
    refine hf (i :: xs) j ys (by rw [hl, List.cons_append]) ?_
    unfold usedBefore at hlt ⊢
    rw [List.countP_cons]
    have hle := he.next
    split
    case isTrue hu =>
      have := hnext (Nat.lt_of_le_of_lt (Nat.le_add_right ..) hlt) (by simpa using hu)
      omega
    case isFalse => omega

section

variable {func : BlockDevice → Option Func}

lemma target_drive (h : func (s.devices d) = some .driver) :
    target s func (fuel + 1) d lba = .ok (some (d, lba)) := by
  rw [target, h]
  rfl

lemma target_partition (h : func (s.devices d) = some .partition)
    (hp : (s.devices d).parent = some p) (hdrive : func (s.devices p) = some .driver) :
    target s func (fuel + 2) d lba = .ok (some (p, (s.devices d).lbaOffset + lba)) := by
  rw [target, h]
  dsimp only
  rw [hp]
  exact target_drive hdrive

-- Both functions of a device are of one kind.
structure Selects (func : BlockDevice → Option Func) : Prop where
  drive : ∀ {s d}, Drive s d → func (s.devices d) = some .driver
  partition : ∀ {s d p}, Partition s d p → func (s.devices d) = some .partition

lemma selects_readBlocks : Selects BlockDevice.readBlocks :=
  ⟨Drive.reads, Partition.reads⟩

lemma selects_writeBlocks : Selects BlockDevice.writeBlocks :=
  ⟨Drive.writes, Partition.writes⟩

lemma blockDeviceGet_eq_some {id : Int} (h : blockDeviceGet s id = some d) :
    d < s.nextDeviceId ∧ id = d := by
  unfold blockDeviceGet at h
  split at h
  case isTrue => cases h
  case isFalse hn =>
    dsimp only at h
    split at h
    case isFalse => cases h
    cases h
    dsimp only
    omega

lemma Registered.transfer (h : Registered s) (hf : Selects func) (id : Int) (lba : UInt64) (count : UInt32)
    (success : Bool) : ∃ r, transfer s func id lba count success = .ok r ∧
      ∀ a, r = some a → success = true ∧ a.count = count ∧ ∃ d : DeviceId, id = d ∧
        (Drive s d ∧ a.drive = d ∧ a.lba = lba ∨
          Partition s d a.drive ∧ a.lba = (s.devices d).lbaOffset + lba) := by
  unfold BlockIo.transfer
  rcases hget : blockDeviceGet s id with _ | d
  · exact ⟨none, rfl, nofun⟩
  obtain ⟨hd, hid⟩ := blockDeviceGet_eq_some hget
  dsimp only
  obtain hdrive | ⟨p, hp⟩ := h.kinds d hd
  · rw [hf.drive hdrive, target_drive (hf.drive hdrive)]
    refine ⟨_, rfl, fun a ha => ?_⟩
    cases success
    case false => cases ha
    cases ha
    exact ⟨rfl, rfl, d, hid, .inl ⟨hdrive, rfl, rfl⟩⟩
  · rw [hf.partition hp, target_partition (hf.partition hp) hp.parent (hf.drive hp.drive)]
    refine ⟨_, rfl, fun a ha => ?_⟩
    cases success
    case false => cases ha
    cases ha
    exact ⟨rfl, rfl, d, hid, .inr ⟨hp, rfl⟩⟩

end

def Within (s : State) (d : DeviceId) (b : UInt64) : Prop :=
  (s.devices d).lbaOffset.toNat ≤ b.toNat ∧
    b.toNat < (s.devices d).lbaOffset.toNat + (s.devices d).totalBlocks.toNat

lemma Partition.within {a : Access} (h : Partition s d p)
    (hle : lba.toNat + count.toNat ≤ (s.devices d).totalBlocks.toNat)
    (ha : a.lba = (s.devices d).lbaOffset + lba) (hc : a.count = count) (hb : a.Covers b) : Within s d b := by
  have hfits := h.fits
  have hlt := (s.devices p).totalBlocks.toNat_lt
  have hblt := b.toNat_lt
  unfold Access.Covers at hb
  rw [ha, hc, UInt64.toNat_sub, UInt64.toNat_add] at hb
  unfold Within
  omega

-- The partitions that are registered lie on their drive, behind the master boot record.
def KeepsInside (s : State) (a : Action) : Prop :=
  Legal s a ∧ match a with
    | .detect drive alloc success =>
      let mbr := s.disks drive 0
      (s.devices drive).type ≠ .partition → alloc = true → success = true → bootSignature mbr = 0xAA55 →
        ∀ i < mbrPartitionCount, s.nextDeviceId + usedBefore mbr (List.range i) < maxBlockDevices →
          Fits s drive (partitionEntry mbr i)
    | _ => True

lemma range_eq_append (h : List.range n = xs ++ i :: ys) : xs = List.range i ∧ i < n := by
  have hlen := congrArg List.length h
  rw [List.length_range, List.length_append, List.length_cons] at hlen
  have hi : i = xs.length := by
    have hget := congrArg (·[xs.length]?) h
    simp only [List.getElem?_append_right le_rfl, Nat.sub_self, List.getElem?_cons_zero] at hget
    rw [List.getElem?_range (by omega)] at hget
    exact (Option.some.inj hget).symm
  refine ⟨?_, by omega⟩
  have htake := congrArg (List.take xs.length) h
  rw [List.take_left, List.take_range, Nat.min_eq_left (by omega)] at htake
  rw [hi]
  exact htake.symm

lemma Registered.detect (h : Registered s) (hs : KeepsInside s (.detect d alloc success))
    (ht : blockDeviceDetectAndRegisterPartitions s d alloc success = .ok t) : Registered t := by
  obtain ⟨hd, hok⟩ := hs
  have hd : d < s.nextDeviceId := hd
  unfold blockDeviceDetectAndRegisterPartitions at ht
  split at ht
  case isTrue =>
    cases ht
    exact h
  case isFalse htype =>
    have hdrive : Drive s d := (h.kinds d hd).resolve_right fun ⟨p, hp⟩ => htype hp.type
    unfold parseMBR at ht
    split at ht
    case isFalse =>
      cases ht
      exact h
    case isTrue halloc =>
      obtain ⟨data, hdata, ht⟩ := Except.of_bind ht
      obtain ⟨access, haccess, he⟩ := Except.of_bind hdata
      cases he
      obtain ⟨r, hr, hcall⟩ := h.transfer selects_readBlocks (s.devices d).id 0 1 success
      obtain rfl : r = access := Except.ok.inj (hr.symm.trans haccess)
      rcases r with _ | a
      · cases ht
        exact h
      obtain ⟨hsuccess, -, d', hid, hto⟩ := hcall a rfl
      rw [h.ids d hd] at hid
      obtain rfl : d = d' := Fin.ext (Int.ofNat_inj.mp hid)
      obtain ⟨-, hdrv, hlba⟩ | ⟨hp, -⟩ := hto
      case inr => exact absurd hp.type htype
      have hmbr : s.disks a.drive (a.lba + UInt64.ofNat 0) = s.disks d 0 := by
        rw [hdrv, hlba]
        rfl
      simp only [Option.map_some, hmbr] at ht
      split at ht
      case isTrue =>
        cases ht
        exact h
      case isFalse hsig =>
        cases ht
        refine h.foldl hd hdrive fun xs i ys hl hn => ?_
        obtain ⟨rfl, hi⟩ := range_eq_append hl
        exact hok htype halloc hsuccess (not_not.mp hsig) i hi hn

lemma registered_congr (h : Registered s) (hd : t.devices = s.devices) (hn : t.nextDeviceId = s.nextDeviceId) :
    Registered t := by
  have he : Extends s t := ⟨hn.ge, fun d _ => by rw [hd]⟩
  refine ⟨hn ▸ h.bound, fun d hlt => ?_, fun d hlt => ?_⟩
  · rw [hd]
    exact h.ids d (hn ▸ hlt)
  · rw [hn] at hlt
    obtain hdrive | ⟨p, hp⟩ := h.kinds d hlt
    · exact .inl (hdrive.extend hlt he)
    · exact .inr ⟨p, hp.extend hlt he⟩

lemma blockDeviceWrite_devices {id : Int} {data : Nat → Block} {r : Option Access × State}
    (h : blockDeviceWrite s id lba count data success = .ok r) :
    r.2.devices = s.devices ∧ r.2.nextDeviceId = s.nextDeviceId := by
  obtain ⟨a, -, ha⟩ := Except.of_bind h
  cases a
  all_goals
    cases ha
    exact ⟨rfl, rfl⟩

lemma Registered.step {a : Action} (h : Registered s) (ha : KeepsInside s a) (ht : step s a = .ok t) :
    Registered t := by
  cases a
  case init =>
    cases ht
    exact ⟨Nat.zero_le _, fun d hd => absurd hd (Nat.not_lt_zero _), fun d hd => absurd hd (Nat.not_lt_zero _)⟩
  case register type blockSize totalBlocks name =>
    obtain ⟨htype, -⟩ := ha
    cases ht
    unfold blockDeviceRegister
    by_cases hn : s.nextDeviceId < maxBlockDevices
    case neg =>
      rw [dif_neg hn]
      exact h
    rw [dif_pos hn]
    refine (h.add hn rfl fun t he ht => .inl ?_).1
    exact ⟨by rw [ht]; exact htype, by rw [ht], by rw [ht]⟩
  case detect d alloc success => exact h.detect ha ht
  case read =>
    obtain ⟨r, -, hr⟩ := Except.of_bind ht
    cases hr
    exact h
  case write id lba count data success =>
    obtain ⟨r, hr, rfl⟩ := Except.of_map ht
    obtain ⟨hd, hn⟩ := blockDeviceWrite_devices hr
    exact registered_congr h hd hn

lemma Run.registered (h : Run KeepsInside s) : Registered s := by
  refine Machine.Run.invariant h ?_ fun hs ha ht => hs.step ha ht
  rintro - ⟨disks, rfl⟩
  exact ⟨Nat.zero_le _, fun d hd => absurd hd (Nat.not_lt_zero _), fun d hd => absurd hd (Nat.not_lt_zero _)⟩

-- What a transfer through a partition accesses.
structure Confined (s : State) (d : DeviceId) (a : Access) : Prop where
  drive : (s.devices d).parent = some a.drive
  within : ∀ b, a.Covers b → Within s d b

lemma Registered.confined (h : Registered s) (hf : Selects func)
    (success : Bool) (htype : (s.devices d).type = .partition)
    (hle : lba.toNat + count.toNat ≤ (s.devices d).totalBlocks.toNat) : ∃ r,
      BlockIo.transfer s func d lba count success = .ok r ∧ ∀ a, r = some a → Confined s d a := by
  obtain ⟨r, hr, hcall⟩ := h.transfer hf d lba count success
  refine ⟨r, hr, fun a ha => ?_⟩
  obtain ⟨-, hc, d', hid, hto⟩ := hcall a ha
  obtain rfl : d = d' := Fin.ext (Int.ofNat_inj.mp hid)
  obtain ⟨hdrive, -⟩ | ⟨hp, hlba⟩ := hto
  · exact absurd htype hdrive.type
  · exact ⟨hp.parent, fun b hb => hp.within hle hlba hc hb⟩

lemma store_disks (h : ¬(q = a.drive ∧ a.Covers b)) :
    (s.store a data).disks q b = s.disks q b := by
  unfold State.store
  by_cases hq : q = a.drive
  · subst hq
    dsimp only
    rw [Function.update_self, if_neg fun hb => h ⟨rfl, hb⟩]
  · exact congrFun (Function.update_of_ne hq ..) b

lemma Registered.write (h : Registered s) (data : Nat → Block) (success : Bool)
    (htype : (s.devices d).type = .partition)
    (hle : lba.toNat + count.toNat ≤ (s.devices d).totalBlocks.toNat) : ∃ r t,
      blockDeviceWrite s d lba count data success = .ok (r, t) ∧ (∀ a, r = some a → Confined s d a) ∧
      ∀ q b, ¬((s.devices d).parent = some q ∧ Within s d b) → t.disks q b = s.disks q b := by
  obtain ⟨r, hr, hc⟩ := h.confined selects_writeBlocks success htype hle
  unfold blockDeviceWrite
  rw [hr]
  rcases r with _ | a
  · exact ⟨none, s, rfl, nofun, fun _ _ _ => rfl⟩
  refine ⟨some a, s.store a data, rfl, hc, fun q b hb => store_disks fun hcov => hb ?_⟩
  obtain ⟨rfl, hcov⟩ := hcov
  exact ⟨(hc a rfl).drive, (hc a rfl).within b hcov⟩

-- Every partition lies on its parent, and transfers that lie in a partition access no other blocks.
theorem Run.partitions_confined (h : Run KeepsInside s) (hd : d < s.nextDeviceId)
    (htype : (s.devices d).type = .partition) :
    (∃ p, (s.devices d).parent = some p ∧
      (s.devices d).lbaOffset.toNat + (s.devices d).totalBlocks.toNat ≤ (s.devices p).totalBlocks.toNat) ∧
    (lba.toNat + count.toNat ≤ (s.devices d).totalBlocks.toNat →
      (∃ r, blockDeviceRead s d lba count success = .ok r ∧ ∀ a data, r = some (a, data) → Confined s d a) ∧
      ∀ data, ∃ r t, blockDeviceWrite s d lba count data success = .ok (r, t) ∧
        (∀ a, r = some a → Confined s d a) ∧ (∀ q, t.disks q 0 = s.disks q 0) ∧
        ∀ d' q, (s.devices d').parent = some q →
          (∀ b, Within s d' b → ¬((s.devices d).parent = some q ∧ Within s d b)) →
          ∀ b, Within s d' b → t.disks q b = s.disks q b) := by
  have hreg := Run.registered h
  obtain hdrive | ⟨p, hp⟩ := hreg.kinds d hd
  case inl => exact absurd htype hdrive.type
  refine ⟨⟨p, hp.parent, hp.fits⟩, fun hle => ⟨?_, fun data => ?_⟩⟩
  · obtain ⟨r, hr, hc⟩ := hreg.confined selects_readBlocks success htype hle
    unfold blockDeviceRead
    rw [hr]
    refine ⟨_, rfl, fun a data ha => ?_⟩
    obtain ⟨a', ha', he⟩ := Option.map_eq_some_iff.mp ha
    cases he
    exact hc a ha'
  · obtain ⟨r, t, ht, hc, hframe⟩ := hreg.write data success htype hle
    refine ⟨r, t, ht, hc, fun q => hframe q 0 fun hw => ?_, fun d' q hq hapart b hb => hframe q b (hapart b hb)⟩
    exact absurd hw.2.1 (Nat.not_le_of_lt hp.offset)

instance (s : State) : (a : Action) → Decidable (KeepsInside s a)
  | .detect drive _ _ => inferInstanceAs (Decidable (drive < s.nextDeviceId ∧ (_ → _ → _ → _ →
    ∀ i < mbrPartitionCount, _ → ((partitionEntry (s.disks drive 0) i).Used → _ ∧ _))))
  | .register type _ _ _ => inferInstanceAs (Decidable (type ≠ .partition ∧ True))
  | .init => inferInstanceAs (Decidable (True ∧ True))
  | .read _ _ _ _ => inferInstanceAs (Decidable (True ∧ True))
  | .write _ _ _ _ _ => inferInstanceAs (Decidable (True ∧ True))

-- A drive whose master boot record has one entry.
def tableOf (lbaStart numSectors : UInt8) : DeviceId → UInt64 → Block :=
  fun _ lba i =>
    if lba ≠ 0 then 0
    else if i = 450 then 0x83
    else if i = 454 then lbaStart
    else if i = 458 then numSectors
    else if i = 510 then 0x55
    else if i = 511 then 0xAA
    else 0

theorem Run.partitions_confined_read : ∃ s : State, (s.devices 1).name = .ofChars ['a', '-', 'p', '1'] ∧
    ∃ a data, blockDeviceRead s 1 3 2 true = .ok (some (a, data)) ∧ Confined s 1 a := by
  obtain ⟨s, hs, hname, hn, htype, htotal, hread⟩ :=
    (Machine.Run.init ⟨tableOf 10 20, rfl⟩ : Run KeepsInside { disks := tableOf 10 20 }).exists_of_all
    (l := [.register .ide 512 100 (.ofChars ['a']), .detect 0 true true])
    (P := fun s => (s.devices 1).name = .ofChars ['a', '-', 'p', '1'] ∧ s.nextDeviceId = 2 ∧
      (s.devices 1).type = .partition ∧ (s.devices 1).totalBlocks = 20 ∧
      (blockDeviceRead s 1 3 2 true).toOption.any Option.isSome) (by decide +kernel)
  obtain ⟨⟨r, hr, hc⟩, -⟩ := (@Run.partitions_confined s 1 3 2 true hs (by rw [hn]; decide) htype).2
    (by rw [htotal]; decide)
  refine ⟨s, hname, ?_⟩
  rw [show ((1 : DeviceId) : Int) = 1 from rfl] at hr
  rw [hr] at hread
  cases r
  case none => cases hread
  case some r => exact ⟨r.1, r.2, hr, hc r.1 r.2 rfl⟩

instance (s : State) : (a : Action) → Decidable (Legal s a)
  | .register type _ _ _ => inferInstanceAs (Decidable (type ≠ .partition))
  | .detect drive _ _ => inferInstanceAs (Decidable (drive < s.nextDeviceId))
  | .init | .read _ _ _ _ | .write _ _ _ _ _ => isTrue trivial

instance (s : State) (d : DeviceId) (b : UInt64) : Decidable (Within s d b) :=
  inferInstanceAs (Decidable (_ ∧ _))

-- A block behind the partition is written through it, and a partition is larger than its drive.
theorem partition_escapes :
    (∃ s, Run Legal s ∧ ((s.devices 1).type = .partition ∧ ¬Within s 1 25) ∧
      ∃ a t, blockDeviceWrite s 1 15 1 (fun _ _ => 7) true = .ok (some a, t) ∧ t.disks 0 25 0 = 7) ∧
    ∃ s, Run Legal s ∧ (s.devices 1).type = .partition ∧ (s.devices 1).parent = some 0 ∧
      (s.devices 0).totalBlocks.toNat < (s.devices 1).lbaOffset.toNat + (s.devices 1).totalBlocks.toNat := by
  constructor
  · obtain ⟨s, hs, hw, hwrite⟩ :=
      (Machine.Run.init ⟨tableOf 10 10, rfl⟩ : Run Legal { disks := tableOf 10 10 }).exists_of_all
      (l := [.register .ide 512 100 (.ofChars ['a']), .detect 0 true true])
      (P := fun s => ((s.devices 1).type = .partition ∧ ¬Within s 1 25) ∧
        (blockDeviceWrite s 1 15 1 (fun _ _ => 7) true).toOption.any fun r => r.1.isSome && r.2.disks 0 25 0 = 7)
      (by decide +kernel)
    refine ⟨s, hs, hw, ?_⟩
    cases hr : blockDeviceWrite s 1 15 1 (fun _ _ => 7) true
    case error e => simp [hr, Except.toOption] at hwrite
    case ok r =>
      obtain ⟨_ | a, t⟩ := r
      · simp [hr, Except.toOption] at hwrite
      · exact ⟨a, t, rfl, by simpa [hr, Except.toOption] using hwrite⟩
  · exact (Machine.Run.init ⟨tableOf 90 20, rfl⟩ : Run Legal { disks := tableOf 90 20 }).exists_of_all
      (l := [.register .ide 512 100 (.ofChars ['a']), .detect 0 true true])
      (P := fun s => (s.devices 1).type = .partition ∧ (s.devices 1).parent = some 0 ∧
        (s.devices 0).totalBlocks.toNat < (s.devices 1).lbaOffset.toNat + (s.devices 1).totalBlocks.toNat)
      (by decide +kernel)

end BlockIo
