import VoidFrame.Fs.NTFS.Volume

-- A record is written back to the sectors that it was read from, if it has the size that the writing
-- functions take for granted.

namespace NTFS

open Bytes (u16 u32 u64)

variable {rec rec' : Memory} {x y e e' type a a₀ f fuel fuel' : Nat}

-- The contents of `[x, y)` may differ.
def Agree (rec rec' : Memory) (x y : Nat) : Prop :=
  ∀ i, i < x ∨ y ≤ i → rec' i = rec i

namespace Agree

variable {i : Nat}

lemma u16 (h : Agree rec rec' x y) (hi : i + 2 ≤ x ∨ y ≤ i) : Bytes.u16 rec' i = Bytes.u16 rec i := by
  unfold Bytes.u16
  rw [h i (by omega), h (i + 1) (by omega)]

lemma u32 (h : Agree rec rec' x y) (hi : i + 4 ≤ x ∨ y ≤ i) : Bytes.u32 rec' i = Bytes.u32 rec i := by
  unfold Bytes.u32
  rw [h.u16 (by omega), h.u16 (by omega)]

lemma u64 (h : Agree rec rec' x y) (hi : i + 8 ≤ x ∨ y ≤ i) : Bytes.u64 rec' i = Bytes.u64 rec i := by
  unfold Bytes.u64
  rw [h.u32 (by omega), h.u32 (by omega)]

lemma attr (h : Agree rec rec' x y) (ha : a + 22 ≤ x ∨ y ≤ a) :
    attrType rec' a = attrType rec a ∧ attrLength rec' a = attrLength rec a ∧
    nonResident rec' a = nonResident rec a ∧ valueLength rec' a = valueLength rec a ∧
    valueOffset rec' a = valueOffset rec a := by
  refine ⟨?_, ?_, ?_, ?_, ?_⟩
  · exact congrArg UInt32.toNat (h.u32 (by omega))
  · exact congrArg UInt32.toNat (h.u32 (by omega))
  · unfold nonResident
    rw [h (a + 8) (by omega)]
  · exact congrArg UInt32.toNat (h.u32 (by omega))
  · exact congrArg UInt16.toNat (h.u16 (by omega))

end Agree

lemma findAttr_succ (h : findAttr rec e type (fuel + 1) a₀ = some a) :
    a₀ < bytesInUse rec ∧ attrHeaderSize ≤ attrLength rec a₀ ∧ a₀ + attrLength rec a₀ ≤ e ∧
    ((attrType rec a₀ = type ∧ !nonResident rec a₀) ∧ a = a₀ ∨
      ¬(attrType rec a₀ = type ∧ !nonResident rec a₀) ∧
        findAttr rec e type fuel (a₀ + attrLength rec a₀) = some a) := by
  unfold findAttr at h
  split at h
  case isFalse => cases h
  case isTrue hin =>
    split at h
    case isTrue => cases h
    case isFalse hlen =>
      split at h
      case isTrue => cases h
      case isFalse hend =>
        refine ⟨hin.2, by omega, by omega, ?_⟩
        split at h
        case isTrue ht => exact .inl ⟨ht, (Option.some.inj h).symm⟩
        case isFalse ht => exact .inr ⟨ht, h⟩

lemma findAttr_le (h : findAttr rec e type fuel a₀ = some a) : a₀ ≤ a := by
  induction fuel generalizing a₀
  case zero => cases h
  case succ fuel ih =>
    obtain ⟨-, -, -, ⟨-, rfl⟩ | ⟨-, h⟩⟩ := findAttr_succ h
    · exact le_rfl
    · have := ih h
      omega

lemma findAttr_found (h : findAttr rec e type fuel a₀ = some a) :
    attrType rec a = type ∧ attrHeaderSize ≤ attrLength rec a ∧ a + attrLength rec a ≤ e := by
  induction fuel generalizing a₀
  case zero => cases h
  case succ fuel ih =>
    obtain ⟨-, hlen, hend, ⟨ht, rfl⟩ | ⟨-, h⟩⟩ := findAttr_succ h
    · exact ⟨ht.1, hlen, hend⟩
    · exact ih h

lemma findAttr_pass (hu : a₀ < bytesInUse rec) (hlen : attrHeaderSize ≤ attrLength rec a₀)
    (hend : a₀ + attrLength rec a₀ ≤ e) :
    findAttr rec e type (fuel + 1) a₀ =
      if attrType rec a₀ = type ∧ !nonResident rec a₀ then some a₀
      else findAttr rec e type fuel (a₀ + attrLength rec a₀) := by
  rw [findAttr, if_pos ⟨by omega, hu⟩, if_neg (by omega), if_neg (by omega)]

lemma findAttr_disjoint (hf : findAttr rec e type fuel a₀ = some f)
    (ha : findAttr rec e type' fuel' a₀ = some a) (hne : type ≠ type') :
    f + attrLength rec f ≤ a ∨ a + attrLength rec a ≤ f := by
  induction fuel generalizing a₀ fuel'
  case zero => cases hf
  case succ fuel ih =>
    rcases fuel' with _ | fuel'
    · cases ha
    obtain ⟨-, -, -, ⟨ht, rfl⟩ | ⟨-, hf⟩⟩ := findAttr_succ hf
    · obtain ⟨-, -, -, ⟨ht', rfl⟩ | ⟨-, ha⟩⟩ := findAttr_succ ha
      · exact absurd (ht.1.symm.trans ht'.1) hne
      · exact .inl (findAttr_le ha)
    · obtain ⟨-, -, -, ⟨ht', rfl⟩ | ⟨-, ha⟩⟩ := findAttr_succ ha
      · exact .inr (findAttr_le hf)
      · exact ih hf ha

section

variable (hag : Agree rec rec' x y) (hx : 28 ≤ x)
include hag hx

lemma bytesInUse_changed : bytesInUse rec' = bytesInUse rec :=
  congrArg UInt32.toNat (hag.u32 (.inl hx))

-- A change behind the header of the attribute that is found. The end of the record may differ, too.
lemma findAttr_some_changed (hax : a + 22 ≤ x) (h : findAttr rec e type fuel a₀ = some a)
    (he : a + attrLength rec a ≤ e') (hf : a < a₀ + attrHeaderSize * fuel') :
    findAttr rec' e' type fuel' a₀ = some a := by
  induction fuel generalizing a₀ fuel'
  case zero => cases h
  case succ fuel ih =>
    have hle := findAttr_le h
    obtain ⟨hu, hlen, -, hcase⟩ := findAttr_succ h
    rcases fuel' with _ | fuel'
    · omega
    unfold attrHeaderSize at hlen hf
    have hbefore : a₀ + 22 ≤ x ∧ a₀ + attrLength rec a₀ ≤ e' := by
      obtain ⟨-, rfl⟩ | ⟨-, h⟩ := hcase
      · exact ⟨hax, he⟩
      · have := findAttr_le h
        omega
    obtain ⟨htype, hlength, hres, -, -⟩ := hag.attr (.inl hbefore.1)
    rw [findAttr_pass (by rwa [bytesInUse_changed hag hx]) (by rwa [hlength])
      (by rw [hlength]; exact hbefore.2), htype, hlength, hres]
    obtain ⟨ht, rfl⟩ | ⟨ht, h⟩ := hcase
    · rw [if_pos ht]
    · rw [if_neg ht]
      exact ih h (by unfold attrHeaderSize; omega)

lemma findAttr_after (ha : y ≤ a₀) : findAttr rec' e type fuel a₀ = findAttr rec e type fuel a₀ := by
  induction fuel generalizing a₀
  case zero => rfl
  case succ fuel ih =>
    obtain ⟨htype, hlength, hres, -, -⟩ := hag.attr (.inr ha)
    rw [findAttr, findAttr, bytesInUse_changed hag hx, htype, hlength, hres]
    split
    case isFalse => rfl
    split
    case isTrue => rfl
    split
    case isTrue => rfl
    split
    · rfl
    · exact ih (by omega)

-- A change in the value of an attribute is not seen by any search.
lemma findAttr_changed (hax : a + 22 ≤ x) (hy : y ≤ a + attrLength rec a)
    (h : findAttr rec e type' fuel' a₀ = some a) :
    findAttr rec' e type fuel a₀ = findAttr rec e type fuel a₀ := by
  induction fuel generalizing a₀ fuel'
  case zero => rfl
  case succ fuel ih =>
    rcases fuel' with _ | fuel'
    · cases h
    obtain ⟨hu, hlen, hend, hcase⟩ := findAttr_succ h
    have hbefore : a₀ + 22 ≤ x := by
      have := findAttr_le h
      omega
    obtain ⟨htype, hlength, hres, -, -⟩ := hag.attr (.inl hbefore)
    rw [findAttr_pass hu hlen hend,
      findAttr_pass (by rwa [bytesInUse_changed hag hx]) (by rwa [hlength]) (by rwa [hlength]),
      htype, hlength, hres]
    split
    case isTrue => rfl
    obtain ⟨-, rfl⟩ | ⟨-, h⟩ := hcase
    · exact findAttr_after hag hx hy
    · exact ih h

end

-- The record has two sectors of at most 512 bytes, and the record `n` starts where 1024 bytes for each of
-- the records before it end.
structure Volume.Matches (v : Volume) (n : Nat) : Prop where
  block : v.blockSize = v.bytesPerSector
  size : v.mftRecordSize = 2 * v.bytesPerSector
  le : v.bytesPerSector ≤ 512
  start : n * 1024 / v.bytesPerSector = 2 * n

variable {boot : NtfsBootSector} {blockSize totalBlocks : Nat} {v : Volume} {heap disk : Memory} {n m : Nat}
  {path : CString} {data : List UInt8} {w : Volume.WriteBack}

lemma ntfsMount_bytesPerSector (h : ntfsMount boot blockSize totalBlocks = some v) :
    0 < v.bytesPerSector := by
  unfold ntfsMount at h
  dsimp only at h
  split at h
  case isTrue => cases h
  case isFalse hb =>
    split_ifs at h
    cases h
    exact Nat.pos_of_ne_zero fun h0 => hb (.inl h0)

def Volume.record (v : Volume) (heap disk : Memory) (n : Nat) : Memory := fun i =>
  if i < v.mftRecordSize then disk ((v.recordExtent n).lba * v.blockSize + i) else heap i

def Volume.overlay (v : Volume) (disk : Memory) (n : Nat) (rec : Memory) : Memory := fun a =>
  if (v.recordExtent n).lba * v.blockSize ≤ a ∧
    a < ((v.recordExtent n).lba + (v.recordExtent n).count) * v.blockSize then
    rec (a - (v.recordExtent n).lba * v.blockSize)
  else disk a

namespace Volume.Matches

lemma size_le (hg : v.Matches n) : v.mftRecordSize ≤ bufferSize := by
  have := hg.size
  have := hg.le
  unfold bufferSize
  omega

section

variable (hg : v.Matches n) (hb : 0 < v.bytesPerSector)
include hg hb

lemma recordExtent_eq (m : Nat) :
    v.recordExtent m = ⟨v.mftCluster * v.sectorsPerCluster + 2 * m, 2⟩ := by
  unfold recordExtent
  have hcount : (2 * v.bytesPerSector + v.bytesPerSector - 1) / v.bytesPerSector = 2 :=
    Nat.div_eq_of_lt_le (by omega) (by omega)
  rw [hg.size, hcount, ← Nat.mul_assoc, Nat.mul_div_cancel _ hb, Nat.mul_comm m 2]

lemma writeBackExtent_eq : v.writeBackExtent n = v.recordExtent n := by
  rw [hg.recordExtent_eq hb, writeBackExtent, hg.start]

lemma count_mul (m : Nat) : (v.recordExtent m).count * v.blockSize = v.mftRecordSize := by
  rw [hg.recordExtent_eq hb, hg.block, hg.size]

lemma ntfsReadMftRecord_eq (hc : v.mftRecordSize ≤ capacity) (disk heap : Memory) (m : Nat) :
    v.ntfsReadMftRecord disk m capacity heap =
      .ok (if v.inRange (v.recordExtent m) then some (v.record heap disk m) else none) := by
  unfold ntfsReadMftRecord readBlocks record
  rw [hg.count_mul hb, if_neg (not_lt.mpr hc)]
  cases v.inRange (v.recordExtent m) <;> rfl

lemma names_eq (heap disk : Memory) (m : Nat) :
    v.names heap disk m =
      if v.inRange (v.recordExtent m) then fileName (v.record heap disk m) v.mftRecordSize else none := by
  unfold names
  rw [hg.ntfsReadMftRecord_eq hb le_rfl]
  cases v.inRange (v.recordExtent m) <;> rfl

lemma pathToMftRecord_eq (heap disk : Memory) (path : CString) :
    v.pathToMftRecord heap disk path = .ok (ntfsPathToMftRecord (v.names heap disk) path) := by
  unfold pathToMftRecord
  rw [hg.ntfsReadMftRecord_eq hb le_rfl]
  cases scans path <;> rfl

lemma writeBack_eq (disk rec : Memory) :
    v.writeBack disk n rec = .ok (if v.inRange (v.recordExtent n) then
      some { read := v.recordExtent n, written := v.recordExtent n, disk := v.overlay disk n rec }
      else none) := by
  unfold writeBack writeBlocks
  rw [hg.writeBackExtent_eq hb, hg.count_mul hb, if_neg (not_lt.mpr (hg.size_le))]
  cases v.inRange (v.recordExtent n) <;> rfl

end

-- What a call of `NtfsWriteFile` that succeeds has found and done.
structure Written (v : Volume) (heap disk : Memory) (n : Nat) (data : List UInt8) (w : WriteBack) : Prop where
  range : v.inRange (v.recordExtent n)
  read : w.read = v.recordExtent n
  written : w.written = v.recordExtent n
  found : ∃ a, resident (v.record heap disk n) bufferSize attrData = some a ∧
    data.length ≤ valueLength (v.record heap disk n) a ∧
    w.disk = v.overlay disk n
      (patch (v.record heap disk n) (a + valueOffset (v.record heap disk n) a) data)

lemma ntfsWriteFile_ok (hg : v.Matches n) (hb : 0 < v.bytesPerSector)
    (hp : ntfsPathToMftRecord (v.names heap disk) path = n) (data : List UInt8) :
    ∃ r, v.ntfsWriteFile heap disk path data = .ok r ∧ ∀ w ∈ r, Written v heap disk n data w := by
  have hnone : ∃ r, (.ok none : Except Fault (Option WriteBack)) = .ok r ∧ ∀ w ∈ r, Written v heap disk n data w :=
    ⟨none, rfl, fun w hw => by cases hw⟩
  unfold ntfsWriteFile
  simp only [hg.pathToMftRecord_eq hb, hg.ntfsReadMftRecord_eq hb (hg.size_le), hg.writeBack_eq hb, hp,
    bind, Except.bind, pure, Except.pure]
  split
  case isTrue => exact hnone
  cases hr : v.inRange (v.recordExtent n)
  case false => exact hnone
  simp only [if_true]
  split
  case isTrue => exact hnone
  split
  case h_1 => exact hnone
  case h_2 a ha =>
    split
    case isTrue => exact hnone
    case isFalse hlen =>
      split
      case isTrue => exact hnone
      refine ⟨_, rfl, fun w hw => ?_⟩
      cases hw
      exact ⟨hr, rfl, rfl, a, ha, not_lt.mp hlen, rfl⟩

lemma ntfsDeleteRecord_ok (hg : v.Matches n) (hb : 0 < v.bytesPerSector)
    (hp : ntfsPathToMftRecord (v.names heap disk) path = n) :
    ∃ r, v.ntfsDeleteRecord heap disk path = .ok r ∧
      ∀ w ∈ r, w.read = v.recordExtent n ∧ w.written = v.recordExtent n := by
  unfold ntfsDeleteRecord
  simp only [hg.pathToMftRecord_eq hb, hg.ntfsReadMftRecord_eq hb (hg.size_le), hg.writeBack_eq hb, hp,
    bind, Except.bind, pure, Except.pure]
  split
  case isTrue => exact ⟨none, rfl, fun w hw => by cases hw⟩
  cases hr : v.inRange (v.recordExtent n)
  case false => exact ⟨none, rfl, fun w hw => by cases hw⟩
  refine ⟨_, rfl, fun w hw => ?_⟩
  cases hw
  exact ⟨rfl, rfl⟩

section

variable {rec : Memory} (hg : v.Matches n) (hb : 0 < v.bytesPerSector)
include hg hb

lemma overlay_other (hm : m ≠ n) (hi : i < v.mftRecordSize) :
    v.overlay disk n rec ((v.recordExtent m).lba * v.blockSize + i) =
      disk ((v.recordExtent m).lba * v.blockSize + i) := by
  unfold overlay
  rw [if_neg]
  rw [hg.recordExtent_eq hb, hg.recordExtent_eq hb, hg.block]
  rw [hg.size] at hi
  dsimp only
  rintro ⟨h1, h2⟩
  obtain hlt | hgt := Nat.lt_or_gt_of_ne hm
  · have : (v.mftCluster * v.sectorsPerCluster + 2 * m + 2) * v.bytesPerSector ≤
        (v.mftCluster * v.sectorsPerCluster + 2 * n) * v.bytesPerSector :=
      Nat.mul_le_mul_right _ (by omega)
    rw [Nat.add_mul _ 2] at this
    omega
  · have : (v.mftCluster * v.sectorsPerCluster + 2 * n + 2) * v.bytesPerSector ≤
        (v.mftCluster * v.sectorsPerCluster + 2 * m) * v.bytesPerSector :=
      Nat.mul_le_mul_right _ (by omega)
    omega

lemma record_overlay_other (hm : m ≠ n) : v.record heap (v.overlay disk n rec) m = v.record heap disk m := by
  funext i
  unfold record
  split
  case isTrue hi => exact hg.overlay_other hb hm hi
  case isFalse => rfl

lemma record_overlay_self (hrec : ∀ i, v.mftRecordSize ≤ i → rec i = heap i) :
    v.record heap (v.overlay disk n rec) n = rec := by
  funext i
  unfold record overlay
  split
  case isFalse hi => exact (hrec i (not_lt.mp hi)).symm
  case isTrue hi =>
    have hend := hg.count_mul hb n
    rw [if_pos ⟨by omega, by rw [Nat.add_mul, hend]; omega⟩, Nat.add_sub_cancel_left]

end

end Volume.Matches

-- The record and its data end in time, and the first `count` bytes of the data are not those of a header or of
-- the name.
structure Apart (rec : Memory) (size count : Nat) : Prop where
  inUse : bytesInUse rec ≤ size
  data : ∀ a, resident rec Volume.bufferSize attrData = some a →
    a + attrLength rec a ≤ size ∧ a + valueOffset rec a + valueLength rec a ≤ size ∧
    22 ≤ valueOffset rec a ∧ 28 ≤ a + valueOffset rec a ∧ valueOffset rec a + count ≤ attrLength rec a
  name : ∀ a f, resident rec Volume.bufferSize attrData = some a → resident rec size attrFilename = some f →
    f + valueOffset rec f + 66 + 2 * (rec (f + valueOffset rec f + 64)).toNat ≤ a + valueOffset rec a ∨
    a + valueOffset rec a + count ≤ f + valueOffset rec f

lemma patch_agree (rec : Memory) (d : Nat) (data : List UInt8) :
    Agree rec (Volume.patch rec d data) d (d + data.length) := by
  intro i hi
  unfold Volume.patch
  split
  case isFalse => rfl
  case isTrue => rw [List.getD_eq_default _ _ (by omega)]

lemma patch_data (d : Nat) (hi : i < data.length) :
    Volume.patch rec d data (d + i) = data.get ⟨i, hi⟩ := by
  unfold Volume.patch
  rw [if_pos (by omega), Nat.add_sub_cancel_left, List.getD_eq_getElem _ _ hi]
  rfl

lemma fileName_changed (hag : Agree rec rec' x y) (hx : 28 ≤ x)
    (hname : ∀ f, resident rec size attrFilename = some f →
      f + valueOffset rec f + 66 + 2 * (rec (f + valueOffset rec f + 64)).toNat ≤ x ∨ y ≤ f + valueOffset rec f)
    (ha : resident rec size attrData = some a) (hax : a + 22 ≤ x) (hy : y ≤ a + attrLength rec a) :
    fileName rec' size = fileName rec size := by
  have hoff : attrsOffset rec' = attrsOffset rec := congrArg UInt16.toNat (hag.u16 (by omega))
  have hflags : flags rec' = flags rec := congrArg UInt16.toNat (hag.u16 (by omega))
  have hsame : resident rec' size attrFilename = resident rec size attrFilename := by
    unfold resident
    rw [hoff]
    exact findAttr_changed hag (by omega) hax hy ha
  unfold fileName
  rw [hflags, hsame]
  split
  case isTrue => rfl
  refine Option.map_congr fun f hf => ?_
  have hname := hname f hf
  obtain ⟨-, hlen, -⟩ := findAttr_found hf
  have hdis := findAttr_disjoint hf ha (by decide)
  unfold attrHeaderSize at hlen
  obtain ⟨-, -, -, -, hvo⟩ := hag.attr (a := f) (by omega)
  have hcount : rec' (f + valueOffset rec f + 64) = rec (f + valueOffset rec f + 64) :=
    hag _ (by omega)
  unfold fileNameAt
  dsimp only
  rw [hvo, hcount, hag.u64 (by omega)]
  congr 1
  refine List.map_congr_left fun k hk => hag.u16 ?_
  have := List.mem_range.mp hk
  omega

section

variable (hg : v.Matches n) (hb : 0 < v.bytesPerSector)
include hg hb

lemma Volume.Matches.readFile_of_written (hp : ntfsPathToMftRecord (v.names heap disk) path = n) (hn : n ≠ 0)
    (hw : Apart (v.record heap disk n) v.mftRecordSize data.length) (h : Written v heap disk n data w)
    (hmax : data.length ≤ maxSize) :
    ∃ rest, v.ntfsReadFile heap w.disk path maxSize = .ok (some (data ++ rest)) := by
  obtain ⟨hrange, -, -, a, ha, hlen, hdisk⟩ := h
  obtain ⟨hend, hvalue, hvo, hheader, hvl⟩ := hw.data a ha
  set rec := v.record heap disk n with hrec
  set d := a + valueOffset rec a with hd
  have hag := patch_agree rec d data
  have hle := findAttr_le ha
  obtain ⟨-, hlength, -⟩ := findAttr_found ha
  unfold attrHeaderSize at hlength
  have hfuel : a < attrsOffset rec + attrHeaderSize * v.mftRecordSize := by
    unfold attrHeaderSize
    omega
  have hfound : resident rec v.mftRecordSize attrData = some a :=
    findAttr_some_changed (x := a + 28) (y := a + 28) (fun _ _ => rfl) (by omega) (by omega) ha hend hfuel
  have hself : v.record heap w.disk n = patch rec d data := by
    rw [hdisk]
    refine hg.record_overlay_self hb fun i hi => ?_
    rw [hag i (by omega), hrec, record, if_neg (not_lt.mpr hi)]
  have hnames : v.names heap w.disk = v.names heap disk := by
    funext m
    rw [hg.names_eq hb, hg.names_eq hb]
    by_cases hm : m = n
    · rw [hm, hself, fileName_changed hag hheader (fun f hf => hw.name a f ha hf) hfound (by omega) (by omega)]
    · rw [hdisk, hg.record_overlay_other hb hm]
  have hoff : attrsOffset (patch rec d data) = attrsOffset rec :=
    congrArg UInt16.toNat (hag.u16 (by omega))
  have hfound' : resident (patch rec d data) v.mftRecordSize attrData = some a := by
    unfold resident
    rw [hoff]
    exact findAttr_some_changed hag (by omega) (by omega) ha hend hfuel
  obtain ⟨-, -, -, hvl', hvo'⟩ := hag.attr (a := a) (by omega)
  have hinUse := bytesInUse_changed hag (by omega)
  unfold ntfsReadFile
  simp only [hg.pathToMftRecord_eq hb, hg.ntfsReadMftRecord_eq hb le_rfl, hnames, hp, hself, hrange, hinUse,
    hfound', hvl', hvo', bind, Except.bind, pure, Except.pure, if_neg hn, if_true,
    if_neg (not_lt.mpr hw.inUse)]
  rw [if_neg (by omega)]
  obtain ⟨k, hk⟩ := Nat.exists_eq_add_of_le (le_min hlen hmax)
  refine ⟨(List.range k).map fun i => patch rec d data (d + (data.length + i)), ?_⟩
  rw [hk, List.range_add, List.map_append, List.map_map]
  congr 3
  refine List.ext_getElem (by simp) fun i h1 h2 => ?_
  rw [List.getElem_map, List.getElem_range]
  exact patch_data d h2

end

-- The record fits into the buffer of the writing functions, and these write to the sectors that it is read from.
def Volume.Returns (v : Volume) (n : Nat) : Prop :=
  (v.recordExtent n).count * v.blockSize ≤ bufferSize ∧ v.writeBackExtent n = v.recordExtent n

lemma Volume.returns_iff (hb : 0 < v.bytesPerSector) (hblock : v.blockSize = v.bytesPerSector)
    (hd : v.bytesPerSector ∣ v.mftRecordSize) : v.Returns n ↔ v.Matches n := by
  constructor
  · rintro ⟨hfit, hsame⟩
    obtain ⟨k, hk⟩ := hd
    have hcount : (v.bytesPerSector * k + v.bytesPerSector - 1) / v.bytesPerSector = k :=
      Nat.div_eq_of_lt_le (by rw [Nat.mul_comm]; omega) (by rw [Nat.add_mul, Nat.mul_comm k]; omega)
    unfold recordExtent at hfit hsame
    rw [hk, hcount] at hfit hsame
    rw [Nat.mul_left_comm, Nat.mul_div_cancel_left _ hb] at hsame
    obtain ⟨hstart, rfl⟩ := Extent.mk.inj hsame
    unfold bufferSize at hfit
    exact ⟨hblock, by omega, by rw [hblock] at hfit; dsimp only at hfit; omega, by omega⟩
  · intro hg
    exact ⟨(hg.count_mul hb n).trans_le hg.size_le, hg.writeBackExtent_eq hb⟩

-- A record of the file `f` in the root directory, with four bytes of data.
def fileRecord : Memory := fun i =>
  ([(20, 48), (22, 1), (24, 248), (48, 0x30), (52, 132), (64, 68), (68, 64), (112, 5), (176, 1), (178, 0x66),
    (180, 0x80), (184, 68), (196, 4), (200, 64)].lookup i).getD 0

def diskWith (lba : Nat) : Memory := fun a =>
  if lba * 512 ≤ a then fileRecord (a - lba * 512) else 0

def filePath : CString := [CString.slash, ⟨0x66, by decide⟩]

-- The MFT starts in sector 1.
def bootSector (clustersPerFileRecord : Int8) : NtfsBootSector where
  bytesPerSector := 512
  sectorsPerCluster := 1
  totalSectors := 100
  mftCluster := 1
  clustersPerFileRecord

def volumeWith (clustersPerFileRecord : Int8) : Volume where
  blockSize := 512
  totalBlocks := 100
  bytesPerSector := 512
  sectorsPerCluster := 1
  mftCluster := 1
  clustersPerFileRecord := clustersPerFileRecord.toInt

lemma fileRecord_apart :
    Apart ((volumeWith (-10)).record (fun _ => 0) (diskWith 13) 6) 1024 2 := by
  have hdata : resident ((volumeWith (-10)).record (fun _ => 0) (diskWith 13) 6) 1024 attrData = some 180 := by
    decide +kernel
  have hname : resident ((volumeWith (-10)).record (fun _ => 0) (diskWith 13) 6) 1024 attrFilename = some 48 := by
    decide +kernel
  refine ⟨by decide +kernel, fun a ha => ?_, fun a f ha hf => ?_⟩
  all_goals cases hdata.symm.trans ha
  · decide +kernel
  · cases hname.symm.trans hf
    decide +kernel

end NTFS
