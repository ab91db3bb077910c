import VoidFrame.Fs.Iso9660

-- Directories as lists of entries, and what a path names in them.

namespace Iso9660

section

-- The name without leading spaces, version and case.
def canonical (name : CString) : List UInt8 :=
  ((name.dropWhile (· = CString.space)).takeWhile (· ≠ semicolon)).map (toupperIso ·.val)

variable {a b : CString} {c : CChar}

lemma toupperIso_ne_zero {c : UInt8} (h : c ≠ 0) : toupperIso c ≠ 0 := by
  unfold toupperIso
  split
  case isFalse => exact h
  case isTrue hc =>
    have h1 := UInt8.le_iff_toNat_le.mp hc.left
    have h2 := UInt8.toNat_sub_of_le c 0x20 (UInt8.le_iff_toNat_le.mpr (le_trans (by decide) h1))
    intro h0
    rw [h0] at h2
    have h3 : (0x61 : UInt8).toNat = 97 := rfl
    have h4 : (0x20 : UInt8).toNat = 32 := rfl
    have h5 : (0 : UInt8).toNat = 0 := rfl
    omega

lemma nextChar_eq_zero (h : c = semicolon) : nextChar (c :: a) = 0 := by
  rw [nextChar, if_pos h]
  rfl

lemma nextChar_ne_zero (h : c ≠ semicolon) : nextChar (c :: a) ≠ 0 := by
  rw [nextChar, if_neg h]
  exact toupperIso_ne_zero c.property

-- The characters up to the version.
def upper (a : CString) : List UInt8 :=
  (a.takeWhile (· ≠ semicolon)).map (toupperIso ·.val)

lemma upper_of_semicolon (h : c = semicolon) : upper (c :: a) = [] := by
  rw [upper, List.takeWhile_cons_of_neg (by simpa using h)]
  rfl

lemma upper_of_ne (h : c ≠ semicolon) : upper (c :: a) = nextChar (c :: a) :: upper a := by
  rw [upper, List.takeWhile_cons_of_pos (by simpa using h), List.map_cons, nextChar, if_neg h]
  rfl

lemma upper_eq_nil_iff : upper b = [] ↔ nextChar b = 0 := by
  rcases b with _ | ⟨c, b⟩
  · exact ⟨fun _ => rfl, fun _ => rfl⟩
  by_cases h : c = semicolon
  case pos => exact ⟨fun _ => nextChar_eq_zero h, fun _ => upper_of_semicolon h⟩
  rw [upper_of_ne h]
  exact ⟨(fun h' => by cases h'), fun h' => absurd h' (nextChar_ne_zero h)⟩

lemma upper_of_nextChar (h : nextChar b ≠ 0) : upper b = nextChar b :: upper b.tail := by
  rcases b with _ | ⟨c, b⟩
  · exact absurd rfl h
  by_cases hc : c = semicolon
  · exact absurd (nextChar_eq_zero hc) h
  · exact upper_of_ne hc

lemma equalsFrom_iff : equalsFrom a b ↔ upper a = upper b := by
  induction a generalizing b
  case nil => exact decide_eq_true_iff.trans (upper_eq_nil_iff.symm.trans eq_comm)
  case cons c a ih =>
    rw [equalsFrom]
    by_cases hc : nextChar (c :: a) = nextChar b
    case neg =>
      rw [if_pos hc]
      refine ⟨(fun h => by cases h), fun h => absurd ?_ hc⟩
      by_cases h0 : nextChar b = 0
      case pos => rw [h0, upper_eq_nil_iff.mp (h.trans (upper_eq_nil_iff.mpr h0))]
      have ha : nextChar (c :: a) ≠ 0 := fun ha => h0 (upper_eq_nil_iff.mp (h.symm.trans (upper_eq_nil_iff.mpr ha)))
      rw [upper_of_nextChar ha, upper_of_nextChar h0] at h
      exact (List.cons.inj h).left
    case pos =>
      rw [if_neg (not_not.mpr hc)]
      by_cases h0 : nextChar (c :: a) = 0
      case pos =>
        rw [if_pos h0, upper_eq_nil_iff.mpr h0, upper_eq_nil_iff.mpr (hc ▸ h0)]
        exact ⟨fun _ => rfl, fun _ => rfl⟩
      have hb : nextChar b ≠ 0 := fun hb => h0 (hc.trans hb)
      rw [if_neg h0, ih, upper_of_nextChar h0, upper_of_nextChar hb, hc, List.cons_inj_right, List.tail_cons]

lemma isoNameEquals_iff : isoNameEquals a b ↔ canonical a = canonical b :=
  equalsFrom_iff

end

namespace Entry

variable (e : Buffer)

def lba : UInt32 := Bytes.u32 e.data 2

def size : UInt32 := Bytes.u32 e.data 10

def isDir : Bool := e.data 25 &&& 2 ≠ 0

def name : CString := nameOf ((List.range (e.data 32).toNat).map fun i => e.data (33 + i))

variable {e}

lemma extentLoc_eq (h : 33 ≤ e.size) : extentLoc e = .ok (lba e) :=
  Buffer.load_eq (by omega)

lemma dataLength_eq (h : 33 ≤ e.size) : dataLength e = .ok (size e) :=
  Buffer.load_eq (by omega)

lemma fileFlags_eq (h : 33 ≤ e.size) : fileFlags e = .ok (e.data 25) :=
  if_pos (show 25 + 1 ≤ e.size by omega)

end Entry

section

def entryAt (data : Nat → UInt8) (o : Nat) : Buffer where
  size := (data o).toNat
  data := fun i => data (o + i)

-- The entries of a sector from an offset on: each one is in the sector, and its name is in it.
inductive Records (data : Nat → UInt8) : Nat → List Buffer → Prop
  | nil {o} (ho : o ≤ sectorSize) (h0 : o < sectorSize → data o = 0) : Records data o []
  | cons {o es} (h0 : data o ≠ 0) (hn : 33 + (data (o + 32)).toNat ≤ (data o).toNat)
      (hs : o + (data o).toNat ≤ sectorSize) (h : Records data (o + (data o).toNat) es) :
      Records data o (entryAt data o :: es)

-- The entries of some sectors.
inductive Sectors (disc : Disc) : UInt32 → Nat → List Buffer → Prop
  | nil {lba} : Sectors disc lba 0 []
  | cons {lba n data es es'} (hd : disc lba = some data) (hr : Records data 0 es)
      (h : Sectors disc (lba + 1) n es') : Sectors disc lba (n + 1) (es ++ es')

-- A directory takes whole sectors, and the names in it are different.
structure Directory (disc : Disc) (lba size : UInt32) (es : List Buffer) : Prop where
  sectors : ∃ n, n < 2 ^ 21 ∧ size.toNat ≤ 2048 * n ∧ 2048 * n < size.toNat + 2048 ∧ Sectors disc lba n es
  distinct : (es.map fun e => canonical (Entry.name e)).Nodup

variable {disc : Disc} {data : Nat → UInt8} {lba size : UInt32} {es : List Buffer} {e : Buffer} {c : CString}
variable {o n k fuel : Nat}

-- The entries that a name can stand for.
def isNamed (c : CString) (e : Buffer) : Bool :=
  isoNameEquals (Entry.name e) c

lemma Records.fits (h : Records data o es) (he : e ∈ es) : 33 + (e.data 32).toNat ≤ e.size := by
  induction h
  case nil => cases he
  case cons h0 hn hs h ih =>
    cases he
    case head => exact hn
    case tail he => exact ih he

lemma Sectors.fits (h : Sectors disc lba n es) (he : e ∈ es) : 33 + (e.data 32).toNat ≤ e.size := by
  induction h
  case nil => cases he
  case cons hd hr h ih =>
    rcases List.mem_append.mp he with he | he
    · exact hr.fits he
    · exact ih he

lemma Directory.fits (h : Directory disc lba size es) (he : e ∈ es) : 33 + (e.data 32).toNat ≤ e.size := by
  obtain ⟨n, -, -, -, hs⟩ := h.sectors
  exact hs.fits he

lemma Directory.size_ge (h : Directory disc lba size es) (he : e ∈ es) : 33 ≤ e.size :=
  (Nat.le_add_right _ _).trans (h.fits he)

lemma copyEntry_eq (hs : o + (data o).toNat ≤ sectorSize) (h0 : data o ≠ 0) :
    copyEntry ⟨sectorSize, data⟩ o = .ok (entryAt data o) := by
  have hpos : 0 < (data o).toNat := Nat.pos_of_ne_zero fun h => h0 (UInt8.toNat_inj.mp h)
  have hl : Buffer.load8 ⟨sectorSize, data⟩ Fault.sector o = .ok (data o) :=
    Buffer.load_eq (show o + 1 ≤ sectorSize by omega)
  rw [copyEntry, hl]
  exact if_pos (.inr hs)

lemma findInSector_eq (h : Records data o es) (hf : sectorSize < o + fuel) :
    findInSector ⟨sectorSize, data⟩ c fuel o = .ok (es.find? (isNamed c)) := by
  induction h generalizing fuel
  case nil o ho h0 =>
    rcases fuel with _ | fuel
    · omega
    rw [findInSector]
    by_cases hlt : o < sectorSize
    case neg => exact if_neg hlt
    have hl : Buffer.load8 ⟨sectorSize, data⟩ Fault.sector o = .ok (data o) := Buffer.load_eq hlt
    rw [if_pos hlt, hl, h0 hlt]
    rfl
  case cons o es h0 hn hs h ih =>
    rcases fuel with _ | fuel
    · omega
    have hlt : o < sectorSize := by omega
    have h1 : Buffer.load8 ⟨sectorSize, data⟩ Fault.sector o = .ok (data o) := Buffer.load_eq hlt
    have h2 : Buffer.load8 ⟨sectorSize, data⟩ Fault.sector (o + 32) = .ok (data (o + 32)) :=
      Buffer.load_eq (show o + 32 + 1 ≤ sectorSize by omega)
    have h3 : Buffer.slice ⟨sectorSize, data⟩ Fault.sector (o + 33) (data (o + 32)).toNat =
        .ok ((List.range (data (o + 32)).toNat).map fun i => (entryAt data o).data (33 + i)) := by
      rw [Buffer.slice_eq (show o + 33 + (data (o + 32)).toNat ≤ sectorSize by omega)]
      simp only [entryAt, Nat.add_assoc]
    have hpos : 0 < (data o).toNat := by omega
    rw [findInSector, if_pos hlt, h1, Except.ok_bind, if_neg h0, h2, Except.ok_bind, h3, Except.ok_bind,
      List.find?_cons]
    cases hm : isNamed c (entryAt data o)
    case true =>
      refine (if_pos hm).trans ?_
      rw [copyEntry_eq hs h0]
      rfl
    case false =>
      have hm' : ¬isoNameEquals (Entry.name (entryAt data o)) c = true := by
        rw [← isNamed, hm]
        exact Bool.false_ne_true
      exact (if_neg hm').trans (ih (by omega))

lemma readSector_eq (h : disc lba = some data) : readSector disc lba = some ⟨sectorSize, data⟩ := by
  rw [readSector, h]
  rfl

lemma bytes_lt (hk : k < 2 ^ 21) : 2048 * k < 2 ^ 32 := by
  omega

lemma ofNat_div (hk : k < 2 ^ 21) : UInt32.ofNat (2048 * k) / 2048 = UInt32.ofNat k := by
  rw [← UInt32.toNat_inj, UInt32.toNat_div, UInt32.toNat_ofNat_of_lt' (bytes_lt hk),
    UInt32.toNat_ofNat_of_lt' (show k < 2 ^ 32 by omega)]
  exact Nat.mul_div_cancel_left k (by decide)

lemma ofNat_lt (hk : k < 2 ^ 21) : UInt32.ofNat (2048 * k) < size ↔ 2048 * k < size.toNat := by
  rw [UInt32.lt_iff_toNat_lt, UInt32.toNat_ofNat_of_lt' (bytes_lt hk)]

lemma ofNat_next : UInt32.ofNat (2048 * k) + 2048 = UInt32.ofNat (2048 * (k + 1)) := by
  rw [Nat.mul_add, UInt32.ofNat_add]
  rfl

lemma add_ofNat_next : lba + UInt32.ofNat k + 1 = lba + UInt32.ofNat (k + 1) := by
  rw [UInt32.ofNat_add, UInt32.add_assoc]
  rfl

lemma findFrom_eq (h : Sectors disc first n es) (hl : first = lba + UInt32.ofNat k)
    (hk : k + n < 2 ^ 21) (hle : size.toNat ≤ 2048 * (k + n)) (hlt : 2048 * (k + n) < size.toNat + 2048)
    (hf : n < fuel) :
    findFrom disc lba size c fuel (UInt32.ofNat (2048 * k)) = .ok (es.find? (isNamed c)) := by
  induction h generalizing k fuel
  case nil =>
    rcases fuel with _ | fuel
    · omega
    rw [findFrom, if_neg ((ofNat_lt (by omega)).not.mpr (by omega))]
    rfl
  case cons first n data es es' hd hr h ih =>
    rcases fuel with _ | fuel
    · omega
    subst hl
    rw [findFrom, if_pos ((ofNat_lt (by omega)).mpr (by omega)), ofNat_div (by omega), readSector_eq hd]
    dsimp only
    rw [findInSector_eq hr (by omega), Except.ok_bind, List.find?_append]
    cases es.find? (isNamed c)
    case some e => rfl
    rw [Option.none_or, ofNat_next]
    exact ih add_ofNat_next (by omega) (by omega) (by omega) (by omega)

lemma findFileInDir_eq (h : Directory disc lba size es) :
    findFileInDir disc lba size c = .ok (es.find? (isNamed c)) := by
  obtain ⟨n, hn, hle, hlt, hs⟩ := h.sectors
  exact findFrom_eq (k := 0) hs (by simp) (by omega) (by omega) (by omega) (by omega)

lemma Directory.find_eq (h : Directory disc lba size es) (he : e ∈ es)
    (hn : canonical (Entry.name e) = canonical c) : es.find? (isNamed c) = some e := by
  have hsome : (es.find? (isNamed c)).isSome :=
    List.find?_isSome.mpr ⟨e, he, isoNameEquals_iff.mpr hn⟩
  obtain ⟨f, hf⟩ := Option.isSome_iff_exists.mp hsome
  have hfn : isNamed c f := List.find?_some hf
  have hfe : f = e := List.inj_on_of_nodup_map h.distinct (List.mem_of_find?_eq_some hf) he
    ((isoNameEquals_iff.mp hfn).trans hn.symm)
  rw [hf, hfe]

lemma find_eq_none (hn : ∀ e ∈ es, canonical (Entry.name e) ≠ canonical c) : es.find? (isNamed c) = none :=
  List.find?_eq_none.mpr fun e he h => hn e he (isoNameEquals_iff.mp h)

end

section

-- The components of a path name an entry. All but the last one name directories.
inductive Names (disc : Disc) : UInt32 → UInt32 → List CString → Buffer → Prop
  | last {lba size es e c} (hd : Directory disc lba size es) (he : e ∈ es)
      (hn : canonical (Entry.name e) = canonical c) : Names disc lba size [c] e
  | step {lba size es e c l f} (hd : Directory disc lba size es) (he : e ∈ es)
      (hn : canonical (Entry.name e) = canonical c) (hdir : Entry.isDir e)
      (h : Names disc (Entry.lba e) (Entry.size e) l f) : Names disc lba size (c :: l) f

-- A component does not exist in the directory that the components in front of it name.
inductive Missing (disc : Disc) : UInt32 → UInt32 → List CString → Prop
  | here {lba size es c l} (hd : Directory disc lba size es)
      (hn : ∀ e ∈ es, canonical (Entry.name e) ≠ canonical c) : Missing disc lba size (c :: l)
  | step {lba size es e c l} (hd : Directory disc lba size es) (he : e ∈ es)
      (hn : canonical (Entry.name e) = canonical c) (hdir : Entry.isDir e)
      (h : Missing disc (Entry.lba e) (Entry.size e) l) : Missing disc lba size (c :: l)

variable {disc : Disc} {lba size : UInt32} {l : List CString} {c : CString} {es : List Buffer} {e f : Buffer}

lemma descend_cons (hd : Directory disc lba size es) (he : e ∈ es)
    (hn : canonical (Entry.name e) = canonical c) :
    descend disc f lba size (c :: l) = descend disc e (Entry.lba e) (Entry.size e) l := by
  have hs := hd.size_ge he
  rw [descend, findFileInDir_eq hd, hd.find_eq he hn, Except.ok_bind]
  dsimp only
  rw [Entry.extentLoc_eq hs, Except.ok_bind, Entry.dataLength_eq hs, Except.ok_bind]

lemma Names.descend_eq (h : Names disc lba size l e) : descend disc f lba size l = .ok (some e) := by
  induction h generalizing f
  case last hd he hn => rw [descend_cons hd he hn]; rfl
  case step hd he hn hdir h ih => rw [descend_cons hd he hn, ih]

lemma Names.size_ge (h : Names disc lba size l e) : 33 ≤ e.size := by
  induction h
  case last hd he hn => exact hd.size_ge he
  case step hd he hn hdir h ih => exact ih

lemma Names.ne_nil (h : Names disc lba size l e) : l ≠ [] := by
  cases h <;> exact List.cons_ne_nil _ _

lemma Missing.descend_eq (h : Missing disc lba size l) : descend disc f lba size l = .ok none := by
  induction h generalizing f
  case here hd hn => rw [descend, findFileInDir_eq hd, find_eq_none hn]; rfl
  case step hd he hn hdir h ih => rw [descend_cons hd he hn, ih]

lemma Missing.ne_nil (h : Missing disc lba size l) : l ≠ [] := by
  cases h <;> exact List.cons_ne_nil _ _

end

section

def byteAt (disc : Disc) (lba : UInt32) (i : Nat) : UInt8 :=
  ((disc (lba + UInt32.ofNat (i / sectorSize))).map (· (i % sectorSize))).getD 0

def extent (disc : Disc) (lba : UInt32) (n : Nat) : List UInt8 :=
  (List.range n).map (byteAt disc lba)

def Readable (disc : Disc) (lba : UInt32) (n : Nat) : Prop :=
  ∀ i < n, (disc (lba + UInt32.ofNat (i / sectorSize))).isSome

variable {disc : Disc} {lba : UInt32} {n m toRead fuel : Nat}

lemma length_extent : (extent disc lba n).length = n := by
  rw [extent, List.length_map, List.length_range]

lemma extent_append (hd : disc (lba + UInt32.ofNat (n / sectorSize)) = some data)
    (hm : n % sectorSize + m ≤ sectorSize) :
    extent disc lba n ++ (List.range m).map (fun i => data (n % sectorSize + i)) = extent disc lba (n + m) := by
  rw [extent, extent, List.range_add, List.map_append, List.map_map]
  congr 1
  refine List.map_congr_left fun i hi => ?_
  have hi := List.mem_range.mp hi
  have hs : sectorSize = 2048 := rfl
  have hdiv : (n + i) / sectorSize = n / sectorSize := by
    rw [hs] at hm ⊢
    omega
  have hmod : (n + i) % sectorSize = n % sectorSize + i := by
    rw [hs] at hm ⊢
    omega
  rw [Function.comp_apply, byteAt, hdiv, hmod, hd]
  rfl

lemma readData_eq (hr : Readable disc lba toRead) (hn : n ≤ toRead) (hf : toRead < n + fuel) :
    readData disc lba toRead fuel (extent disc lba n) = .ok (some (extent disc lba toRead)) := by
  induction fuel generalizing n
  case zero => omega
  case succ fuel ih =>
    rw [readData, length_extent]
    by_cases hlt : n < toRead
    case neg =>
      rw [if_neg hlt, show n = toRead by omega]
      rfl
    obtain ⟨data, hd⟩ := Option.isSome_iff_exists.mp (hr n hlt)
    have hs : n % sectorSize < sectorSize := Nat.mod_lt n (by decide)
    rw [if_pos hlt, readSector_eq hd]
    dsimp only
    rw [Buffer.slice_eq (show n % sectorSize + min (sectorSize - n % sectorSize) (toRead - n) ≤ sectorSize by omega),
      Except.ok_bind, extent_append hd (by omega)]
    exact ih (by omega) (by omega)

end

section

def Root (disc : Disc) (root : Buffer) : Prop :=
  ∃ s, readSector disc 16 = some s ∧ isPvd s ∧ root = rootEntry s

variable {disc : Disc} {root e : Buffer} {path : CString} {maxSize : UInt32} {buffer : Bool}

lemma lookup_eq (hp : path ≠ [CString.slash]) (hl : path.length ≤ 255) (h : 33 ≤ root.size) :
    lookup disc root path = descend disc root (Entry.lba root) (Entry.size root) (components path) := by
  rw [lookup, Entry.extentLoc_eq h, Except.ok_bind, Entry.dataLength_eq h, Except.ok_bind, if_neg hp,
    CString.strncpy, List.take_of_length_le hl]

lemma iso9660Read_root (hr : Root disc root) (hp : components path ≠ []) (hl : path.length ≤ 255) :
    iso9660Read disc path buffer maxSize =
      (descend disc root (Entry.lba root) (Entry.size root) (components path) >>= fun found =>
        readFound disc found buffer maxSize) := by
  obtain ⟨s, hs, hpvd, rfl⟩ := hr
  have hslash : path ≠ [CString.slash] := by
    rintro rfl
    exact hp (by decide)
  have hsize : 33 ≤ (rootEntry s).size := (by decide : 33 ≤ sectorSize - 156)
  rw [iso9660Read, hs]
  dsimp only
  rw [hpvd, if_neg (by simp), if_neg hslash, lookup_eq hslash hl hsize]

lemma toInt_of_lt {x : UInt32} (h : x.toNat < 2 ^ 31) : x.toInt32.toInt = x.toNat := by
  show x.toBitVec.toInt = x.toBitVec.toNat
  have h' : x.toBitVec.toNat < 2 ^ 31 := h
  rw [BitVec.toInt_eq_toNat_cond]
  split <;> omega

lemma min_toNat {x y : UInt32} : (if x < y then x else y).toNat = min x.toNat y.toNat := by
  split
  case isTrue h => exact (min_eq_left (UInt32.lt_iff_toNat_lt.mp h).le).symm
  case isFalse h => exact (min_eq_right (not_lt.mp fun h' => h (UInt32.lt_iff_toNat_lt.mpr h'))).symm

variable (he : 33 ≤ e.size) (hf : Entry.isDir e = false) (hs : (Entry.size e).toNat < 2 ^ 31)
include he hf hs

lemma readEntry_size : readEntry disc e false 0 = .ok ((Entry.size e).toNat, []) := by
  have hflags : ¬e.data 25 &&& 2 ≠ 0 := by simpa [Entry.isDir] using hf
  rw [readEntry, Entry.fileFlags_eq he, Except.ok_bind, if_neg hflags, Entry.dataLength_eq he, Except.ok_bind,
    Entry.extentLoc_eq he, Except.ok_bind, if_pos (.inl rfl), toInt_of_lt hs]
  rfl

lemma readEntry_data (hread : Readable disc (Entry.lba e) (Entry.size e).toNat) (hm : 1 ≤ maxSize) :
    let n := min (Entry.size e).toNat maxSize.toNat
    readEntry disc e true maxSize = .ok (n, extent disc (Entry.lba e) n) := by
  have hflags : ¬e.data 25 &&& 2 ≠ 0 := by simpa [Entry.isDir] using hf
  have hmax : ¬((!true) = true ∨ maxSize = 0) := by
    rintro (h | rfl)
    · cases h
    · exact absurd hm (by decide)
  have hle := min_le_left (Entry.size e).toNat maxSize.toNat
  have hnat := UInt32.toNat_ofNat_of_lt' (show min (Entry.size e).toNat maxSize.toNat < 2 ^ 32 by omega)
  rw [readEntry, Entry.fileFlags_eq he, Except.ok_bind, if_neg hflags, Entry.dataLength_eq he, Except.ok_bind,
    Entry.extentLoc_eq he, Except.ok_bind, if_neg hmax]
  dsimp only
  rw [min_toNat, show ([] : List UInt8) = extent disc (Entry.lba e) 0 from rfl,
    readData_eq (fun i hi => hread i (by omega)) (Nat.zero_le _) (by omega), Except.ok_bind]
  dsimp only
  rw [length_extent, toInt_of_lt (by omega), hnat]
  rfl

end

-- A path with a component that does not exist is an error.
theorem iso9660Read_exact (disc : Disc) (root : Buffer) (path : CString) (maxSize : UInt32) (hr : Root disc root)
    (hl : path.length ≤ 255) (hm : 1 ≤ maxSize) :
    (∀ e, Names disc (Entry.lba root) (Entry.size root) (components path) e → Entry.isDir e = false →
      (Entry.size e).toNat < 2 ^ 31 → Readable disc (Entry.lba e) (Entry.size e).toNat →
      let n := min (Entry.size e).toNat maxSize.toNat
      iso9660Read disc path true maxSize = .ok (n, extent disc (Entry.lba e) n)) ∧
    (Missing disc (Entry.lba root) (Entry.size root) (components path) →
      iso9660Read disc path true maxSize = .ok (-1, [])) := by
  constructor
  · intro e hn hf hs hread
    rw [iso9660Read_root hr hn.ne_nil hl, hn.descend_eq, Except.ok_bind]
    exact readEntry_data hn.size_ge hf hs hread hm
  · intro hmiss
    rw [iso9660Read_root hr hmiss.ne_nil hl, hmiss.descend_eq]
    rfl

-- A disc with one file of three bytes, of which the first one is given.
def sampleSector (l : List (Nat × UInt8)) : Nat → UInt8 :=
  fun i => (l.lookup i).getD 0

def sampleRoot : Nat → UInt8 :=
  sampleSector [(0, 1), (1, 0x43), (2, 0x44), (3, 0x30), (4, 0x30), (5, 0x31), (156, 34), (158, 20), (167, 8), (181, 2)]

def sampleDirectory : Nat → UInt8 :=
  sampleSector [(0, 34), (2, 20), (11, 8), (25, 2), (32, 1),
    (34, 36), (36, 21), (44, 3), (66, 3), (67, 0x41), (68, 0x3B), (69, 0x31)]

def sampleDisc (b : UInt8) : Disc := fun lba =>
  if lba = 16 then some sampleRoot
  else if lba = 20 then some sampleDirectory
  else if lba = 21 then some (sampleSector [(0, b), (1, 8), (2, 9)])
  else none

lemma sampleDirectory_eq :
    Directory (sampleDisc b) 20 2048 [entryAt sampleDirectory 0, entryAt sampleDirectory 34] where
  sectors := by
    have hr : Records sampleDirectory 0 [entryAt sampleDirectory 0, entryAt sampleDirectory 34] := by
      refine .cons (by decide +kernel) (by decide +kernel) (by decide +kernel) ?_
      refine .cons (by decide +kernel) (by decide +kernel) (by decide +kernel) ?_
      exact .nil (by decide +kernel) fun _ => by decide +kernel
    have hs : Sectors (sampleDisc b) 20 (0 + 1) ([entryAt sampleDirectory 0, entryAt sampleDirectory 34] ++ []) :=
      .cons rfl hr .nil
    exact ⟨1, by decide, by decide, by decide, hs⟩
  distinct := by decide +kernel

lemma sampleRoot_eq : Root (sampleDisc b) (rootEntry ⟨sectorSize, sampleRoot⟩) :=
  ⟨_, rfl, by decide +kernel, rfl⟩

lemma sampleNames :
    Names (sampleDisc b) 20 2048 (components (CString.ofChars ['/', 'a'])) (entryAt sampleDirectory 34) := by
  have hc : components (CString.ofChars ['/', 'a']) = [CString.ofChars ['a']] := by decide +kernel
  rw [hc]
  exact .last sampleDirectory_eq (List.mem_cons_of_mem _ List.mem_cons_self) (by decide +kernel)

lemma sampleReadable : Readable (sampleDisc b) 21 3 := by
  intro i hi
  rw [Nat.div_eq_of_lt (hi.trans (by decide))]
  rfl

theorem iso9660Read_exact_sample :
    iso9660Read (sampleDisc 7) (CString.ofChars ['/', 'a']) true 2 = .ok (2, [7, 8]) := by
  have h := (iso9660Read_exact (sampleDisc 7) _ (CString.ofChars ['/', 'a']) 2 sampleRoot_eq (by decide +kernel)
    (by decide)).left (entryAt sampleDirectory 34) sampleNames (by decide +kernel) (by decide +kernel) sampleReadable
  exact h.trans (by decide +kernel)

end Iso9660
