import VoidFrame.Fs.Theorems.Iso9660

-- The copy of a directory tree.

namespace Iso9660

open CString (slash)

section

-- The entry for `.` or for `..`.
def Entry.isSpecial (e : Buffer) : Bool :=
  e.data 32 = 1 && e.data 33 ≤ 1

def children (es : List Buffer) : List Buffer :=
  es.filter (!Entry.isSpecial ·)

variable {disc : Disc} {data : Nat → UInt8} {lba size : UInt32} {es entries : List Buffer} {e : Buffer}
variable {o n k fuel : Nat}

lemma children_append : children (es ++ es') = children es ++ children es' :=
  List.filter_append _ _

lemma mem_of_mem_children (h : e ∈ children es) : e ∈ es :=
  List.mem_of_mem_filter h

lemma isSpecial_eq (hn : 33 + (data (o + 32)).toNat ≤ (data o).toNat) (hs : o + (data o).toNat ≤ sectorSize) :
    isSpecial ⟨sectorSize, data⟩ o = .ok (Entry.isSpecial (entryAt data o)) := by
  have h1 : Buffer.load8 ⟨sectorSize, data⟩ Fault.sector (o + 32) = .ok (data (o + 32)) :=
    Buffer.load_eq (show o + 32 + 1 ≤ sectorSize by omega)
  rw [isSpecial, h1, Except.ok_bind]
  by_cases h : data (o + 32) = 1
  case neg =>
    have hf : Entry.isSpecial (entryAt data o) = false := by simp [Entry.isSpecial, entryAt, h]
    rw [if_neg h, hf]
    rfl
  have hone : (data (o + 32)).toNat = 1 := by rw [h]; rfl
  have h2 : Buffer.load8 ⟨sectorSize, data⟩ Fault.sector (o + 33) = .ok (data (o + 33)) :=
    Buffer.load_eq (show o + 33 + 1 ≤ sectorSize by omega)
  have ht : Entry.isSpecial (entryAt data o) = decide (data (o + 33) ≤ 1) := by
    show (decide (data (o + 32) = 1) && decide (data (o + 33) ≤ 1)) = _
    rw [decide_eq_true h, Bool.true_and]
  rw [if_pos h, h2, ht]
  rfl

lemma listSector_eq (h : Records data o es) (hf : sectorSize < o + fuel)
    (hc : entries.length + (children es).length ≤ 65) :
    listSector ⟨sectorSize, data⟩ fuel o entries = .ok (entries ++ children es) := by
  induction h generalizing fuel entries
  case nil o ho h0 =>
    rw [children, List.filter_nil, List.append_nil]
    rcases fuel with _ | fuel
    · omega
    rw [listSector]
    by_cases hlt : o < sectorSize
    case neg => exact if_neg hlt
    have hl : Buffer.load8 ⟨sectorSize, data⟩ Fault.sector o = .ok (data o) := Buffer.load_eq hlt
    rw [if_pos hlt, hl, h0 hlt]
    rfl
  case cons o es h0 hn hs h ih =>
    rcases fuel with _ | fuel
    · omega
    have hlt : o < sectorSize := by omega
    have h1 : Buffer.load8 ⟨sectorSize, data⟩ Fault.sector o = .ok (data o) := Buffer.load_eq hlt
    rw [listSector, if_pos hlt, h1, Except.ok_bind, if_neg h0, isSpecial_eq hn hs, Except.ok_bind]
    cases hsp : Entry.isSpecial (entryAt data o)
    case true =>
      rw [if_pos rfl, children, List.filter_cons_of_neg (by simp [hsp])]
      rw [children, List.filter_cons_of_neg (by simp [hsp])] at hc
      exact ih (by omega) hc
    case false =>
      rw [children, List.filter_cons_of_pos (by simp [hsp]), List.length_cons] at hc
      have hroom : entries.length < maxEntries := show entries.length < 65 by omega
      rw [if_neg Bool.false_ne_true, copyEntry_eq hs h0, Except.ok_bind, if_pos hroom, children,
        List.filter_cons_of_pos (by simp [hsp])]
      have hc' : (entries ++ [entryAt data o]).length + (children es).length ≤ 65 := by
        rw [List.length_append, List.length_singleton, children]
        omega
      have hf' : sectorSize < o + (data o).toNat + fuel := by omega
      exact (ih hf' hc').trans (congrArg _ (List.append_assoc _ _ _))

lemma listFrom_eq (h : Sectors disc first n es) (hl : first = lba + UInt32.ofNat k)
    (hk : k + n < 2 ^ 21) (hle : size.toNat ≤ 2048 * (k + n)) (hlt : 2048 * (k + n) < size.toNat + 2048)
    (hf : n < fuel) (hc : entries.length + (children es).length ≤ 64) :
    listFrom disc lba size fuel (UInt32.ofNat (2048 * k)) entries = .ok (entries ++ children es) := by
  induction h generalizing k fuel entries
  case nil =>
    rcases fuel with _ | fuel
    · omega
    have hend : ¬(UInt32.ofNat (2048 * k) < size ∧ entries.length < 64) := by
      rw [ofNat_lt (by omega)]
      omega
    rw [listFrom, if_neg hend, children, List.filter_nil, List.append_nil]
    rfl
  case cons first n data es es' hd hr h ih =>
    rcases fuel with _ | fuel
    · omega
    subst hl
    rw [children_append, List.length_append] at hc
    rw [listFrom]
    by_cases hroom : entries.length < 64
    case neg =>
      -- The array is full, and nothing is left.
      have hnil : children (es ++ es') = [] := by
        rw [← List.length_eq_zero_iff, children_append, List.length_append]
        omega
      rw [if_neg fun h => hroom h.right, hnil, List.append_nil]
      rfl
    case pos =>
      have hmore : UInt32.ofNat (2048 * k) < size ∧ entries.length < 64 :=
        ⟨(ofNat_lt (by omega)).mpr (by omega), hroom⟩
      rw [if_pos hmore, ofNat_div (by omega), readSector_eq hd]
      dsimp only
      rw [listSector_eq hr (by omega) (by omega), Except.ok_bind, ofNat_next, children_append,
        ← List.append_assoc]
      refine ih add_ofNat_next (by omega) (by omega) (by omega) (by omega) ?_
      rw [List.length_append]
      omega

end

section

variable {disc : Disc} {data : Nat → UInt8} {lba size : UInt32} {es es' : List Buffer} {o n : Nat}

lemma Records.unique (h : Records data o es) (h' : Records data o es') : es = es' := by
  induction h generalizing es'
  case nil o ho h0 =>
    cases h'
    case nil => rfl
    case cons h hn hs _ => exact absurd (h0 (by omega)) h
  case cons o es h0 hn hs h ih =>
    cases h'
    case nil ho h => exact absurd (h (by omega)) h0
    case cons _ _ _ h => rw [ih h]

lemma Sectors.unique (h : Sectors disc lba n es) (h' : Sectors disc lba n es') : es = es' := by
  induction h generalizing es'
  case nil => cases h'; rfl
  case cons hd hr h ih =>
    cases h'
    case cons hr' hd' h' =>
      obtain rfl := Option.some.inj (hd.symm.trans hd')
      rw [hr.unique hr', ih h']

lemma Directory.unique (h : Directory disc lba size es) (h' : Directory disc lba size es') : es = es' := by
  obtain ⟨n, -, h1, h2, hs⟩ := h.sectors
  obtain ⟨n', -, h1', h2', hs'⟩ := h'.sectors
  obtain rfl : n = n' := by omega
  exact hs.unique hs'

end

section

def under (path : CString) (l : List CString) : CString :=
  path ++ l.flatMap (slash :: ·)

variable {path name : CString} {l : List CString}

lemma under_cons : under path (name :: l) = under (path ++ slash :: name) l := by
  simp [under]

lemma components_append : components (path ++ slash :: q) = components path ++ components q := by
  rw [components, List.splitOn, List.splitOnP_append_cons _ _ (by simp), List.filter_append]
  rfl

lemma components_single (h : name ≠ []) (hs : slash ∉ name) : components name = [name] := by
  rw [components, List.splitOn_eq_singleton hs, List.filter_cons_of_pos (by simpa using h), List.filter_nil]

lemma join_eq (h : (path ++ slash :: name).length < 256) : join path name = path ++ slash :: name :=
  List.take_of_length_le (Nat.le_of_lt_succ h)

def key (path p : CString) : CString :=
  (p.drop (path.length + 1)).takeWhile (· ≠ slash)

lemma key_under (hs : slash ∉ name) : key path (under path (name :: l)) = name := by
  have hdrop : (under path (name :: l)).drop (path.length + 1) = name ++ l.flatMap (slash :: ·) := by
    rw [under, List.flatMap_cons, ← List.append_assoc, ← List.drop_drop, List.append_assoc, List.drop_left]
    rfl
  have hall : ∀ c ∈ name, decide (c ≠ slash) = true := fun c hc => decide_eq_true fun h => hs (h ▸ hc)
  rw [key, hdrop, List.takeWhile_append_of_pos hall]
  cases l
  case nil => rw [List.flatMap_nil, List.takeWhile_nil, List.append_nil]
  case cons c l => rw [List.flatMap_cons, List.cons_append, List.takeWhile_cons_of_neg (by simp), List.append_nil]

lemma key_of_prefix (hs : slash ∉ name) (h : path ++ slash :: name ++ [slash] <+: p) :
    key path p = name := by
  obtain ⟨r, rfl⟩ := h
  have hdrop : (path ++ slash :: name ++ [slash] ++ r).drop (path.length + 1) = name ++ slash :: r := by
    rw [← List.drop_drop, List.append_assoc, List.append_assoc, List.drop_left]
    simp
  have hall : ∀ c ∈ name, decide (c ≠ slash) = true := fun c hc => decide_eq_true fun h => hs (h ▸ hc)
  rw [key, hdrop, List.takeWhile_append_of_pos hall, List.takeWhile_cons_of_neg (by simp), List.append_nil]

end

section

-- A directory tree, with a property of the entries in each directory.
inductive Tree (disc : Disc) (P : List Buffer → Prop) : UInt32 → UInt32 → Prop
  | intro {lba size es} (hd : Directory disc lba size es) (hp : P (children es))
      (hn : ∀ e ∈ children es, Entry.name e ≠ [] ∧ slash ∉ Entry.name e)
      (hf : ∀ e ∈ children es, Entry.isDir e = false → Readable disc (Entry.lba e) (Entry.size e).toNat)
      (h : ∀ e ∈ children es, Entry.isDir e → Tree disc P (Entry.lba e) (Entry.size e)) : Tree disc P lba size

-- The entries below a directory, and their paths.
inductive Node (disc : Disc) : UInt32 → UInt32 → List CString → Buffer → Prop
  | child {lba size es e} (hd : Directory disc lba size es) (he : e ∈ children es) :
      Node disc lba size [Entry.name e] e
  | deeper {lba size es e l f} (hd : Directory disc lba size es) (he : e ∈ children es) (hdir : Entry.isDir e)
      (h : Node disc (Entry.lba e) (Entry.size e) l f) : Node disc lba size (Entry.name e :: l) f

-- An entry of the array for each entry of a directory, and sizes that are not negative.
def Small (l : List Buffer) : Prop :=
  l.length ≤ 64 ∧ ∀ e ∈ l, Entry.isDir e = false → (Entry.size e).toNat < 2 ^ 31

def At (disc : Disc) (root : Buffer) (path : CString) (e : Buffer) : Prop :=
  components path = [] ∧ e = root ∨ Names disc (Entry.lba root) (Entry.size root) (components path) e ∧ Entry.isDir e

variable {disc : Disc} {lba size : UInt32} {es : List Buffer} {e f root : Buffer} {l : List CString} {path : CString}

lemma Names.snoc (h : Names disc lba size l e) (hdir : Entry.isDir e)
    (hd : Directory disc (Entry.lba e) (Entry.size e) es) (hf : f ∈ es)
    (hn : canonical (Entry.name f) = canonical c) : Names disc lba size (l ++ [c]) f := by
  induction h
  case last hd' he hn' => exact .step hd' he hn' hdir (.last hd hf hn)
  case step hd' he hn' hdir' _ ih => exact .step hd' he hn' hdir' (ih hdir hd)

lemma At.names (h : At disc root path e) (hd : Directory disc (Entry.lba e) (Entry.size e) es) (hf : f ∈ es)
    (hn : Entry.name f ≠ []) (hs : slash ∉ Entry.name f) :
    Names disc (Entry.lba root) (Entry.size root) (components (path ++ slash :: Entry.name f)) f := by
  rw [components_append, components_single hn hs]
  rcases h with ⟨hc, rfl⟩ | ⟨h, hdir⟩
  · rw [hc]
    exact .last hd hf rfl
  · exact h.snoc hdir hd hf rfl

lemma At.size_ge (h : At disc root path e) (hr : 33 ≤ root.size) : 33 ≤ e.size := by
  rcases h with ⟨-, rfl⟩ | ⟨h, -⟩
  · exact hr
  · exact h.size_ge

lemma Root.size_ge (h : Root disc root) : 33 ≤ root.size := by
  obtain ⟨s, -, -, rfl⟩ := h
  exact (by decide : 33 ≤ sectorSize - 156)

lemma At.lookup_eq (h : At disc root path e) (hr : 33 ≤ root.size) (hl : path.length ≤ 255) :
    lookup disc root path = .ok (some e) := by
  by_cases hp : path = [slash]
  · rcases h with ⟨-, rfl⟩ | ⟨h, -⟩
    · rw [lookup, Entry.extentLoc_eq hr, Except.ok_bind, Entry.dataLength_eq hr, Except.ok_bind, if_pos hp]
      rfl
    · rw [hp] at h
      exact absurd (by decide) h.ne_nil
  · rw [Iso9660.lookup_eq hp hl hr]
    rcases h with ⟨hc, rfl⟩ | ⟨h, -⟩
    · rw [hc]; rfl
    · exact h.descend_eq

lemma Root.findPvd_eq (h : Root disc root) :
    ∃ s, findPvd disc ((List.range 16).map (16 + ·)) = some s ∧ root = rootEntry s := by
  obtain ⟨s, hs, hp, rfl⟩ := h
  refine ⟨s, ?_, rfl⟩
  rw [show (List.range 16).map (16 + ·) = 16 :: (List.range 15).map (17 + ·) from rfl, findPvd]
  rw [show UInt32.ofNat 16 = 16 from rfl, hs]
  exact if_pos hp

lemma iso9660ListDir_root (hr : Root disc root) :
    iso9660ListDir disc path = lookup disc root path >>= fun found => match found with
      | none => .ok none
      | some e => do return some (← listFrom disc (← extentLoc e) (← dataLength e) (2 ^ 21 + 1) 0 []) := by
  obtain ⟨s, hs, rfl⟩ := hr.findPvd_eq
  rw [iso9660ListDir, hs]
  rfl

lemma iso9660ListDir_eq (hr : Root disc root) (h : At disc root path e) (hl : path.length ≤ 255)
    (hd : Directory disc (Entry.lba e) (Entry.size e) es) (hc : (children es).length ≤ 64) :
    iso9660ListDir disc path = .ok (some (children es)) := by
  have hsize := h.size_ge hr.size_ge
  have hlook := h.lookup_eq hr.size_ge hl
  obtain ⟨n, hn, hle, hlt, hsec⟩ := hd.sectors
  have hlist : listFrom disc (Entry.lba e) (Entry.size e) (2 ^ 21 + 1) 0 [] = .ok (children es) :=
    listFrom_eq (k := 0) hsec (by simp) (by omega) (by omega) (by omega) (by omega) (by simpa using hc)
  rw [iso9660ListDir_root hr, hlook, Except.ok_bind]
  dsimp only
  rw [Entry.extentLoc_eq hsize, Except.ok_bind, Entry.dataLength_eq hsize, Except.ok_bind, hlist]
  rfl

end

section

variable {disc : Disc} {root e f : Buffer} {isoPath vfsPath name : CString} {files files' : Files}
variable {es l : List Buffer} {lba size : UInt32} {fuel i : Nat}

lemma iso9660CopyFile_eq (hr : Root disc root) (hl : isoPath.length ≤ 255)
    (h : Names disc (Entry.lba root) (Entry.size root) (components isoPath) e) (hf : Entry.isDir e = false)
    (hs : (Entry.size e).toNat < 2 ^ 31) (hread : Readable disc (Entry.lba e) (Entry.size e).toNat) :
    iso9660CopyFile disc isoPath vfsPath files =
      .ok (0, Function.update files vfsPath (some (extent disc (Entry.lba e) (Entry.size e).toNat))) := by
  have hstat : iso9660Read disc isoPath false 0 = .ok ((Entry.size e).toNat, []) := by
    rw [iso9660Read_root hr h.ne_nil hl, h.descend_eq, Except.ok_bind]
    exact readEntry_size h.size_ge hf hs
  rw [iso9660CopyFile, hstat, Except.ok_bind]
  dsimp only
  rw [if_neg (by omega)]
  by_cases h0 : (Entry.size e).toNat = 0
  case pos =>
    rw [if_pos (by rw [h0]; rfl), h0]
    rfl
  have hmax : 1 ≤ Entry.size e := UInt32.le_iff_toNat_le.mpr (Nat.one_le_iff_ne_zero.mpr h0)
  have hdata : iso9660Read disc isoPath true (Entry.size e) =
      .ok ((Entry.size e).toNat, extent disc (Entry.lba e) (Entry.size e).toNat) := by
    have hd := readEntry_data h.size_ge hf hs hread hmax
    rw [min_self] at hd
    rw [iso9660Read_root hr h.ne_nil hl, h.descend_eq, Except.ok_bind]
    exact hd
  rw [if_neg (by omega), Int.toNat_natCast, UInt32.ofNat_toNat, hdata, Except.ok_bind]
  exact if_neg (by omega)

-- The paths that the copy of an entry can change.
def Touched (vfsPath name p : CString) : Prop :=
  p = vfsPath ++ slash :: name ∨ vfsPath ++ slash :: name ++ [slash] <+: p

lemma Touched.key_eq (h : Touched vfsPath name p) (hs : slash ∉ name) : key vfsPath p = name := by
  rcases h with rfl | h
  case inr => exact key_of_prefix hs h
  case inl =>
    rw [show vfsPath ++ slash :: name = under vfsPath [name] by simp [under]]
    exact key_under hs

lemma Touched.prefix (h : Touched vfsPath name p) : vfsPath ++ [slash] <+: p := by
  rcases h with rfl | ⟨r, rfl⟩
  · exact ⟨name, by simp⟩
  · exact ⟨name ++ slash :: r, by simp⟩

-- The files below a directory are in the destination, and nothing else is changed.
structure Copied (disc : Disc) (lba size : UInt32) (vfsPath : CString) (files files' : Files) : Prop where
  placed : ∀ l f, Node disc lba size l f → Entry.isDir f = false →
             files' (under vfsPath l) = some (extent disc (Entry.lba f) (Entry.size f).toNat)
  others : ∀ p, ¬vfsPath ++ [slash] <+: p → files' p = files p

def Placed (disc : Disc) (vfsPath : CString) (e : Buffer) (files' : Files) : Prop :=
  if Entry.isDir e then
    ∀ l f, Node disc (Entry.lba e) (Entry.size e) l f → Entry.isDir f = false →
      files' (under (vfsPath ++ slash :: Entry.name e) l) = some (extent disc (Entry.lba f) (Entry.size f).toNat)
  else files' (vfsPath ++ slash :: Entry.name e) = some (extent disc (Entry.lba e) (Entry.size e).toNat)

lemma Node.ne_nil {l : List CString} (h : Node disc lba size l f) : l ≠ [] := by
  cases h <;> exact List.cons_ne_nil _ _

lemma prefix_under {l : List CString} {path : CString} (h : l ≠ []) : path ++ [slash] <+: under path l := by
  cases l
  case nil => exact absurd rfl h
  case cons c l => exact ⟨c ++ l.flatMap (slash :: ·), by simp [under]⟩

lemma Placed.congr (h : Placed disc vfsPath e files)
    (hf : ∀ p, Touched vfsPath (Entry.name e) p → files' p = files p) : Placed disc vfsPath e files' := by
  unfold Placed at h ⊢
  split
  case isFalse hd =>
    rw [if_neg hd] at h
    rw [hf _ (.inl rfl)]
    exact h
  case isTrue hd =>
    rw [if_pos hd] at h
    intro l f hn hfile
    rw [hf _ (.inr (prefix_under hn.ne_nil))]
    exact h l f hn hfile

-- What the copy of one entry does.
structure Step (disc : Disc) (vfsPath : CString) (e : Buffer) (files files' : Files) : Prop where
  placed : Placed disc vfsPath e files'
  others : ∀ p, ¬Touched vfsPath (Entry.name e) p → files' p = files p

lemma copyOne_eq (hfit : 33 + (e.data 32).toNat ≤ e.size) :
    copyOne disc copy isoPath vfsPath e files =
      if Entry.isDir e then copy (join isoPath (Entry.name e)) (join vfsPath (Entry.name e)) files
      else iso9660CopyFile disc (join isoPath (Entry.name e)) (join vfsPath (Entry.name e)) files := by
  have hsize : 33 ≤ e.size := (Nat.le_add_right _ _).trans hfit
  have hid : fileIdLength e = .ok (e.data 32) := if_pos (show 32 + 1 ≤ e.size by omega)
  have hname : nameOf ((List.range (e.data 32).toNat).map fun i => e.data (33 + i)) = Entry.name e := rfl
  rw [copyOne, hid, Except.ok_bind, Buffer.slice_eq hfit, Except.ok_bind, Entry.fileFlags_eq hsize, Except.ok_bind,
    hname]
  simp only [Entry.isDir, decide_eq_true_eq]

lemma copyEntries_eq (files : Files)
    (hslash : ∀ e ∈ l, slash ∉ Entry.name e) (hnd : (l.map Entry.name).Nodup) (hi : i + l.length < maxEntries)
    (hstep : ∀ e ∈ l, ∀ files, ∃ r files', copyOne disc copy isoPath vfsPath e files = .ok (r, files') ∧
      Step disc vfsPath e files files') :
    ∃ files', copyEntries disc copy isoPath vfsPath l i files = .ok files' ∧
      (∀ e ∈ l, Placed disc vfsPath e files') ∧
      ∀ p, (∀ e ∈ l, ¬Touched vfsPath (Entry.name e) p) → files' p = files p := by
  induction l generalizing i files
  case nil => exact ⟨files, if_pos hi, (fun e he => by cases he), fun _ _ => rfl⟩
  case cons e l ih =>
    have hmem : ∀ f ∈ l, f ∈ e :: l := fun f hf => List.mem_cons_of_mem _ hf
    obtain ⟨r, files1, h1, hs1⟩ := hstep e List.mem_cons_self files
    rw [List.length_cons] at hi
    rw [List.map_cons, List.nodup_cons] at hnd
    have hi' : i + 1 + l.length < maxEntries := by omega
    obtain ⟨files2, h2, hp2, ho2⟩ := ih files1 (fun f hf => hslash f (hmem f hf)) hnd.right hi'
      fun f hf => hstep f (hmem f hf)
    -- The later entries have other names.
    have hkeep : ∀ p, Touched vfsPath (Entry.name e) p → files2 p = files1 p := by
      intro p hp
      refine ho2 p fun f hf hpf => hnd.left ?_
      rw [← hp.key_eq (hslash e List.mem_cons_self), hpf.key_eq (hslash f (hmem f hf))]
      exact List.mem_map_of_mem hf
    refine ⟨files2, ?_, ?_, ?_⟩
    · rw [copyEntries, h1, Except.ok_bind]
      exact h2
    · intro f hf
      cases hf
      case head => exact hs1.placed.congr hkeep
      case tail hf => exact hp2 f hf
    · intro p hp
      rw [ho2 p fun f hf => hp f (hmem f hf), hs1.others p (hp e List.mem_cons_self)]

-- The paths of the entries below a directory have less than 256 characters.
def Short (disc : Disc) (lba size : UInt32) (isoPath vfsPath : CString) : Prop :=
  ∀ l f, Node disc lba size l f → (under isoPath l).length < 256 ∧ (under vfsPath l).length < 256

lemma under_singleton : under path [name] = path ++ slash :: name := by
  simp [under]

lemma Short.child (h : Short disc lba size isoPath vfsPath) (hd : Directory disc lba size es)
    (he : e ∈ children es) (hdir : Entry.isDir e) :
    Short disc (Entry.lba e) (Entry.size e) (isoPath ++ slash :: Entry.name e) (vfsPath ++ slash :: Entry.name e) := by
  intro l f hf
  rw [← under_cons, ← under_cons]
  exact h _ f (.deeper hd he hdir hf)

lemma nodup_names (hd : Directory disc lba size es) : ((children es).map Entry.name).Nodup := by
  have hsub : ((children es).map fun e => canonical (Entry.name e)).Nodup :=
    hd.distinct.sublist (List.filter_sublist.map _)
  refine List.Nodup.of_map canonical ?_
  rwa [List.map_map]

lemma copyOne_step (hr : Root disc root)
    (hat : At disc root isoPath f) (hd : Directory disc (Entry.lba f) (Entry.size f) es) (he : e ∈ children es)
    (hname : Entry.name e ≠ [] ∧ slash ∉ Entry.name e)
    (hfile : Entry.isDir e = false → (Entry.size e).toNat < 2 ^ 31 ∧ Readable disc (Entry.lba e) (Entry.size e).toNat)
    (hshort : Short disc (Entry.lba f) (Entry.size f) isoPath vfsPath)
    (hcopy : Entry.isDir e → ∃ files',
      copy (isoPath ++ slash :: Entry.name e) (vfsPath ++ slash :: Entry.name e) files = .ok (0, files') ∧
      Copied disc (Entry.lba e) (Entry.size e) (vfsPath ++ slash :: Entry.name e) files files') :
    ∃ r files', copyOne disc copy isoPath vfsPath e files = .ok (r, files') ∧ Step disc vfsPath e files files' := by
  have hmem := mem_of_mem_children he
  obtain ⟨hli, hlv⟩ := hshort _ e (.child hd he)
  rw [under_singleton] at hli hlv
  rw [copyOne_eq (hd.fits hmem), join_eq hli, join_eq hlv]
  cases hdir : Entry.isDir e
  case true =>
    obtain ⟨files', h, hc⟩ := hcopy hdir
    refine ⟨0, files', h, ?_, fun p hp => hc.others p fun hpre => hp (.inr hpre)⟩
    rw [Placed, if_pos hdir]
    exact hc.placed
  case false =>
    obtain ⟨hs, hread⟩ := hfile hdir
    have hnames := hat.names hd hmem hname.left hname.right
    rw [if_neg Bool.false_ne_true, iso9660CopyFile_eq hr (Nat.le_of_lt_succ hli) hnames hdir hs hread]
    refine ⟨0, _, rfl, ?_, fun p hp => Function.update_of_ne (fun h => hp (.inl h)) _ _⟩
    rw [Placed, if_neg (by rw [hdir]; exact Bool.false_ne_true)]
    exact Function.update_self _ _ _

lemma Tree.copy_eq (hr : Root disc root) (ht : Tree disc Small lba size) (hat : At disc root isoPath e)
    (hlba : Entry.lba e = lba) (hsize : Entry.size e = size) (hl : isoPath.length ≤ 255)
    (hshort : Short disc lba size isoPath vfsPath) (hfuel : 256 ≤ isoPath.length + fuel) :
    ∃ files', iso9660Copy disc fuel isoPath vfsPath files = .ok (0, files') ∧
      Copied disc lba size vfsPath files files' := by
  induction ht generalizing e isoPath vfsPath files fuel
  case intro lba size es hd hp hn hf _ ih =>
    subst hlba hsize
    rcases fuel with _ | fuel
    · omega
    have hstep : ∀ c ∈ children es, ∀ files, ∃ r files',
        copyOne disc (iso9660Copy disc fuel) isoPath vfsPath c files = .ok (r, files') ∧
          Step disc vfsPath c files files' := by
      intro c hc files
      refine copyOne_step hr hat hd hc (hn c hc) (fun h => ⟨hp.right c hc h, hf c hc h⟩) hshort fun hdir => ?_
      have hnames := hat.names hd (mem_of_mem_children hc) (hn c hc).left (hn c hc).right
      have hlen := (hshort _ c (.child hd hc)).left
      rw [under_singleton] at hlen
      refine ih c hc hdir (.inr ⟨hnames, hdir⟩) rfl rfl (Nat.le_of_lt_succ hlen) (hshort.child hd hc hdir) ?_
      rw [List.length_append, List.length_cons]
      omega
    obtain ⟨files', hc, hplaced, hothers⟩ := copyEntries_eq (i := 0) files
      (fun c hc => (hn c hc).right) (nodup_names hd) (show 0 + (children es).length < 65 by have := hp.left; omega)
      hstep
    refine ⟨files', ?_, fun l f hnode hfile => ?_, fun p hpre => hothers p fun c _ ht => hpre ht.prefix⟩
    · rw [iso9660Copy, iso9660ListDir_eq hr hat hl hd hp.left, Except.ok_bind]
      dsimp only
      rw [hc]
      rfl
    · cases hnode
      case child es' hd' he =>
        have hpl := hplaced f (hd'.unique hd ▸ he)
        rw [Placed, if_neg (by rw [hfile]; exact Bool.false_ne_true)] at hpl
        rw [under_singleton]
        exact hpl
      case deeper es' c l he hdir hd' h =>
        have hpl := hplaced c (hd'.unique hd ▸ he)
        rw [Placed, if_pos hdir] at hpl
        rw [under_cons]
        exact hpl l f h hfile

lemma Node.tree {P : List Buffer → Prop} {l : List CString} (h : Node disc lba size l f) (ht : Tree disc P lba size)
    (hat : At disc root isoPath e) (hlba : Entry.lba e = lba) (hsize : Entry.size e = size) (hdir : Entry.isDir f) :
    At disc root (under isoPath l) f ∧ Tree disc P (Entry.lba f) (Entry.size f) := by
  induction h generalizing e isoPath
  case child es f hd he =>
    subst hlba hsize
    cases ht
    case intro es' hp hn hf h hd' =>
      rw [hd.unique hd'] at he
      rw [under_singleton]
      exact ⟨.inr ⟨hat.names hd' (mem_of_mem_children he) (hn f he).left (hn f he).right, hdir⟩, h f he hdir⟩
  case deeper es c l f hd he hcdir hnode ih =>
    subst hlba hsize
    cases ht
    case intro es' hp hn hf h hd' =>
      rw [hd.unique hd'] at he
      rw [under_cons]
      have hnames := hat.names hd' (mem_of_mem_children he) (hn c he).left (hn c he).right
      exact ih (h c he hcdir) (.inr ⟨hnames, hcdir⟩) rfl rfl hdir

end

lemma Root.lookup_eq (hr : Root disc root) (hc : components isoPath ≠ []) (hl : isoPath.length < 256) :
    lookup disc root isoPath = descend disc root (Entry.lba root) (Entry.size root) (components isoPath) := by
  refine Iso9660.lookup_eq (fun hp => hc ?_) (Nat.le_of_lt_succ hl) hr.size_ge
  rw [hp]
  rfl

lemma Missing.copy_eq (h : Missing disc (Entry.lba root) (Entry.size root) (components isoPath)) (hr : Root disc root)
    (hl : isoPath.length < 256) : iso9660ListDir disc isoPath = .ok none ∧
    iso9660Copy disc (fuel + 1) isoPath vfsPath files = .ok (-1, files) := by
  have hlist : iso9660ListDir disc isoPath = .ok none := by
    rw [iso9660ListDir_root hr, hr.lookup_eq h.ne_nil hl, h.descend_eq]
    rfl
  refine ⟨hlist, ?_⟩
  rw [iso9660Copy, hlist, Except.ok_bind]
  dsimp only
  rw [iso9660CopyFile, iso9660Read_root hr h.ne_nil (Nat.le_of_lt_succ hl), h.descend_eq]
  rfl

-- A copy does not change the files with a shorter path.
def Longer (vfsPath : CString) (files files' : Files) : Prop :=
  ∀ p, p.length < 255 → p.length < vfsPath.length → files' p = files p

lemma copyFile_longer {r : Int × Files} (h : iso9660CopyFile disc isoPath vfsPath files = .ok r) :
    Longer vfsPath files r.2 := by
  have hset (data : List UInt8) : Longer vfsPath files (Function.update files vfsPath (some data)) :=
    fun p _ hp => Function.update_of_ne (fun he => by rw [he] at hp; omega) ..
  obtain ⟨⟨size, _⟩, -, h⟩ := Except.of_bind h
  dsimp only at h
  split at h
  · cases h
    exact fun _ _ _ => rfl
  split at h
  · cases h
    exact hset []
  obtain ⟨⟨read, data⟩, -, h⟩ := Except.of_bind h
  dsimp only at h
  split at h
  · cases h
    exact fun _ _ _ => rfl
  · cases h
    exact hset data

lemma copyEntries_longer {copy : CString → CString → Files → Except Fault (Int × Files)}
    (hcopy : ∀ {iso vfs files r}, copy iso vfs files = .ok r → Longer vfs files r.2)
    (h : copyEntries disc copy isoPath vfsPath l i files = .ok files') {p : CString} (hp : p.length < 255)
    (hle : p.length ≤ vfsPath.length) : files' p = files p := by
  induction l generalizing i files
  case nil =>
    rw [copyEntries] at h
    split at h
    · cases h
      rfl
    · cases h
  case cons e l ih =>
    obtain ⟨⟨r, files1⟩, h1, h2⟩ := Except.of_bind h
    rw [ih h2]
    obtain ⟨n, -, h1⟩ := Except.of_bind h1
    obtain ⟨name, -, h1⟩ := Except.of_bind h1
    obtain ⟨flags, -, h1⟩ := Except.of_bind h1
    have hjoin : p.length < (join vfsPath (nameOf name)).length := by
      rw [join, List.length_take, List.length_append, List.length_cons]
      omega
    split at h1
    · exact hcopy h1 p hp hjoin
    · exact copyFile_longer h1 p hp hjoin

lemma copy_longer {r : Int × Files} (h : iso9660Copy disc fuel isoPath vfsPath files = .ok r) :
    Longer vfsPath files r.2 := by
  induction fuel generalizing isoPath vfsPath files r
  case zero => cases h
  case succ fuel ih =>
    obtain ⟨_ | entries, -, h⟩ := Except.of_bind h
    · exact copyFile_longer h
    · obtain ⟨files', hc, h⟩ := Except.of_bind h
      cases h
      exact fun p hp hlt => copyEntries_longer ih hc hp hlt.le

-- A file is listed as a directory, and it is not copied.
lemma Names.copy_of_file (h : Names disc (Entry.lba root) (Entry.size root) (components isoPath) e)
    (hr : Root disc root) (hl : isoPath.length < 256) (hv : vfsPath.length < 255) {r : Int × Files}
    (hc : iso9660Copy disc fuel isoPath vfsPath files = .ok r) : r.1 = 0 ∧ r.2 vfsPath = files vfsPath := by
  cases fuel
  case zero => cases hc
  case succ fuel =>
    obtain ⟨found, hlist, hc⟩ := Except.of_bind hc
    rw [iso9660ListDir_root hr, hr.lookup_eq h.ne_nil hl, h.descend_eq, Except.ok_bind] at hlist
    obtain ⟨lba, -, hlist⟩ := Except.of_bind hlist
    obtain ⟨size, -, hlist⟩ := Except.of_bind hlist
    obtain ⟨entries, -, hlist⟩ := Except.of_bind hlist
    cases hlist
    obtain ⟨files', hentries, he⟩ := Except.of_bind hc
    cases he
    exact ⟨rfl, copyEntries_longer copy_longer hentries hv le_rfl⟩

-- The listing of a path has at most 64 entries.
def Listed (disc : Disc) (path : CString) : Prop :=
  ∃ entries, iso9660ListDir disc path = .ok (some entries) ∧ entries.length ≤ 64

lemma sampleChildren :
    children [entryAt sampleDirectory 0, entryAt sampleDirectory 34] = [entryAt sampleDirectory 34] := by
  have h1 : Entry.isSpecial (entryAt sampleDirectory 0) = true := by decide +kernel
  have h2 : Entry.isSpecial (entryAt sampleDirectory 34) = false := by decide +kernel
  simp [children, h1, h2]

-- A sector with 60 entries.
def fullSector (base : UInt8) : Nat → UInt8 := fun i =>
  if 2040 ≤ i then 0
  else if i % 34 = 0 then 34
  else if i % 34 = 32 then 1
  else if i % 34 = 33 then base + UInt8.ofNat (i / 34)
  else 0

def fullDisc : Disc := fun lba =>
  if lba = 16 then some fun i => if i = 167 then 16 else sampleRoot i
  else if lba = 20 then some (fullSector 0x80)
  else if lba = 21 then some (fullSector 0xC0)
  else none

def fullEntries (base : UInt8) (m k : Nat) : List Buffer :=
  (List.range' m k).map fun j => entryAt (fullSector base) (34 * j)

lemma fullSector_records (h : m + k = 60) :
    Records (fullSector base) (34 * m) (fullEntries base m k) := by
  induction k generalizing m
  case zero =>
    have h0 : fullSector base (34 * m) = 0 := if_pos (by omega)
    exact .nil (show 34 * m ≤ 2048 by omega) fun _ => h0
  case succ k ih =>
    have h1 : fullSector base (34 * m) = 34 := (if_neg (by omega)).trans (if_pos (by omega))
    have h2 : fullSector base (34 * m + 32) = 1 :=
      (if_neg (by omega)).trans ((if_neg (by omega)).trans (if_pos (by omega)))
    have h3 : (34 : UInt8).toNat = 34 := rfl
    have hs := ih (m := m + 1) (by omega)
    rw [fullEntries, List.range'_succ, List.map_cons]
    refine .cons (by rw [h1]; decide) (by rw [h1, h2]; decide) ?_ ?_
    · rw [h1]
      show 34 * m + 34 ≤ 2048
      omega
    · rw [h1]
      exact hs

end Iso9660
