import VoidFrame.Fs.NTFS.Namespace

-- The names of a volume form a tree, if nothing is created twice and only leaves are deleted.

namespace NTFS

open Function (update update_of_ne update_self)

variable {names : Names} {fn : FileName} {s s' : Mft} {n p cur : Nat} {name nm path : CString} {flags : UInt16}
  {l : List CString}

lemma FileName.isChild_iff :
    fn.isChild p nm ↔ fn.parent = p ∧ fn.name ≠ [] ∧ fn.name = nm.map fun c => c.val.toUInt16 := by
  unfold FileName.isChild ntfsUtf16EqualsAscii
  simp [and_assoc]

lemma any_isChild {o : Option FileName} : o.any (·.isChild p nm) ↔ ∃ fn, o = some fn ∧ fn.isChild p nm := by
  cases o <;> simp

lemma ntfsFindChild_ne_zero (h : ntfsFindChild names p nm ≠ 0) :
    ntfsFindChild names p nm < maxScan ∧
    ∃ fn, names (ntfsFindChild names p nm) = some fn ∧ fn.isChild p nm := by
  unfold ntfsFindChild at *
  cases hf : (List.range maxScan).find? fun i => (names i).any (·.isChild p nm)
  case none => rw [hf] at h; exact absurd rfl h
  case some i =>
    refine ⟨List.mem_range.mp (List.mem_of_find?_eq_some hf), ?_⟩
    have hi := List.find?_some hf
    exact any_isChild.mp hi

lemma ntfsFindChild_eq (hn : names n = some fn) (hc : fn.isChild p nm) (hlt : n < maxScan)
    (hu : ∀ i fn', names i = some fn' → fn'.isChild p nm → i = n) : ntfsFindChild names p nm = n := by
  unfold ntfsFindChild
  cases hf : (List.range maxScan).find? fun i => (names i).any (·.isChild p nm)
  case none =>
    have := List.find?_eq_none.mp hf n (List.mem_range.mpr hlt)
    simp [hn, hc] at this
  case some i =>
    have hi := List.find?_some hf
    obtain ⟨fn', hfn', hc'⟩ := any_isChild.mp hi
    exact hu i fn' hfn' hc'

lemma ntfsFindChild_eq_zero (h : ∀ i fn, names i = some fn → ¬fn.isChild p nm) :
    ntfsFindChild names p nm = 0 := by
  by_contra hne
  obtain ⟨-, fn, hfn, hc⟩ := ntfsFindChild_ne_zero hne
  exact h _ fn hfn hc

lemma ntfsFindChild_congr
    (h : ∀ i, (names' i).any (·.isChild p nm) = (names i).any (·.isChild p nm)) :
    ntfsFindChild names' p nm = ntfsFindChild names p nm := by
  unfold ntfsFindChild
  simp only [h]

-- A name that is created for the record `n`.
structure Adds (names names' : Names) (n : Nat) (fn : FileName) : Prop where
  free : names n = none
  eq : names' = update names n (some fn)
  fresh : ∀ i fn', names i = some fn' → fn' ≠ fn

namespace Adds

variable {names' : Names} (h : Adds names names' n fn)
include h

lemma mem (hi : names' i = some fn') : i = n ∧ fn' = fn ∨ i ≠ n ∧ names i = some fn' := by
  rw [h.eq] at hi
  by_cases hin : i = n
  · rw [hin, update_self] at hi
    exact .inl ⟨hin, (Option.some.inj hi).symm⟩
  · rw [update_of_ne hin] at hi
    exact .inr ⟨hin, hi⟩

lemma findChild_self (hc : fn.isChild p nm) (hlt : n < maxScan) : ntfsFindChild names' p nm = n := by
  refine ntfsFindChild_eq (by rw [h.eq, update_self]) hc hlt fun i fn' hi hc' => ?_
  obtain ⟨rfl, -⟩ | ⟨-, hi⟩ := h.mem hi
  · rfl
  · rw [FileName.isChild_iff] at hc hc'
    refine absurd ?_ (h.fresh i fn' hi)
    cases fn
    cases fn'
    simp_all

lemma findChild_of_ne_zero (hne : ntfsFindChild names p nm ≠ 0) :
    ntfsFindChild names' p nm = ntfsFindChild names p nm := by
  obtain ⟨-, fn', hfn', hc'⟩ := ntfsFindChild_ne_zero hne
  refine ntfsFindChild_congr fun i => ?_
  rw [h.eq]
  by_cases hin : i = n
  · rw [hin, update_self, h.free]
    cases hc : fn.isChild p nm
    case false => simp [hc]
    rw [FileName.isChild_iff] at hc hc'
    refine absurd ?_ (h.fresh _ fn' hfn')
    cases fn
    cases fn'
    simp_all
  · rw [update_of_ne hin]

lemma walk_of_walkParent (hlt : n < maxScan) (hn : n ≠ 0)
    (hw : walkParent names cur l = some (p, nm)) (hc : fn.isChild p nm) : walk names' cur l = n := by
  induction l generalizing cur
  case nil => cases hw
  case cons name l ih =>
    cases l
    case nil =>
      unfold walkParent at hw
      split at hw
      case isTrue => cases hw
      case isFalse hlen =>
        cases hw
        rw [walk, if_neg hlen, h.findChild_self hc hlt, if_neg hn, walk]
    case cons name' l =>
      unfold walkParent at hw
      split at hw
      case isTrue => cases hw
      case isFalse hlen =>
        dsimp only at hw
        split at hw
        case isTrue => cases hw
        case isFalse hne =>
          rw [walk, if_neg hlen, h.findChild_of_ne_zero hne, if_neg hne]
          exact ih hw

end Adds

-- A record that nothing has for its parent loses its name.
structure Removes (names names' : Names) (n : Nat) : Prop where
  eq : names' = update names n none
  leaf : ∀ i fn, names i = some fn → fn.parent ≠ n
  unique : ∀ i fn, names i = some fn → names n = some fn → i = n
  lt : n < maxScan
  ne : n ≠ 0

namespace Removes

variable {names' : Names} (h : Removes names names' n)
include h

lemma findChild_leaf : ntfsFindChild names n nm = 0 :=
  ntfsFindChild_eq_zero fun i fn hi hc => h.leaf i fn hi (FileName.isChild_iff.mp hc).1

lemma findChild : ntfsFindChild names' p nm =
    if ntfsFindChild names p nm = n then 0 else ntfsFindChild names p nm := by
  have hfn (i : Nat) (hin : i ≠ n) : names' i = names i := by
    rw [h.eq, update_of_ne hin]
  cases hc : (names n).any (·.isChild p nm)
  case true =>
    obtain ⟨fn, hn, hc⟩ := any_isChild.mp hc
    have hu (i : Nat) (fn' : FileName) (hi : names i = some fn') (hc' : fn'.isChild p nm) : i = n := by
      refine h.unique i fn' hi ?_
      rw [FileName.isChild_iff] at hc hc'
      rw [hn]
      cases fn
      cases fn'
      simp_all
    rw [if_pos (ntfsFindChild_eq hn hc h.lt hu)]
    refine ntfsFindChild_eq_zero fun i fn' hi hc' => ?_
    by_cases hin : i = n
    · rw [h.eq, hin, update_self] at hi
      cases hi
    · exact hin (hu i fn' (hfn i hin ▸ hi) hc')
  case false =>
    have hne : ntfsFindChild names p nm ≠ n := by
      intro heq
      obtain ⟨-, fn, hn, hc'⟩ := ntfsFindChild_ne_zero (heq ▸ h.ne)
      rw [heq] at hn
      simp [hn, hc'] at hc
    rw [if_neg hne]
    refine ntfsFindChild_congr fun i => ?_
    by_cases hin : i = n
    · rw [hin, hc, h.eq, update_self]
      rfl
    · rw [hfn i hin]

-- Exactly what was found in the record is not found any more.
lemma walk_eq (hcur : cur ≠ n) :
    walk names' cur l = if walk names cur l = n then 0 else walk names cur l := by
  induction l generalizing cur
  case nil => rw [walk, walk, if_neg hcur]
  case cons name l ih =>
    rw [walk, walk]
    split
    case isTrue => rw [if_neg h.ne.symm]
    rw [h.findChild]
    dsimp only
    by_cases hchild : ntfsFindChild names cur name = n
    · rw [if_pos hchild, if_pos rfl, hchild, if_neg h.ne]
      rcases l with _ | ⟨name', l⟩
      · rw [walk, if_pos rfl]
      have h0 : walk names n (name' :: l) = 0 := by
        rw [walk, h.findChild_leaf]
        split <;> rfl
      rw [h0, if_neg h.ne.symm]
    · rw [if_neg hchild]
      by_cases h0 : ntfsFindChild names cur name = 0
      · rw [if_pos h0, if_pos h0, if_neg h.ne.symm]
      · rw [if_neg h0, if_neg h0]
        exact ih hchild

lemma ntfsPathToMftRecord_eq (hroot : rootRecord ≠ n) :
    ntfsPathToMftRecord names' path =
      if ntfsPathToMftRecord names path = n then 0 else ntfsPathToMftRecord names path := by
  unfold ntfsPathToMftRecord
  split
  case h_1 => rw [if_neg h.ne.symm]
  case h_2 c =>
    by_cases hc : c = CString.slash
    · rw [if_pos hc, if_neg hroot]
    · rw [if_neg hc, if_neg h.ne.symm]
  case h_3 c _ _ =>
    by_cases hc : c = CString.slash
    · rw [if_pos hc, if_pos hc]
      exact h.walk_eq hroot
    · rw [if_neg hc, if_neg hc, if_neg h.ne.symm]

end Removes

-- No record has the name that is created, and the scan reaches the record that is given to it.
def CreatesNew (s : Mft) (path : CString) : Prop :=
  ∀ r ∈ ntfsResolveParentAndName s.names path,
    (∀ i < s.count, ∀ fn ∈ s.names i, ¬fn.isChild r.1 r.2) ∧
    ∀ n ∈ s.bitmap.findZero s.bitmapSize, n < maxScan

-- The record that is deleted is not the root, and no record has it for its parent.
def DeletesLeaf (s : Mft) (path : CString) : Prop :=
  ntfsPathToMftRecord s.names path ≠ rootRecord ∧
  ∀ i < s.count, ∀ fn ∈ s.names i, fn.parent ≠ ntfsPathToMftRecord s.names path

def Sound (s : Mft) : Action → Prop
  | .createFile path => CreatesNew s path
  | .createDir path => CreatesNew s path
  | .delete path => DeletesLeaf s path

namespace Mft

lemma names_eq_some : s.names i = some fn ↔ s.inUse i ∧ (s.records i).fileName = some fn := by
  unfold names
  split <;> simp_all

lemma inUse_of_findChild (h : ntfsFindChild s.names p nm ≠ 0) : s.inUse (ntfsFindChild s.names p nm) := by
  obtain ⟨-, fn, hfn, -⟩ := ntfsFindChild_ne_zero h
  exact (names_eq_some.mp hfn).1

lemma inUse_of_walkParent (hw : walkParent s.names cur l = some (p, nm)) (hcur : s.inUse cur) :
    s.inUse p ∧ nm ∈ l := by
  induction l generalizing cur
  case nil => cases hw
  case cons name l ih =>
    cases l
    case nil =>
      unfold walkParent at hw
      split at hw
      case isTrue => cases hw
      cases hw
      exact ⟨hcur, List.mem_singleton_self _⟩
    case cons name' l =>
      unfold walkParent at hw
      split at hw
      case isTrue => cases hw
      dsimp only at hw
      split at hw
      case isTrue => cases hw
      case isFalse hne =>
        obtain ⟨hp, hmem⟩ := ih hw (inUse_of_findChild hne)
        exact ⟨hp, List.mem_cons_of_mem _ hmem⟩

lemma inUse_of_resolve (hc : Consistent s) (h : ntfsResolveParentAndName s.names path = some (p, nm)) :
    s.inUse p ∧ nm ≠ [] := by
  unfold ntfsResolveParentAndName at h
  split at h
  case h_1 => cases h
  split at h
  case isFalse => cases h
  obtain ⟨hp, hmem⟩ := inUse_of_walkParent h hc.root
  exact ⟨hp, by simpa using (List.mem_filter.mp hmem).2⟩

def withName (s : Mft) (n : Nat) (flags : UInt16) (fn : FileName) : Mft :=
  { s with
    bitmap := s.bitmap.set n
    records := update s.records n { flags, fileName := some fn } }

def withoutName (s : Mft) (n : Nat) : Mft :=
  { s with
    records := update s.records n { s.records n with flags := 0 }
    bitmap := if n < s.bitmapSize * 8 then s.bitmap.clear n else s.bitmap }

lemma not_inUse_of_findZero (hc : Consistent s) (h : s.bitmap.findZero s.bitmapSize = some n) :
    n < s.bitmapSize * 8 ∧ s.inUse n = false := by
  obtain ⟨hlt, hget⟩ := Bitmap.findZero_eq_some h
  refine ⟨hlt, Bool.eq_false_iff.mpr fun hn => ?_⟩
  have := hc.bitmap n hlt hn
  simp [hget] at this

lemma create_cases (hc : Consistent s) (flags : UInt16) (path : CString) :
    s.create flags path = (none, s) ∨ ∃ p nm n, ntfsResolveParentAndName s.names path = some (p, nm) ∧
      s.bitmap.findZero s.bitmapSize = some n ∧ n ≠ 0 ∧
      s.create flags path =
        (some n, s.withName n flags { parent := p, name := nm.map fun c => c.val.toUInt16 }) := by
  unfold create ntfsAllocateMftRecord
  split
  case h_1 => exact .inl rfl
  case h_2 p nm hr =>
    rcases hz : s.bitmap.findZero s.bitmapSize with _ | n
    · exact .inl rfl
    have hn : n ≠ 0 := by
      rintro rfl
      have := (not_inUse_of_findZero hc hz).2
      simp [hc.mft] at this
    refine .inr ⟨p, nm, n, hr, rfl, hn, ?_⟩
    dsimp only
    rw [if_neg hn]
    rfl

lemma names_withName (hf : flags ≠ 0) :
    (s.withName n flags fn).names = update s.names n (some fn) := by
  funext i
  by_cases hi : i = n
  · rw [hi, update_self]
    simp [names, inUse, withName, hf]
  · rw [update_of_ne hi]
    simp [names, inUse, withName, update_of_ne hi]

lemma names_withoutName : (s.withoutName n).names = update s.names n none := by
  funext i
  by_cases hi : i = n
  · rw [hi, update_self]
    simp [names, inUse, withoutName]
  · rw [update_of_ne hi]
    simp [names, inUse, withoutName, update_of_ne hi]

lemma inUse_withName (hf : flags ≠ 0) :
    (s.withName n flags fn).inUse i = (decide (i = n) || s.inUse i) := by
  by_cases hi : i = n <;> simp [inUse, withName, hi, hf]

lemma inUse_withoutName : (s.withoutName n).inUse i = (!decide (i = n) && s.inUse i) := by
  by_cases hi : i = n <;> simp [inUse, withoutName, hi]

end Mft

lemma Consistent.adds (hc : Consistent s) (hn : CreatesNew s path) (hf : flags ≠ 0)
    (hr : ntfsResolveParentAndName s.names path = some (p, nm))
    (hz : s.bitmap.findZero s.bitmapSize = some n) :
    Adds s.names (s.withName n flags { parent := p, name := nm.map fun c => c.val.toUInt16 }).names n
      { parent := p, name := nm.map fun c => c.val.toUInt16 } where
  free := by
    rw [Mft.names, (Mft.not_inUse_of_findZero hc hz).2]
    rfl
  eq := Mft.names_withName hf
  fresh := by
    rintro i fn' hi rfl
    refine (hn (p, nm) hr).1 i (hc.count i (Mft.names_eq_some.mp hi).1) _ hi ?_
    rw [FileName.isChild_iff]
    exact ⟨rfl, fun h => (Mft.inUse_of_resolve hc hr).2 (List.map_eq_nil_iff.mp h), rfl⟩

lemma Consistent.create (hc : Consistent s) (hn : CreatesNew s path) (hf : flags ≠ 0) :
    Consistent (s.create flags path).2 := by
  obtain h | ⟨p, nm, n, hr, hz, hne, h⟩ := Mft.create_cases hc flags path
  · rw [h]
    exact hc
  · rw [h]
    have hadds := hc.adds hn hf hr hz
    obtain ⟨hlt, hfree⟩ := Mft.not_inUse_of_findZero hc hz
    constructor
    case bitmap =>
      intro i hi hin
      rw [Mft.inUse_withName hf, Bool.or_eq_true] at hin
      unfold Mft.withName
      rw [Bitmap.get_set, Bool.or_eq_true]
      exact hin.imp id (hc.bitmap i hi)
    case size => exact hc.size
    case count =>
      intro i hin
      rw [Mft.inUse_withName hf, Bool.or_eq_true, decide_eq_true_eq] at hin
      obtain rfl | hin := hin
      · exact Nat.lt_of_lt_of_le hlt hc.size
      · exact hc.count i hin
    case mft => simp [Mft.inUse_withName hf, hc.mft]
    case root => simp [Mft.inUse_withName hf, hc.root]
    case unique =>
      intro i j fn hi hj
      obtain ⟨rfl, hfn⟩ | ⟨-, hi'⟩ := hadds.mem hi
      · obtain ⟨rfl, -⟩ | ⟨-, hj'⟩ := hadds.mem hj
        · rfl
        · exact absurd hfn (hadds.fresh j fn hj')
      · obtain ⟨-, hfn⟩ | ⟨-, hj'⟩ := hadds.mem hj
        · exact absurd hfn (hadds.fresh i fn hi')
        · exact hc.unique i j fn hi' hj'
    case parents =>
      intro i fn hi
      rw [Mft.inUse_withName hf, Bool.or_eq_true]
      obtain ⟨-, rfl⟩ | ⟨-, hi⟩ := hadds.mem hi
      · exact .inr (Mft.inUse_of_resolve hc hr).1
      · exact .inr (hc.parents i fn hi)

lemma Consistent.created (hc : Consistent s) (hn : CreatesNew s path) (hf : flags ≠ 0)
    (h : s.create flags path = (some n, s')) :
    ntfsPathToMftRecord s'.names path = n ∧ ∀ i fn, s'.names i = some fn → fn.parent ≠ n := by
  obtain h' | ⟨p, nm, n', hr, hz, hne, h'⟩ := Mft.create_cases hc flags path
  · rw [h'] at h
    cases h
  · cases h'.symm.trans h
    have hadds := hc.adds hn hf hr hz
    obtain ⟨hp, hnm⟩ := Mft.inUse_of_resolve hc hr
    obtain ⟨-, hfree⟩ := Mft.not_inUse_of_findZero hc hz
    constructor
    · have hlt := (hn (p, nm) hr).2 n hz
      unfold ntfsResolveParentAndName at hr
      unfold ntfsPathToMftRecord
      split at hr
      case h_1 => cases hr
      case h_2 c q =>
        split at hr
        case isFalse => cases hr
        case isTrue hslash =>
          rcases q with _ | ⟨d, q⟩
          · cases hr
          dsimp only
          rw [if_pos hslash]
          exact hadds.walk_of_walkParent hlt hne hr
            (FileName.isChild_iff.mpr ⟨rfl, fun h => hnm (List.map_eq_nil_iff.mp h), rfl⟩)
    · rintro i fn hi rfl
      have huse : s.inUse fn.parent := by
        obtain ⟨-, rfl⟩ | ⟨-, hi⟩ := hadds.mem hi
        · exact hp
        · exact hc.parents i fn hi
      rw [hfree] at huse
      cases huse

lemma walk_lt (h : walk names cur l ≠ 0) : walk names cur l = cur ∨ walk names cur l < maxScan := by
  induction l generalizing cur
  case nil => exact .inl rfl
  case cons name l ih =>
    rw [walk] at h ⊢
    split at h
    case isTrue => exact absurd rfl h
    case isFalse hlen =>
      dsimp only at h ⊢
      split at h
      case isTrue => exact absurd rfl h
      case isFalse hne =>
        rw [if_neg hlen, if_neg hne]
        obtain heq | hlt := ih h
        · rw [heq]
          exact .inr (ntfsFindChild_ne_zero hne).1
        · exact .inr hlt

lemma ntfsPathToMftRecord_lt (h : ntfsPathToMftRecord names path ≠ 0) :
    ntfsPathToMftRecord names path < maxScan := by
  unfold ntfsPathToMftRecord at h ⊢
  split at h
  · exact absurd rfl h
  · split at h
    case isFalse => exact absurd rfl h
    case isTrue hc =>
      rw [if_pos hc]
      decide
  · split at h
    case isFalse => exact absurd rfl h
    case isTrue hc =>
      rw [if_pos hc]
      obtain heq | hlt := walk_lt h
      · rw [heq]
        decide
      · exact hlt

lemma Consistent.removes (hc : Consistent s) (hl : DeletesLeaf s path)
    (hne : ntfsPathToMftRecord s.names path ≠ 0) :
    Removes s.names (s.withoutName (ntfsPathToMftRecord s.names path)).names
      (ntfsPathToMftRecord s.names path) where
  eq := Mft.names_withoutName
  leaf i fn hi := hl.2 i (hc.count i (Mft.names_eq_some.mp hi).1) fn hi
  unique i fn h h' := hc.unique i _ fn h h'
  lt := ntfsPathToMftRecord_lt hne
  ne := hne

lemma Consistent.delete (hc : Consistent s) (hl : DeletesLeaf s path) : Consistent (s.ntfsDelete path).2 := by
  unfold Mft.ntfsDelete
  dsimp only
  split
  case isTrue => exact hc
  case isFalse hne =>
    have hrem := hc.removes hl hne
    change Consistent (s.withoutName (ntfsPathToMftRecord s.names path))
    have hroot := hl.1.symm
    set n := ntfsPathToMftRecord s.names path
    have hmem {i : Nat} {fn : FileName} (hi : (s.withoutName n).names i = some fn) : s.names i = some fn := by
      rw [Mft.names_withoutName] at hi
      by_cases hin : i = n
      · rw [hin, update_self] at hi
        cases hi
      · rwa [update_of_ne hin] at hi
    constructor
    case bitmap =>
      intro i hi hin
      rw [Mft.inUse_withoutName, Bool.and_eq_true] at hin
      unfold Mft.withoutName
      dsimp only
      split
      · rw [Bitmap.get_clear, Bool.and_eq_true]
        exact ⟨hin.1, hc.bitmap i hi hin.2⟩
      · exact hc.bitmap i hi hin.2
    case size => exact hc.size
    case count =>
      intro i hin
      rw [Mft.inUse_withoutName, Bool.and_eq_true] at hin
      exact hc.count i hin.2
    case mft => simp [Mft.inUse_withoutName, hc.mft, Ne.symm hne]
    case root => simp [Mft.inUse_withoutName, hc.root, hroot]
    case unique => exact fun i j fn hi hj => hc.unique i j fn (hmem hi) (hmem hj)
    case parents =>
      intro i fn hi
      have hi := hmem hi
      simp [Mft.inUse_withoutName, hc.parents i fn hi, hrem.leaf i fn hi]

-- Exactly the path that is deleted, however it is spelled, is not found any more.
lemma Consistent.deleted (hc : Consistent s) (hl : DeletesLeaf s path) (h : s.ntfsDelete path = (some n, s')) :
    n ≠ rootRecord ∧ (∀ i fn, s.names i = some fn → fn.parent ≠ n) ∧
    ∀ q, ntfsPathToMftRecord s'.names q =
      if ntfsPathToMftRecord s.names q = n then 0 else ntfsPathToMftRecord s.names q := by
  unfold Mft.ntfsDelete at h
  dsimp only at h
  split at h
  case isTrue => cases h
  case isFalse hne =>
    cases h
    have hrem := hc.removes hl hne
    exact ⟨hl.1, hrem.leaf, fun q => hrem.ntfsPathToMftRecord_eq hl.1.symm⟩

lemma Consistent.step (hc : Consistent s) (ha : Sound s a) (h : step s a = .ok s') :
    Consistent s' := by
  cases a <;> cases h
  case createFile path => exact hc.create ha (by decide)
  case createDir path => exact hc.create ha (by decide)
  case delete path => exact hc.delete ha

instance : Decidable (CreatesNew s path) :=
  inferInstanceAs (Decidable (∀ r ∈ ntfsResolveParentAndName s.names path,
    (∀ i < s.count, ∀ fn ∈ s.names i, ¬fn.isChild r.1 r.2) ∧
    ∀ n ∈ s.bitmap.findZero s.bitmapSize, n < maxScan))

instance : Decidable (DeletesLeaf s path) :=
  inferInstanceAs (Decidable (_ ∧ ∀ i < s.count, ∀ fn ∈ s.names i, _ ≠ _))

instance (s : Mft) : (a : Action) → Decidable (Sound s a)
  | .createFile path => inferInstanceAs (Decidable (CreatesNew s path))
  | .createDir path => inferInstanceAs (Decidable (CreatesNew s path))
  | .delete path => inferInstanceAs (Decidable (DeletesLeaf s path))

-- The first six records are in use, and none of them has a name.
def emptyMft : Mft where
  records i := ⟨if i < 6 then 1 else 0, none⟩
  count := 16
  bitmap w := if w = 0 then 0x3F else 0
  bitmapSize := 2

lemma emptyMft_consistent : Consistent emptyMft := by
  have hnames (i : Nat) : emptyMft.names i = none := by
    unfold Mft.names emptyMft
    split <;> rfl
  have huse (i : Nat) (h : emptyMft.inUse i) : i < 6 := by
    simpa [Mft.inUse, emptyMft] using h
  refine ⟨by decide +kernel, by decide, ?_, by decide, by decide, ?_, ?_⟩
  · intro i h
    exact Nat.lt_trans (huse i h) (by decide)
  · intro i j fn hi
    rw [hnames] at hi
    cases hi
  · intro i fn hi
    rw [hnames] at hi
    cases hi

def text (l : List Char) : CString := CString.ofChars l

end NTFS
