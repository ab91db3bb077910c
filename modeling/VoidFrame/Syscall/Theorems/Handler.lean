import VoidFrame.Syscall.Handler

-- What the console prints depends on the bytes of the user, and descriptors are cursors into their files.

namespace Syscall

section

-- The first bytes up to a null character.
def text (bytes : Nat → UInt8) (count : Nat) : List UInt8 :=
  ((List.range count).map bytes).takeWhile (· ≠ 0)

variable {b : Buffer} {bytes bytes' : Nat → UInt8} {i k n fuel : Nat}

lemma text_eq (hk : k < n) (h0 : bytes k = 0) : text bytes n = text bytes (k + 1) := by
  obtain ⟨m, rfl⟩ := Nat.exists_eq_add_of_le (Nat.succ_le_of_lt hk)
  unfold text
  rw [List.range_add, List.map_append, List.takeWhile_append, if_neg]
  intro hl
  have ha := List.takeWhile_eq_self_iff.mp ((List.takeWhile_prefix _).eq_of_length hl)
  have := ha (bytes k) (List.mem_map_of_mem (List.mem_range.mpr (Nat.lt_succ_self k)))
  simp [h0] at this

lemma text_congr (h : ∀ i < n, bytes i = bytes' i) : text bytes n = text bytes' n :=
  congrArg (List.takeWhile _) (List.map_congr_left fun i hi => h i (List.mem_range.mp hi))

lemma printKernel_eq (h0 : b.data k = 0) (hk : k < b.size) (hi : i ≤ k) (hf : k < i + fuel) :
    printKernel b fuel i = .ok (((List.range' i (k + 1 - i)).map b.data).takeWhile (· ≠ 0)) := by
  induction fuel generalizing i
  case zero => omega
  case succ fuel ih =>
    rw [printKernel, Buffer.load8, Buffer.load_eq (by omega), Except.ok_bind,
      show k + 1 - i = k - i + 1 by omega, List.range'_succ, List.map_cons]
    by_cases hc : b.data i = 0
    case pos =>
      rw [if_pos hc, List.takeWhile_cons_of_neg (by simp [hc])]
      rfl
    have hne : i ≠ k := fun h => hc (h ▸ h0)
    rw [if_neg hc, ih (by omega) (by omega), List.takeWhile_cons_of_pos (by simp [hc]),
      show k + 1 - (i + 1) = k - i by omega]
    rfl

-- Without a null character, the end of the buffer is reached.
lemma printKernel_eq_error (h : ∀ j, i ≤ j → j < b.size → b.data j ≠ 0) : printKernel b fuel i = .error .buffer := by
  induction fuel generalizing i
  case zero => rfl
  case succ fuel ih =>
    by_cases hi : i < b.size
    · rw [printKernel, Buffer.load8, Buffer.load_eq (by omega), Except.ok_bind, if_neg (h i le_rfl hi),
        ih fun j hj => h j (by omega)]
      rfl
    · rw [printKernel, Buffer.load8, Buffer.load, if_neg (by omega)]
      rfl

lemma sysWrite_eq (stream : Stream) (hk : k < clamp count) (h0 : bytes k = 0) (stack : Nat → UInt8) :
    sysWrite stack stream (some bytes) count
      = .ok (some (clamp count), stream.badge ++ text bytes (min count.toNat maxSyscallBufferSize)) := by
  have hle : clamp count ≤ maxSyscallBufferSize := Nat.min_le_right _ _
  have hc : clamp count ≤ min count.toNat maxSyscallBufferSize :=
    min_le_min_right _ (by rw [UInt64.toNat_toUInt32]; exact Nat.mod_le _ _)
  have hp : printKernel ⟨maxSyscallBufferSize, fun i => if i < clamp count then bytes i else stack i⟩
      (maxSyscallBufferSize + 1) 0 = _ :=
    printKernel_eq ((if_pos hk).trans h0) (show k < maxSyscallBufferSize by omega) (Nat.zero_le k) (by omega)
  rw [Nat.sub_zero, ← List.range_eq_range'] at hp
  unfold sysWrite copyFromUser
  rw [Option.map_some]
  dsimp only
  rw [hp, text_eq (hk.trans_le hc) h0]
  refine congrArg (fun l => Except.ok (some (clamp count), stream.badge ++ l)) (text_congr fun i hi => ?_)
  exact if_pos (by omega)

-- The bytes of the user are printed up to the first null character whatever was on the stack, exactly if
-- there is a null character among the bytes that are copied.
theorem sysWrite_no_leak (stream : Stream) (bytes : Nat → UInt8) (count : UInt64) :
    (∀ stack stack', sysWrite stack stream (some bytes) count = sysWrite stack' stream (some bytes) count ∧
      sysWrite stack stream (some bytes) count
        = .ok (some (clamp count), stream.badge ++ text bytes (min count.toNat maxSyscallBufferSize))) ↔
      ∃ k, k < clamp count ∧ bytes k = 0 := by
  constructor
  case mpr =>
    rintro ⟨k, hk, h0⟩ stack stack'
    have hw := sysWrite_eq stream hk h0
    exact ⟨(hw stack).trans (hw stack').symm, hw stack⟩
  case mp =>
    intro h
    by_contra hn
    -- a stack without a null character
    have hp : printKernel ⟨maxSyscallBufferSize, fun i => if i < clamp count then bytes i else 1⟩
        (maxSyscallBufferSize + 1) 0 = .error .buffer := by
      refine printKernel_eq_error fun j _ _ => ?_
      dsimp only
      split
      case isTrue hj => exact fun h0 => hn ⟨j, hj, h0⟩
      case isFalse => decide
    have hw := (h (fun _ => 1) fun _ => 1).2
    unfold sysWrite copyFromUser at hw
    rw [Option.map_some] at hw
    dsimp only at hw
    rw [hp] at hw
    cases hw

-- One byte is written, and what follows it on the stack is printed as well.
theorem sysWrite_leaks :
    sysWrite (fun _ => 0) .stdout (some fun _ => 0x41) 1 = .ok (some 1, [0x41]) ∧
      sysWrite (fun i => if i = 1 then 0x42 else 0) .stdout (some fun _ => 0x41) 1 = .ok (some 1, [0x41, 0x42]) :=
  ⟨rfl, rfl⟩

end

section

-- The calls on descriptors.
inductive Call
  | openFile (path : CString)
  | readFile (fd : Int) (count : UInt64)
  | closeFile (fd : Int)

-- The table, the paths that descriptors were opened with, and the data that was read from them since.
structure Session where
  table : Table
  opened : Nat → CString
  data : Nat → List UInt8

namespace Session

variable (files : Files)

def openFile (s : Session) (path : CString) : Session :=
  match sysOpen s.table path with
  | (none, t) => { s with table := t }
  | (some i, t) => ⟨t, Function.update s.opened i path, Function.update s.data i []⟩

def readFile (s : Session) (fd : Int) (count : UInt64) : Session :=
  match sysRead files s.table fd count with
  | (none, t) => { s with table := t }
  | (some d, t) => { s with table := t, data := Function.update s.data fd.toNat (s.data fd.toNat ++ d) }

def step (s : Session) : Call → Except Empty Session
  | .openFile path => .ok (s.openFile path)
  | .readFile fd count => .ok (s.readFile files fd count)
  | .closeFile fd => .ok { s with table := (sysClose s.table fd).2 }

def Initial (s : Session) : Prop :=
  ∀ i, (s.table i).inUse = false

-- Paths have at most 254 characters.
def Short (_ : Session) : Call → Prop
  | .openFile path => path.length ≤ 254
  | _ => True

end Session

abbrev Run (files : Files) := Machine.Run Session.Initial (Session.step files) Session.Short

variable {files : Files} {s : Session} {fd : Int} {count : UInt64}

lemma vfsReadAt_eq {contents : List UInt8} {offset count : UInt32} (hc : contents.length < 2 ^ 31)
    (hn : count.toNat ≤ maxSyscallBufferSize) :
    vfsReadAt contents offset count = (contents.drop offset.toNat).take count.toNat := by
  unfold vfsReadAt
  split
  case isTrue h => rw [List.drop_eq_nil_of_le h, List.take_nil]
  case isFalse h =>
    have hn : count.toNat ≤ 4096 := hn
    have hs : (offset + count).toNat = offset.toNat + count.toNat := by
      rw [UInt32.toNat_add]
      omega
    have hl : (UInt32.ofNat contents.length - offset).toNat = contents.length - offset.toNat := by
      rw [UInt32.toNat_sub_of_le, UInt32.toNat_ofNat_of_lt' (show _ < 2 ^ 32 by omega)]
      rw [UInt32.le_iff_toNat_le, UInt32.toNat_ofNat_of_lt' (show _ < 2 ^ 32 by omega)]
      omega
    have hr : (offset + (UInt32.ofNat contents.length - offset)).toNat = contents.length := by
      rw [UInt32.toNat_add, hl]
      omega
    dsimp only
    rw [hs]
    split
    case isTrue hlt =>
      rw [hr, if_neg (lt_irrefl _), hl, List.take_of_length_le (by simp), List.take_of_length_le (by simp; omega)]
    case isFalse hle => rw [hs, if_neg hle]

-- An open descriptor stands behind what was read from the file that it was opened for.
structure Session.Tracks (files : Files) (s : Session) (i : Nat) : Prop where
  path : (s.table i).path = s.opened i
  position : (s.table i).position.toNat = (s.data i).length
  data : s.data i <+: files.contents (s.opened i)

def Session.Sound (files : Files) (s : Session) : Prop :=
  ∀ i, (s.table i).inUse → s.Tracks files i

lemma clamp_le : (UInt32.ofNat (clamp count)).toNat ≤ maxSyscallBufferSize :=
  (UInt32.toNat_ofNat.trans_le (Nat.mod_le _ _)).trans (Nat.min_le_right _ _)

lemma ofNat_clamp_toNat : (UInt32.ofNat (clamp count)).toNat = clamp count :=
  UInt32.toNat_ofNat_of_lt' ((Nat.min_le_right _ _).trans_lt (by decide))

lemma strncpy_strncpy {path : CString} (h : path.length ≤ 254) :
    (path.strncpy maxSyscallStrLen).strncpy (maxSyscallStrLen - 1) = path := by
  unfold CString.strncpy maxSyscallStrLen
  rw [List.take_of_length_le (l := path) (by omega), List.take_of_length_le (by omega)]

lemma sysOpen_eq_some (h : sysOpen t path = (some i, t')) : (t i).inUse = false ∧
      t' = Function.update t i ⟨true, (path.strncpy maxSyscallStrLen).strncpy (maxSyscallStrLen - 1), 0⟩ := by
  unfold sysOpen at h
  split at h
  case h_1 => cases h
  case h_2 j hj =>
    obtain ⟨hi, rfl⟩ := Prod.mk.inj h
    obtain rfl := Option.some.inj hi
    exact ⟨by simpa using List.find?_some hj, rfl⟩

lemma sysOpen_eq_none (h : sysOpen t path = (none, t')) : t' = t := by
  unfold sysOpen at h
  split at h
  · exact (Prod.mk.inj h).2.symm
  · cases h

namespace Session

lemma Sound.openFile (h : s.Sound files) (hp : path.length ≤ 254) :
    (s.openFile path).Sound files := by
  unfold Session.openFile
  split
  case h_1 t he =>
    obtain rfl := sysOpen_eq_none he
    exact h
  case h_2 i t he =>
    obtain ⟨hu, rfl⟩ := sysOpen_eq_some he
    intro j hj
    by_cases hji : j = i
    · subst hji
      constructor <;> simp only [Function.update_self]
      case path => exact strncpy_strncpy hp
      case position => rfl
      case data => exact List.nil_prefix
    · simp only [Function.update_of_ne hji] at hj
      obtain ⟨h1, h2, h3⟩ := h j hj
      constructor <;> simpa only [Function.update_of_ne hji]

-- The bytes that are read are those behind the ones that were read before.
lemma Tracks.vfsReadAt {i : Nat} (h : s.Tracks files i) (count : UInt64) :
    vfsReadAt (files.contents (s.table i).path) (s.table i).position.toUInt32 (UInt32.ofNat (clamp count))
      = ((files.contents (s.opened i)).drop (s.data i).length).take (clamp count) := by
  have hl := h.data.length_le
  have hs := files.small (s.opened i)
  have ho : (s.table i).position.toUInt32.toNat = (s.data i).length := by
    rw [UInt64.toNat_toUInt32, h.position]
    omega
  rw [h.path, vfsReadAt_eq hs clamp_le, ho, ofNat_clamp_toNat]

lemma Sound.readFile (h : s.Sound files) : (s.readFile files fd count).Sound files := by
  unfold Session.readFile sysRead
  by_cases ho : Open s.table fd
  case neg =>
    rw [if_neg ho]
    exact h
  rw [if_pos ho]
  intro j hj
  by_cases hji : j = fd.toNat
  case neg =>
    simp only [Function.update_of_ne hji] at hj
    obtain ⟨h1, h2, h3⟩ := h j hj
    constructor <;> simpa only [Function.update_of_ne hji]
  subst hji
  have ht := h fd.toNat ho.2.2
  have hd := ht.vfsReadAt count
  have hp := ht.data
  have hs := files.small (s.opened fd.toNat)
  constructor <;> simp only [Function.update_self, hd]
  case path => exact ht.path
  case position =>
    rw [UInt64.toNat_add, ht.position, UInt64.toNat_ofNat_of_lt' (show _ < 2 ^ 64 by simp; omega),
      List.length_append]
    have := hp.length_le
    simp only [List.length_take, List.length_drop]
    omega
  case data =>
    obtain ⟨rest, hr⟩ := hp
    rw [← hr, List.drop_left]
    exact (List.prefix_append_right_inj _).mpr (List.take_prefix _ _)

lemma Sound.closeFile (h : s.Sound files) : Sound files { s with table := (sysClose s.table fd).2 } := by
  unfold sysClose
  by_cases ho : Open s.table fd
  case neg =>
    rw [if_neg ho]
    exact h
  rw [if_pos ho]
  intro j hj
  by_cases hji : j = fd.toNat
  case pos =>
    subst hji
    simp at hj
  simp only [Function.update_of_ne hji] at hj
  obtain ⟨h1, h2, h3⟩ := h j hj
  constructor <;> simpa only [Function.update_of_ne hji]

lemma Sound.step (h : s.Sound files) (hc : Short s c) (hs : step files s c = .ok s') :
    s'.Sound files := by
  cases c <;> obtain rfl := Except.ok.inj hs
  case openFile path => exact h.openFile hc
  case readFile fd count => exact h.readFile
  case closeFile fd => exact h.closeFile

end Session

lemma Run.sound (h : Run files s) : s.Sound files :=
  h.invariant (P := Session.Sound files) (fun s hi i hu => absurd hu (by simp [hi i])) fun hs hc he => hs.step hc he

-- Over every run a descriptor that is given out is not open, the data that was read from an open descriptor is
-- a prefix of its file, and nothing is read only if nothing is asked for or the file is at its end.
theorem descriptors_are_cursors (h : Run files s) :
    (∀ path i t, sysOpen s.table path = (some i, t) → ¬Open s.table i) ∧
    (∀ fd, Open s.table fd → s.data fd.toNat <+: files.contents (s.opened fd.toNat)) ∧
    ∀ fd count t, count = 0 ∨ count.toUInt32 ≠ 0 → sysRead files s.table fd count = (some [], t) →
      count = 0 ∨ s.data fd.toNat = files.contents (s.opened fd.toNat) := by
  refine ⟨fun path i t he ho => ?_, fun fd ho => (h.sound fd.toNat ho.2.2).data, fun fd count t hc hr => ?_⟩
  · have hu : (s.table i).inUse = true := ho.2.2
    exact absurd ((sysOpen_eq_some he).1.symm.trans hu) (by decide)
  · refine hc.imp_right fun hc => ?_
    unfold sysRead at hr
    split at hr
    case isFalse => cases hr
    case isTrue ho =>
      have ht := h.sound fd.toNat ho.2.2
      have hd := Option.some.inj (Prod.mk.inj hr).1
      rw [ht.vfsReadAt, List.take_eq_nil_iff] at hd
      have hpos : clamp count ≠ 0 := by
        intro h0
        unfold clamp maxSyscallBufferSize at h0
        exact hc (UInt32.toNat_inj.mp (by simpa using (Nat.min_eq_zero_iff.mp h0).resolve_right (by decide)))
      exact ht.data.eq_of_length_le (List.drop_eq_nil_iff.mp (hd.resolve_left hpos))

end

-- One file with one byte.
def oneByte : Files where
  contents := fun path => if path = [CString.slash] then [7] else []
  small := fun path => by split <;> decide

def emptySession : Session where
  table := fun _ => ⟨false, [], 0⟩
  opened := fun _ => []
  data := fun _ => []

lemma run_openFile : Run oneByte (emptySession.openFile [CString.slash]) :=
  .step (a := .openFile [CString.slash]) (.init fun _ => rfl) (by decide : [CString.slash].length ≤ 254) rfl

-- The byte is read, and then the file is at its end.
theorem descriptors_are_cursors_sample : ∃ s t, Run oneByte s ∧ Open s.table 3 ∧ ¬Open s.table 4 ∧
    s.data 3 = [7] ∧ s.data 3 <+: oneByte.contents (s.opened 3) ∧
    sysRead oneByte s.table 3 5 = (some [], t) ∧ s.data 3 = oneByte.contents (s.opened 3) := by
  have hr : Run oneByte ((emptySession.openFile [CString.slash]).readFile oneByte 3 1) :=
    .step (a := .readFile 3 1) run_openFile trivial rfl
  have hc := descriptors_are_cursors hr
  have ho : Open ((emptySession.openFile [CString.slash]).readFile oneByte 3 1).table 3 := by decide +kernel
  exact ⟨_, _, hr, ho, hc.1 [] 4 _ rfl, by decide +kernel, hc.2.1 3 ho, rfl,
    (hc.2.2 3 5 _ (by decide) rfl).resolve_left (by decide)⟩

-- A count of 2^32 reads nothing from the start of the file.
theorem descriptors_truncate : ∃ s, Run oneByte s ∧ Open s.table 3 ∧ s.data 3 = [] ∧
    oneByte.contents (s.opened 3) = [7] ∧ (sysRead oneByte s.table 3 0x100000000).1 = some [] :=
  ⟨_, run_openFile, by decide +kernel, rfl, by decide +kernel, by decide +kernel⟩

end Syscall
