import VoidFrame.Fs.Path
import VoidFrame.Library.Path

namespace FsUtils

open CString (slash dot bytes At)
open Path (step walk absolute directory Plain Short)

def combine (currentDir input : CString) : CString :=
  if input.head? = some slash then input
  else if currentDir.getLast? = some slash then currentDir ++ input
  else currentDir ++ slash :: input

def skipSlashes (path : CString) : CString :=
  path.dropWhile (· = slash)

def store (b : Nat → UInt8) (s : CString) : Nat → UInt8 :=
  (Sink.written b (bytes s ++ [0])).buf

section

variable {buf : Nat → UInt8} {cs : List CString} {comp rest : CString}

lemma skip_eq (h : At buf r s) (hr : r + s.length < workSize) :
    ∃ r', skip buf (workSize - r) r = .ok r' ∧ At buf r' (skipSlashes s) ∧
      r' + (skipSlashes s).length = r + s.length := by
  obtain ⟨n, hn⟩ : ∃ n, workSize - r = n + 1 := ⟨workSize - r - 1, by omega⟩
  induction s generalizing r n
  case nil =>
    have h0 : buf r ≠ slash.val := by rw [show buf r = 0 from h]; decide
    exact ⟨r, by rw [hn, skip, if_neg h0]; rfl, h, rfl⟩
  case cons c s ih =>
    rw [List.length_cons] at hr
    by_cases hc : c = slash
    · subst hc
      obtain ⟨r', h1, h2, h3⟩ := ih h.2 (by omega) (n - 1) (by omega)
      have hs : skipSlashes (slash :: s) = skipSlashes s := List.dropWhile_cons_of_pos (by simp)
      refine ⟨r', ?_, by rw [hs]; exact h2, by rw [hs, h3, List.length_cons]; omega⟩
      rw [hn, skip, if_pos h.1, ← h1, show n = workSize - (r + 1) by omega]
    · have h0 : buf r ≠ slash.val := by
        rw [h.1]
        exact fun he => hc (Subtype.ext he)
      have hs : skipSlashes (c :: s) = c :: s := List.dropWhile_cons_of_neg (by simpa using hc)
      exact ⟨r, by rw [hn, skip, if_neg h0]; rfl, by rw [hs]; exact h, by rw [hs]⟩

-- From behind some characters other than slashes the pointer goes back to the slash in front of them.
lemma backUp_eq (hk : buf k = slash.val) (m : Nat)
    (h : ∀ j, k < j → j ≤ k + m → buf j ≠ slash.val) : backUp buf (k + 1 + m) = k + 1 := by
  induction m
  case zero =>
    cases k
    case zero => rfl
    case succ k => rw [Nat.add_zero, backUp, if_neg (not_not.mpr hk)]
  case succ m ih =>
    have hne : buf (k + m + 1) ≠ slash.val := h _ (by omega) (by omega)
    rw [show k + 1 + (m + 1) = k + m + 2 by omega, backUp, if_pos hne,
      show k + m + 1 = k + 1 + m by omega]
    exact ih fun j h1 h2 => h j h1 (by omega)

-- The state of the loop: the components in front of the current one are written, the current one is in
-- its own buffer, and the rest of the path is still there. What is written is behind what is read.
structure Rep (c : Cursor) (cs : List CString) (comp rest : CString) : Prop where
  front : Sink.Front ⟨c.buf, c.write⟩ (bytes (directory cs))
  component : c.component = bytes comp
  unread : At c.buf c.read rest
  behind : c.write + comp.length ≤ c.read
  bound : c.read + rest.length < workSize
  plain : ∀ c ∈ cs, Plain c
  notMem : slash ∉ comp

variable {c : Cursor} {separator : List UInt8}

@[simp]
lemma endComponent_read : (endComponent separator c).read = c.read := by
  unfold endComponent
  split_ifs <;> rfl

lemma endComponent_plain (hc : c.component = bytes comp) (hp : Plain comp) :
    endComponent separator c =
      { c with
        buf := ((bytes comp ++ separator).foldl Sink.push ⟨c.buf, c.write⟩).buf
        write := ((bytes comp ++ separator).foldl Sink.push ⟨c.buf, c.write⟩).pos } := by
  have h0 : c.component ≠ [] := fun h => hp.ne_nil (CString.bytes_injective (hc.symm.trans h))
  have h1 : c.component ≠ [dot.val] := fun h => hp.ne_dot (CString.bytes_injective (hc.symm.trans h))
  have h2 : c.component ≠ [dot.val, dot.val] := fun h =>
    hp.ne_dotDot (CString.bytes_injective (hc.symm.trans h))
  rw [endComponent, if_neg h0, if_neg h1, if_neg h2, hc]

lemma buf_directory (h : Sink.Front ⟨buf, n⟩ (bytes (directory cs) ++ l))
    (hk : k + 1 = (directory cs).length) : buf k = slash.val := by
  obtain ⟨p, hp⟩ := Path.exists_directory_eq cs
  have hl : k = p.length := by simpa [hp] using hk
  have hb := h.buf k (by rw [List.length_append, CString.length_bytes]; omega)
  rw [hp, CString.bytes_append, List.append_assoc, List.getElem?_append_right (by simp [hl])] at hb
  simpa [hl, bytes] using hb.symm

lemma backUp_directory (h : Sink.Front ⟨buf, n⟩ (bytes (directory (cs ++ [comp]))))
    (hc : slash ∉ comp) : backUp buf (n - 1) = (directory cs).length := by
  rw [Path.directory_append, CString.bytes_append] at h
  obtain ⟨k, hk⟩ : ∃ k, k + 1 = (directory cs).length := ⟨(directory cs).length - 1, by simp [directory]⟩
  have hn : n = k + 1 + comp.length + 1 := by
    rw [show n = _ from h.pos, List.length_append, CString.length_bytes, CString.length_bytes, hk,
      List.length_append, List.length_singleton]
    omega
  have hb : ∀ j, k < j → j ≤ k + comp.length → buf j ≠ slash.val := by
    intro j h1 h2
    have hi : j - (k + 1) < comp.length := by omega
    have hj := h.buf j (by rw [List.length_append, CString.length_bytes, CString.length_bytes, ← hk]; simp; omega)
    rw [List.getElem?_append_right (by simp; omega), CString.length_bytes, ← hk, CString.bytes_append,
      List.getElem?_append_left (by simpa using hi)] at hj
    obtain ⟨x, hx, he⟩ := List.mem_map.mp (List.mem_of_getElem? hj)
    intro hs
    exact hc (Subtype.ext (he.trans hs) ▸ hx)
  rw [hn, Nat.add_sub_cancel, backUp_eq (buf_directory h hk) _ hb, hk]

lemma endComponent_dotDot (separator : List UInt8) (hc : c.component = bytes [dot, dot])
    (hf : Sink.Front ⟨c.buf, c.write⟩ (bytes (directory cs))) (hp : ∀ d ∈ cs, Plain d) :
    ∃ write, endComponent separator c = { c with write } ∧ write ≤ c.write ∧
      Sink.Front ⟨c.buf, write⟩ (bytes (directory cs.dropLast)) := by
  have he : endComponent separator c =
      { c with write := if 1 < c.write then backUp c.buf (c.write - 1) else c.write } := by
    rw [endComponent, hc, if_neg (by decide), if_neg (by decide), if_pos (by rfl)]
  have hw : c.write = (directory cs).length := hf.pos.trans CString.length_bytes
  refine ⟨_, he, ?_⟩
  rcases List.eq_nil_or_concat cs with rfl | ⟨cs, d, rfl⟩
  · have h1 : ¬1 < c.write := by rw [hw]; decide
    rw [if_neg h1]
    exact ⟨le_rfl, hf⟩
  · rw [List.concat_eq_append] at hf hp hw ⊢
    rw [Path.directory_append, List.length_append] at hw
    have hl : 1 < c.write := by
      rw [hw]
      simp [directory]
      omega
    have hd : slash ∉ d := (hp d (by simp)).slash_notMem
    rw [if_pos hl, backUp_directory hf hd, List.dropLast_concat]
    refine ⟨by omega, ?_⟩
    rw [Path.directory_append, CString.bytes_append] at hf
    exact hf.back CString.length_bytes.symm

-- At a slash the component is done. The slash that is written can be the one that is read.
lemma Rep.endComponent_slash (h : Rep c cs comp (slash :: rest)) :
    Sink.Front ⟨(endComponent [slash.val] c).buf, (endComponent [slash.val] c).write⟩
        (bytes (directory (step cs comp))) ∧
      (endComponent [slash.val] c).write ≤ c.read + 1 ∧
      At (endComponent [slash.val] c).buf c.read (slash :: rest) := by
  have hle := h.behind
  rcases Path.special_or_plain h.notMem with rfl | rfl | rfl | hp
  case inl =>
    have he : endComponent [slash.val] c = c := if_pos h.component
    rw [he]
    exact ⟨h.front, by omega, h.unread⟩
  case inr.inl =>
    have he : endComponent [slash.val] c = c := by
      rw [endComponent, if_neg (by rw [h.component]; decide)]
      exact if_pos h.component
    rw [he]
    exact ⟨h.front, by omega, h.unread⟩
  case inr.inr.inl =>
    obtain ⟨write, he, hw, hf⟩ := endComponent_dotDot [slash.val] h.component h.front h.plain
    rw [he]
    exact ⟨hf, hw.trans (by omega), h.unread⟩
  case inr.inr.inr =>
    rw [endComponent_plain h.component hp, Path.step_of_plain hp]
    refine ⟨?_, ?_, h.unread.congr fun j hj => ?_⟩
    · rw [Path.directory_append, CString.bytes_append, CString.bytes_append]
      exact h.front.foldl_push
    · simp only [Sink.pos_foldl_push, List.length_append, CString.length_bytes, List.length_singleton]
      omega
    · simp only [Sink.buf_foldl_push]
      rw [if_neg (by omega)]
      rcases Nat.lt_or_ge (c.write + comp.length) j with hlt | hge
      · rw [List.getElem?_eq_none (by simp; omega), Option.getD_none]
      · have hr : j = c.read := by omega
        have hi : j - c.write = (bytes comp).length := by rw [CString.length_bytes]; omega
        rw [hi, List.getElem?_append_right le_rfl, Nat.sub_self, hr, h.unread.1]
        rfl

lemma Rep.next (h : Rep c cs comp (slash :: rest)) :
    ∃ read, skip (endComponent [slash.val] c).buf (workSize - c.read) c.read = .ok read ∧
      Rep { endComponent [slash.val] c with read, component := [] } (step cs comp) [] (skipSlashes rest) := by
  have hb := h.bound
  obtain ⟨hfront, hwrite, hat⟩ := h.endComponent_slash
  obtain ⟨read, hskip, hat, hlen⟩ := skip_eq hat hb
  have hs : skipSlashes (slash :: rest) = skipSlashes rest := List.dropWhile_cons_of_pos (by simp)
  have hle : (skipSlashes rest).length ≤ rest.length := List.length_dropWhile_le _ _
  rw [hs] at hat hlen
  rw [List.length_cons] at hb hlen
  exact ⟨read, hskip, {
    front := hfront
    component := rfl
    unread := hat
    behind := show (endComponent [slash.val] c).write + 0 ≤ read by omega
    bound := show read + (skipSlashes rest).length < workSize by omega
    plain := Path.plain_step h.plain h.notMem
    notMem := by simp }⟩

lemma Rep.advance (h : Rep c cs comp (x :: rest)) (hx : x ≠ slash) :
    Rep { c with read := c.read + 1, component := c.component ++ [c.buf c.read] } cs (comp ++ [x]) rest := by
  have hb := h.bound
  have hw := h.behind
  rw [List.length_cons] at hb
  exact {
    front := h.front
    component := by
      show c.component ++ [c.buf c.read] = _
      rw [h.component, h.unread.1, CString.bytes_append]
      rfl
    unread := h.unread.2
    behind := by
      show c.write + (comp ++ [x]).length ≤ c.read + 1
      rw [List.length_append, List.length_singleton]
      omega
    bound := show c.read + 1 + rest.length < workSize by omega
    plain := h.plain
    notMem := by simpa [h.notMem] using fun he => hx he.symm }

-- The loop: what is left is walked from the components so far.
lemma Rep.scan (h : Rep c cs comp rest) (hs : Short (componentSize - 1) (comp ++ rest)) (fuel : Nat)
    (hf : rest.length < fuel) :
    ∃ c' cs' comp', scan fuel c = .ok c' ∧ Rep c' cs' comp' [] ∧ walk cs (comp ++ rest) = step cs' comp' := by
  induction fuel generalizing c cs comp rest
  case zero => omega
  case succ fuel ih =>
    have hb := h.bound
    rw [FsUtils.scan, if_neg (by omega)]
    rcases rest with _ | ⟨x, rest⟩
    · have h0 : c.buf c.read = 0 := h.unread
      rw [if_pos h0]
      exact ⟨c, cs, comp, rfl, h, by rw [List.append_nil, Path.walk_of_notMem h.notMem]⟩
    rw [List.length_cons] at hf
    rw [if_neg (by rw [h.unread.1]; exact x.2)]
    by_cases hx : x = slash
    · subst hx
      obtain ⟨read, hskip, hrep⟩ := h.next
      have hle : (skipSlashes rest).length ≤ rest.length := List.length_dropWhile_le _ _
      obtain ⟨c', cs', comp', he, hc', hw⟩ := ih hrep hs.of_append_slash.dropWhile (by omega)
      rw [if_pos h.unread.1]
      simp only [endComponent_read, hskip]
      refine ⟨c', cs', comp', he, hc', ?_⟩
      rw [Path.walk_component h.notMem, ← hw, List.nil_append]
      exact (Path.walk_dropWhile rest).symm
    · have hne : c.buf c.read ≠ slash.val := by
        rw [h.unread.1]
        exact fun he => hx (Subtype.ext he)
      have hrep := h.advance hx
      have hs' : Short (componentSize - 1) ((comp ++ [x]) ++ rest) := by simpa using hs
      have hl := hs'.length_le hrep.notMem
      rw [List.length_append, List.length_singleton] at hl
      have hcl : c.component.length < componentSize - 1 := by
        rw [h.component, CString.length_bytes]
        omega
      obtain ⟨c', cs', comp', he, hc', hw⟩ := ih hrep hs' (by omega)
      rw [if_neg hne, if_pos hcl]
      exact ⟨c', cs', comp', he, hc', by rw [← hw, List.append_assoc, List.singleton_append]⟩

lemma trim_directory (h : Sink.Front ⟨buf, n⟩ (bytes (directory cs))) :
    Sink.Front ⟨buf, if 1 < n ∧ buf (n - 1) = slash.val then n - 1 else n⟩ (bytes (absolute cs)) := by
  have hn : n = (directory cs).length := h.pos.trans CString.length_bytes
  by_cases hcs : cs = []
  case pos =>
    subst hcs
    rw [if_neg fun h1 => absurd h1.1 (by rw [hn]; decide)]
    exact h
  have hd := Path.directory_eq hcs
  have hl : n = (absolute cs).length + 1 := by simpa [hd] using hn
  have h1 : 1 < n := by
    rw [hl]
    simp [absolute]
  have hs : buf (n - 1) = slash.val := buf_directory (l := []) (by rwa [List.append_nil]) (by omega)
  rw [hd, CString.bytes_append] at h
  rw [if_pos ⟨h1, hs⟩]
  exact h.back (by rw [CString.length_bytes]; omega)

lemma trim_plain (h : Sink.Front ⟨buf, n⟩ (bytes (directory cs ++ comp))) (hp : Plain comp) :
    Sink.Front ⟨buf, if 1 < n ∧ buf (n - 1) = slash.val then n - 1 else n⟩
      (bytes (absolute (cs ++ [comp]))) := by
  obtain ⟨comp', x, hx⟩ := List.eq_nil_or_concat comp |>.resolve_left hp.ne_nil
  rw [List.concat_eq_append] at hx
  have hn : n = (directory cs ++ comp').length + 1 := by
    rw [show n = _ from h.pos, CString.length_bytes, hx]
    simp
    omega
  have hb := h.buf (n - 1) (by rw [CString.length_bytes, hx, hn]; simp)
  rw [hx, ← List.append_assoc, CString.bytes_append, List.getElem?_append_right (by simp [hn])] at hb
  have hs : buf (n - 1) = x.val := by simpa [hn, bytes] using hb.symm
  have hne : x ≠ slash := fun he => hp.slash_notMem (by simp [hx, he])
  rw [if_neg fun h' => hne (Subtype.ext (hs.symm.trans h'.2)), Path.absolute_append]
  exact h

lemma Rep.endComponent_end (h : Rep c cs comp []) :
    Sink.Front
      ⟨(endComponent [] c).buf,
        if 1 < (endComponent [] c).write ∧ (endComponent [] c).buf ((endComponent [] c).write - 1) = slash.val
        then (endComponent [] c).write - 1 else (endComponent [] c).write⟩
      (bytes (absolute (step cs comp))) := by
  rcases Path.special_or_plain h.notMem with rfl | rfl | rfl | hp
  case inl =>
    have he : endComponent [] c = c := if_pos h.component
    rw [he]
    exact trim_directory h.front
  case inr.inl =>
    have he : endComponent [] c = c := by
      rw [endComponent, if_neg (by rw [h.component]; decide)]
      exact if_pos h.component
    rw [he]
    exact trim_directory h.front
  case inr.inr.inl =>
    obtain ⟨write, he, -, hf⟩ := endComponent_dotDot [] h.component h.front h.plain
    rw [he]
    exact trim_directory hf
  case inr.inr.inr =>
    rw [endComponent_plain h.component hp, Path.step_of_plain hp]
    refine trim_plain ?_ hp
    rw [CString.bytes_append, List.append_nil]
    exact h.front.foldl_push

lemma normalizeInPlace_eq (h : At buf 0 full) (hd : full.head? = some slash)
    (hl : full.length < workSize) (hs : Short (componentSize - 1) full) :
    ∃ s, normalizeInPlace buf = .ok s ∧ s.Front (bytes (absolute (Path.normalize full))) := by
  obtain ⟨full, rfl⟩ : ∃ rest, full = slash :: rest := by
    cases full
    case nil => cases hd
    case cons x r => exact ⟨r, by rw [Option.some.inj hd]⟩
  have hu : Function.update buf 0 slash.val = buf := by
    rw [← h.1]
    exact Function.update_eq_self 0 buf
  obtain ⟨read, hskip, hat, hlen⟩ := skip_eq h (by simpa using hl)
  have hsk : skipSlashes (slash :: full) = skipSlashes full := List.dropWhile_cons_of_pos (by simp)
  have hle : (skipSlashes full).length ≤ full.length := List.length_dropWhile_le _ _
  rw [hsk] at hat hlen
  rw [List.length_cons] at hl hlen
  have hrep : Rep { buf, read, write := 1, component := [] } [] [] (skipSlashes full) := {
    front := ⟨rfl, fun i hi => by
      rw [show i = 0 from Nat.lt_one_iff.mp hi]
      exact congrArg some h.1.symm⟩
    component := rfl
    unread := hat
    behind := show 1 + 0 ≤ read by omega
    bound := show read + (skipSlashes full).length < workSize by omega
    plain := by simp
    notMem := by simp }
  obtain ⟨c, cs, comp, hscan, hc, hw⟩ := hrep.scan (Path.short_slash.mp hs).dropWhile workSize (by omega)
  have hn : Path.normalize (slash :: full) = step cs comp := by
    rw [← hw, Path.normalize, Path.walk_slash, List.nil_append]
    exact (Path.walk_dropWhile full).symm
  have hf := hc.endComponent_end
  rw [← hn] at hf
  refine ⟨_, ?_, hf.update 0⟩
  unfold normalizeInPlace
  rw [hu]
  simp only [show skip buf workSize 0 = .ok read from hskip, hscan, bind, Except.bind]
  rfl

end

section

variable {work b : Nat → UInt8} {cd input : CString}

-- The number of characters that the full path consists of, apart from a slash between the two.
def combinedLength (cd input : CString) : Nat :=
  if input.head? = some slash then input.length else cd.length + input.length

def canonical (cd input : CString) : CString :=
  absolute (Path.normalize (combine cd input))

lemma head?_combine (input : CString) (hd : cd.head? = some slash) : (combine cd input).head? = some slash := by
  unfold combine
  split_ifs with hi
  case pos => exact hi
  · rw [List.head?_append, hd]; rfl
  · rw [List.head?_append, hd]; rfl

lemma length_combine_le : (combine cd input).length ≤ combinedLength cd input + 1 := by
  unfold combine combinedLength
  split_ifs <;> simp
  omega

lemma workPath_eq (work : Nat → UInt8) (hd : cd.head? = some slash) (hl : combinedLength cd input ≤ 510) :
    workPath work (some cd) input = .written work (bytes (combine cd input)) := by
  have hlen := @length_combine_le cd input
  rw [combinedLength] at hl
  unfold combine workPath
  split_ifs with hi hlast
  case pos =>
    rw [if_pos hi] at hl
    rw [Sink.copy_mk, List.take_of_length_le (by rw [CString.length_bytes]; show _ ≤ 511; omega)]
  all_goals
    rw [if_neg hi] at hl
    have hc : Sink.copy (workSize - 2) ⟨work, 0⟩ (bytes cd) = .written work (bytes cd) := by
      rw [Sink.copy_mk, List.take_of_length_le (by rw [CString.length_bytes]; show _ ≤ 510; omega)]
    obtain ⟨d, x, hx⟩ := List.eq_nil_or_concat cd |>.resolve_left (by rintro rfl; cases hd)
    rw [List.concat_eq_append] at hx
    have hpos : (Sink.written work (bytes cd)).pos = d.length + 1 := by simp [hx]
    have hbuf : (Sink.written work (bytes cd)).buf (d.length + 1 - 1) = x.val := by
      rw [Sink.buf_written]
      simp [hx, bytes]
    simp only [Option.getD_some, hc, hpos, hbuf, Nat.succ_pos, true_and]
  · have hs : x = slash := by simpa [hx] using hlast
    rw [if_neg (by simp [hs]), Sink.copy_written_of_le (by simp; show _ ≤ 511; omega), ← CString.bytes_append]
  · have hs : x.val ≠ slash.val := fun he => hlast (by simp [hx, Subtype.ext he])
    have hp : (Sink.written work (bytes cd)).push slash.val = .written work (bytes (cd ++ [slash])) := by
      rw [Sink.push_written, CString.bytes_append]
      rfl
    rw [if_pos hs, hp, Sink.copy_written_of_le (by simp; show _ ≤ 511; omega), ← CString.bytes_append,
      List.append_assoc, List.singleton_append]

lemma resolvePathH_of_workPath {cd : Option CString}
    (hw : workPath work cd input = .written work (bytes full)) (hd : full.head? = some slash)
    (hl : full.length < workSize) (hs : Short (componentSize - 1) full)
    (hm : ((absolute (Path.normalize full)).length : Int) < maxLen) :
    ∃ work', resolvePathH work cd (some input) (some b) maxLen =
      .ok (work', some (store b (absolute (Path.normalize full)))) := by
  have hat : At (Function.update (Sink.written work (bytes full)).buf full.length 0) 0 full := by
    refine CString.at_of_getElem? (fun j hj => ?_) (by simp)
    have hf := (Sink.Front.written (b := work) (l := bytes full)).buf j (by simpa using hj)
    rw [Nat.zero_add, Function.update_of_ne hj.ne, hf]
  obtain ⟨s, hn, hf⟩ := normalizeInPlace_eq hat hd hl hs
  have hpos : s.pos = (absolute (Path.normalize full)).length := hf.pos.trans CString.length_bytes
  have h1 : ¬maxLen ≤ 1 := by
    have : 1 ≤ (absolute (Path.normalize full)).length := by simp [absolute]
    omega
  have hc : (if (s.pos : Int) < maxLen - 1 then s.pos else (maxLen - 1).toNat) = s.pos := by
    split <;> omega
  refine ⟨s.buf, ?_⟩
  unfold resolvePathH
  simp only [h1, if_false, hw, Sink.pos_written, CString.length_bytes, hn, bind, Except.bind, hc, hf.map_range]
  exact congrArg (fun o => Except.ok (s.buf, some o)) (Sink.update_written 0)

theorem resolvePathH_normalizes (work b : Nat → UInt8) (cd input : CString) (hd : cd.head? = some slash)
    (hl : combinedLength cd input ≤ 510) (hs : Short 63 (combine cd input)) (maxLen : Int)
    (hm : ((canonical cd input).length : Int) < maxLen) :
    (∃ work', resolvePathH work (some cd) (some input) (some b) maxLen =
      .ok (work', some (store b (canonical cd input)))) ∧
    ∀ (work₁ b₁ : Nat → UInt8) (cd₁ : Option CString), ∃ work',
      resolvePathH work₁ cd₁ (some (canonical cd input)) (some b₁) maxLen =
        .ok (work', some (store b₁ (canonical cd input))) := by
  have hc := head?_combine input hd
  have hf : (combine cd input).length < workSize := length_combine_le.trans_lt (by show _ < 512; omega)
  refine ⟨resolvePathH_of_workPath (workPath_eq work hd hl) hc hf hs hm, fun work₁ b₁ cd₁ => ?_⟩
  -- The output is an absolute path that fits and whose normal form it is.
  have hle : (canonical cd input).length ≤ (combine cd input).length := Path.length_absolute_normalize hc
  have hid : absolute (Path.normalize (canonical cd input)) = canonical cd input :=
    congrArg absolute (Path.normalize_absolute Path.plain_normalize)
  have hw : workPath work₁ cd₁ (canonical cd input) = .written work₁ (bytes (canonical cd input)) := by
    have hi : (canonical cd input).head? = some slash := rfl
    rw [workPath, if_pos hi, Sink.copy_mk, List.take_of_length_le]
    rw [CString.length_bytes]
    exact Nat.le_of_lt_succ (hle.trans_lt hf)
  rw [← hid] at hm
  have h := resolvePathH_of_workPath (b := b₁) hw rfl (hle.trans_lt hf) hs.absolute_normalize hm
  rwa [hid] at h

-- Up from `/x` and down to `/a`.
theorem resolvePathH_normalizes_up :
    ∃ work', resolvePathH (fun _ => 0) (some (CString.ofChars "/x".toList))
      (some (CString.ofChars ".././a//".toList)) (some fun _ => 0) 16 =
        .ok (work', some (store (fun _ => 0) (CString.ofChars "/a".toList))) := by
  have hc : canonical (CString.ofChars "/x".toList) (CString.ofChars ".././a//".toList) =
      CString.ofChars "/a".toList := by decide +kernel
  have hs : ∀ c ∈ (combine (CString.ofChars "/x".toList) (CString.ofChars ".././a//".toList)).splitOn slash,
      c.length ≤ 63 := by decide +kernel
  rw [← hc]
  exact (resolvePathH_normalizes _ _ _ _ (by decide) (by decide) hs 16 (by rw [hc]; decide)).1

end

end FsUtils
