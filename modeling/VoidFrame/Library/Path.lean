import VoidFrame.Library.CString

-- Absolute paths and their lexical normal form.

namespace Path

open CString (slash dot)

def step (cs : List CString) (c : CString) : List CString :=
  if c = [] ∨ c = [dot] then cs
  else if c = [dot, dot] then cs.dropLast
  else cs ++ [c]

def walk (cs : List CString) (p : CString) : List CString :=
  (p.splitOn slash).foldl step cs

def normalize (p : CString) : List CString :=
  walk [] p

-- The path with some components, without a slash at the end unless it is the root.
def absolute (cs : List CString) : CString :=
  slash :: [slash].intercalate cs

-- A component of a normal form.
structure Plain (c : CString) : Prop where
  ne_nil : c ≠ []
  ne_dot : c ≠ [dot]
  ne_dotDot : c ≠ [dot, dot]
  slash_notMem : slash ∉ c

variable {cs : List CString} {c p : CString}

@[simp]
lemma step_dotDot : step cs [dot, dot] = cs.dropLast :=
  rfl

lemma step_of_plain (h : Plain c) : step cs c = cs ++ [c] := by
  rw [step, if_neg, if_neg h.ne_dotDot]
  exact not_or.mpr ⟨h.ne_nil, h.ne_dot⟩

lemma special_or_plain (h : slash ∉ c) : c = [] ∨ c = [dot] ∨ c = [dot, dot] ∨ Plain c := by
  by_cases h0 : c = []
  case pos => exact .inl h0
  by_cases h1 : c = [dot]
  case pos => exact .inr (.inl h1)
  by_cases h2 : c = [dot, dot]
  · exact .inr (.inr (.inl h2))
  · exact .inr (.inr (.inr ⟨h0, h1, h2, h⟩))

lemma mem_step (h : c' ∈ step cs c) : c' ∈ cs ∨ c' = c := by
  unfold step at h
  split at h
  case isTrue => exact .inl h
  split at h
  · exact .inl (List.mem_of_mem_dropLast h)
  · simpa using h

lemma plain_step (h : ∀ c ∈ cs, Plain c) (hc : slash ∉ c) : ∀ c' ∈ step cs c, Plain c' := by
  rcases special_or_plain hc with rfl | rfl | rfl | hp
  case inl => exact h
  case inr.inl => exact h
  case inr.inr.inl => exact fun c' hc' => h c' (List.mem_of_mem_dropLast hc')
  case inr.inr.inr =>
    intro c' hc'
    rw [step_of_plain hp, List.mem_append, List.mem_singleton] at hc'
    rcases hc' with hc' | rfl
    · exact h c' hc'
    · exact hp

lemma splitOn_of_notMem (h : slash ∉ c) : c.splitOn slash = [c] :=
  List.splitOnP_eq_singleton fun _ hx => beq_eq_false_iff_ne.mpr fun he => h (he ▸ hx)

lemma walk_of_notMem (h : slash ∉ c) : walk cs c = step cs c := by
  rw [walk, splitOn_of_notMem h]
  rfl

lemma walk_append_slash (p q : CString) : walk cs (p ++ slash :: q) = walk (walk cs p) q := by
  have h : (p ++ slash :: q).splitOn slash = p.splitOn slash ++ q.splitOn slash :=
    List.splitOnP_append_cons p q (by simp)
  rw [walk, h, List.foldl_append]
  rfl

@[simp]
lemma walk_slash (q : CString) : walk cs (slash :: q) = walk cs q :=
  walk_append_slash [] q

lemma walk_component (h : slash ∉ c) (q : CString) :
    walk cs (c ++ slash :: q) = walk (step cs c) q := by
  rw [walk_append_slash, walk_of_notMem h]

lemma slash_notMem_of_mem_splitOn (h : c ∈ p.splitOn slash) : slash ∉ c := by
  induction p generalizing c
  case nil =>
    rw [List.splitOn_nil, List.mem_singleton] at h
    simp [h]
  case cons x p ih =>
    rw [List.splitOn, List.splitOnP_cons_eq_if_modifyHead] at h
    split at h
    case isTrue hx =>
      rcases List.mem_cons.mp h with rfl | h
      · simp
      · exact ih h
    case isFalse hx =>
      obtain ⟨l, ls, hl⟩ := List.exists_cons_of_ne_nil (List.splitOnP_ne_nil (· == slash) p)
      rw [hl, List.modifyHead_cons] at h
      have hmem : ∀ c ∈ l :: ls, slash ∉ c := fun c hc => ih (by rw [List.splitOn, hl]; exact hc)
      rcases List.mem_cons.mp h with rfl | h
      · have hx' : slash ≠ x := fun he => hx (by simp [he])
        simpa [hx'] using hmem l List.mem_cons_self
      · exact hmem c (List.mem_cons_of_mem _ h)

lemma plain_walk (h : ∀ c ∈ cs, Plain c) : ∀ c ∈ walk cs p, Plain c := by
  have hs : ∀ ls : List CString, (∀ c ∈ ls, slash ∉ c) → ∀ cs : List CString, (∀ c ∈ cs, Plain c) →
      ∀ c ∈ ls.foldl step cs, Plain c := by
    intro ls
    induction ls
    case nil => exact fun _ cs hcs => hcs
    case cons l ls ih =>
      intro hls cs hcs
      exact ih (fun c hc => hls c (List.mem_cons_of_mem _ hc)) _ (plain_step hcs (hls l List.mem_cons_self))
  exact hs _ (fun c hc => slash_notMem_of_mem_splitOn hc) cs h

lemma plain_normalize : ∀ c ∈ normalize p, Plain c :=
  plain_walk (by simp)

section

lemma walk_dropWhile (p : CString) : walk cs (p.dropWhile (· = slash)) = walk cs p := by
  induction p
  case nil => rfl
  case cons c p ih =>
    by_cases hc : c = slash
    · subst hc
      rw [List.dropWhile_cons_of_pos (by simp), ih, walk_slash]
    · rw [List.dropWhile_cons_of_neg (by simpa using hc)]

-- The components of a path have at most `n` characters.
def Short (n : Nat) (p : CString) : Prop :=
  ∀ c ∈ p.splitOn slash, c.length ≤ n

variable {n : Nat} {q : CString}

lemma short_append_slash : Short n (p ++ slash :: q) ↔ Short n p ∧ Short n q := by
  have h : (p ++ slash :: q).splitOn slash = p.splitOn slash ++ q.splitOn slash :=
    List.splitOnP_append_cons p q (by simp)
  simp only [Short, h, List.mem_append, or_imp, forall_and]

@[simp]
lemma short_slash : Short n (slash :: q) ↔ Short n q := by
  have h : Short n [] := by simp [Short]
  exact short_append_slash (p := []) |>.trans (and_iff_right h)

lemma Short.of_append_slash (h : Short n (p ++ slash :: q)) : Short n q :=
  short_append_slash.mp h |>.2

lemma Short.dropWhile (h : Short n p) : Short n (p.dropWhile (· = slash)) := by
  induction p
  case nil => exact h
  case cons c p ih =>
    by_cases hc : c = slash
    case pos =>
      subst hc
      rw [List.dropWhile_cons_of_pos (by simp)]
      exact ih (short_slash.mp h)
    rw [List.dropWhile_cons_of_neg (by simpa using hc)]
    exact h

lemma Short.length_le (hc : slash ∉ c) (h : Short n (c ++ q)) : c.length ≤ n := by
  induction q generalizing c
  case nil =>
    rw [List.append_nil] at h
    exact h c (by rw [splitOn_of_notMem hc]; exact List.mem_singleton_self c)
  case cons x q ih =>
    by_cases hx : x = slash
    case pos =>
      subst hx
      exact short_append_slash.mp h |>.1 c (by rw [splitOn_of_notMem hc]; exact List.mem_singleton_self c)
    have hl := ih (c := c ++ [x]) (by simpa [hc] using fun he => hx he.symm) (by simpa using h)
    rw [List.length_append, List.length_singleton] at hl
    omega

end

def directory (cs : List CString) : CString :=
  slash :: cs.flatMap (· ++ [slash])

lemma directory_append : directory (cs ++ [c]) = directory cs ++ (c ++ [slash]) := by
  simp [directory]

lemma exists_directory_eq (cs : List CString) : ∃ p, directory cs = p ++ [slash] := by
  rcases List.eq_nil_or_concat cs with rfl | ⟨cs, c, rfl⟩
  · exact ⟨[], rfl⟩
  · exact ⟨directory cs ++ c, by rw [List.concat_eq_append, directory_append, List.append_assoc]⟩

lemma absolute_append : absolute (cs ++ [c]) = directory cs ++ c := by
  have h : [slash].intercalate (cs ++ [c]) = cs.flatMap (· ++ [slash]) ++ c := by
    induction cs
    case nil => simp [List.intercalate]
    case cons d cs ih =>
      rw [List.cons_append, List.intercalate_cons_of_ne_nil (by simp), ih]
      simp
  rw [absolute, h]
  rfl

lemma directory_eq (h : cs ≠ []) : directory cs = absolute cs ++ [slash] := by
  obtain ⟨cs', c, rfl⟩ := List.eq_nil_or_concat cs |>.resolve_left h
  rw [List.concat_eq_append, directory_append, absolute_append, List.append_assoc]

lemma normalize_absolute (h : ∀ c ∈ cs, Plain c) : normalize (absolute cs) = cs := by
  rw [normalize, absolute, walk_slash]
  rcases cs with _ | ⟨c, cs⟩
  · rfl
  have hs : ([slash].intercalate (c :: cs)).splitOn slash = c :: cs :=
    List.splitOn_intercalate slash (fun c hc => (h c hc).slash_notMem) (by simp)
  have hf : ∀ (ls : List CString), (∀ c ∈ ls, Plain c) → ∀ cs, ls.foldl step cs = cs ++ ls := by
    intro ls
    induction ls
    case nil => simp
    case cons l ls ih =>
      intro hls cs
      rw [List.foldl_cons, step_of_plain (hls l List.mem_cons_self),
        ih fun c hc => hls c (List.mem_cons_of_mem _ hc), List.append_assoc, List.singleton_append]
  rw [walk, hs, hf _ h, List.nil_append]

lemma length_directory_step : (directory (step cs c)).length ≤ (directory cs).length + c.length + 1 := by
  unfold step
  split_ifs
  case pos => omega
  · rcases List.eq_nil_or_concat cs with rfl | ⟨cs, d, rfl⟩
    · rw [List.dropLast_nil]
      omega
    · rw [List.concat_eq_append, List.dropLast_concat, directory_append, List.length_append]
      omega
  · rw [directory_append, List.length_append, List.length_append, List.length_singleton]
    omega

lemma length_directory_walk : (directory (walk cs p)).length ≤ (directory cs).length + p.length + 1 := by
  have h : ∀ ls : List CString, ls ≠ [] → ∀ cs, (directory (ls.foldl step cs)).length ≤
      (directory cs).length + ([slash].intercalate ls).length + 1 := by
    intro ls hls
    induction ls
    case nil => exact absurd rfl hls
    case cons l ls ih =>
      intro cs
      have hstep : (directory (step cs l)).length ≤ _ := length_directory_step
      rcases ls with _ | ⟨l', ls⟩
      · simpa [List.intercalate] using hstep
      have hrec := ih (by simp) (step cs l)
      rw [List.foldl_cons, List.intercalate_cons_of_ne_nil (by simp), List.length_append,
        List.length_append, List.length_singleton]
      omega
  have hp := h (p.splitOn slash) (List.splitOnP_ne_nil _ _) cs
  rwa [List.intercalate_splitOn] at hp

lemma length_absolute_normalize (hd : p.head? = some slash) :
    (absolute (normalize p)).length ≤ p.length := by
  obtain ⟨p, rfl⟩ : ∃ rest, p = slash :: rest := by
    cases p
    case nil => cases hd
    case cons x r => exact ⟨r, by rw [Option.some.inj hd]⟩
  rw [normalize, walk_slash]
  have hl : (directory (walk [] p)).length ≤ 1 + p.length + 1 := length_directory_walk
  by_cases hcs : walk [] p = []
  case pos => simp [hcs, absolute]
  rw [directory_eq hcs, List.length_append, List.length_singleton] at hl
  rw [List.length_cons]
  omega

lemma mem_walk (h : c ∈ walk cs p) : c ∈ cs ∨ c ∈ p.splitOn slash := by
  have hm : ∀ ls cs : List CString, c ∈ ls.foldl step cs → c ∈ cs ∨ c ∈ ls := by
    intro ls
    induction ls
    case nil => exact fun cs h => .inl h
    case cons l ls ih =>
      intro cs h
      rcases ih (step cs l) h with h | h
      case inr => exact .inr (List.mem_cons_of_mem _ h)
      case inl =>
        rcases mem_step h with h | rfl
        · exact .inl h
        · exact .inr List.mem_cons_self
  exact hm _ cs h

lemma short_absolute (h : ∀ c ∈ cs, Plain c) (hl : ∀ c ∈ cs, c.length ≤ n) :
    Short n (absolute cs) := by
  rw [absolute, short_slash]
  rcases cs with _ | ⟨c, cs⟩
  · simp [Short, List.intercalate]
  have hs : ([slash].intercalate (c :: cs)).splitOn slash = c :: cs :=
    List.splitOn_intercalate slash (fun c hc => (h c hc).slash_notMem) (by simp)
  rwa [Short, hs]

lemma Short.absolute_normalize (h : Short n p) : Short n (absolute (normalize p)) := by
  refine short_absolute plain_normalize fun c hc => ?_
  rcases mem_walk hc with hc | hc
  · cases hc
  · exact h c hc

end Path
