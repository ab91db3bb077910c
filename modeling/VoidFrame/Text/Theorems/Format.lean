import VoidFrame.Text.Standard

namespace Format

-- A directive that the end of the format cuts off is reached while there is room.
def Overruns (size : UInt64) (fmt : CString) (args : List Arg) : Prop :=
  (render fmt args).2 = .error .pastEnd ∧ (render fmt args).1.length < bound size

lemma outcome_eq_error_iff : outcome limit b t r = .error e ↔ r = .error e ∧ t.length < limit := by
  rcases Nat.lt_or_ge t.length limit with hl | hl
  case inr => simp [outcome_of_le hl, hl]
  case inl =>
    rw [outcome_of_lt hl]
    cases r <;> simp [hl]

-- The format is read behind its end exactly in this case.
lemma vsnprintf_eq_pastEnd_iff (hs : size ≠ 0) :
    vsnprintf (some b) size fmt args = .error .pastEnd ↔ Overruns size fmt args := by
  rw [vsnprintf_eq hs, Overruns, ← outcome_eq_error_iff (b := b)]
  cases outcome (bound size) b (render fmt args).1 (render fmt args).2 <;> simp

theorem vsnprintf_within_format (buf : Option (Nat → UInt8)) (size : UInt64) (hs : 1 ≤ size)
    (fmt : CString) (args : List Arg) (h : ¬Overruns size fmt args) :
    vsnprintf buf size fmt args ≠ .error .pastEnd := by
  have hne : size ≠ 0 := by
    rintro rfl
    exact absurd hs (by decide)
  intro he
  cases buf
  case none => cases he
  case some b => exact h (vsnprintf_eq_pastEnd_iff hne |>.mp he)

-- The directive is complete, and so is the call.
theorem vsnprintf_within_format_number :
    vsnprintf (some fun _ => 0) 16 (CString.ofChars "%d".toList) [.word 7] ≠ .error .pastEnd := by
  refine vsnprintf_within_format _ 16 (by decide) _ _ fun h => ?_
  have hr : render (CString.ofChars "%d".toList) [.word 7] = ([ascii '7'], .ok ()) := by
    decide +kernel
  rw [Overruns, hr] at h
  cases h.1

-- The format `%`: behind the null character the loop goes on.
theorem vsnprintf_past_format :
    vsnprintf (some fun _ => 0) 16 (CString.ofChars "%".toList) [] = .error .pastEnd := by
  rw [vsnprintf_eq_pastEnd_iff (by decide), Overruns]
  decide +kernel

lemma storeDigits_eq (hb : 1 < base)
    (hf : ∀ d < base, digit small d = f d.digitChar) (hn : num ≠ 0)
    (hr : num < base ^ room) (tmp : List UInt8) :
    storeDigits small base room num tmp = (Nat.toDigits base num).map f ++ tmp := by
  induction room generalizing num tmp
  case zero => exact absurd hr (by simpa using hn)
  case succ room ih =>
    rw [storeDigits, if_neg hn, hf _ (Nat.mod_lt _ (by omega))]
    rcases Nat.lt_or_ge num base with hlt | hge
    · rw [Nat.div_eq_of_lt hlt, Nat.mod_eq_of_lt hlt, Nat.toDigits_of_lt_base hlt]
      cases room <;> rfl
    · have hq : num / base ≠ 0 := (Nat.div_pos hge (by omega)).ne'
      have hr : num / base < base ^ room := Nat.div_lt_of_lt_mul (by rwa [Nat.pow_succ'] at hr)
      rw [ih hq hr, Nat.toDigits_of_base_le hb hge, List.map_append, List.append_assoc]
      rfl

-- 23 digits are enough for 64 bits in base 8.
lemma digits_eq (hb : 8 ≤ base)
    (hf : ∀ d < base, digit small d = f d.digitChar) (hn : num < 2 ^ 64) :
    digits small base num = (Nat.toDigits base num).map f := by
  unfold digits
  split
  case isTrue h =>
    subst h
    rw [Nat.toDigits_of_lt_base (by omega), List.map_singleton, ← hf 0 (by omega)]
    cases small <;> rfl
  case isFalse h =>
    have hr : num < base ^ 23 :=
      calc
        num < 8 ^ 23 := hn.trans (by decide)
        _   ≤ base ^ 23 := Nat.pow_le_pow_left hb 23
    rw [storeDigits_eq (by omega) hf h hr, List.append_nil]

lemma digits_decimal (w : UInt64) : digits false 10 w.toNat = numeral 10 w.toNat :=
  digits_eq (by decide) (by decide) w.toNat_lt

lemma digits_octal (w : UInt64) : digits false 8 w.toNat = numeral 8 w.toNat :=
  digits_eq (by decide) (by decide) w.toNat_lt

lemma digits_hex (w : UInt64) : digits true 16 w.toNat = numeral 16 w.toNat :=
  digits_eq (by decide) (by decide) w.toNat_lt

lemma digits_upperHex (w : UInt64) : digits false 16 w.toNat = upperNumeral 16 w.toNat :=
  digits_eq (by decide) (by decide) w.toNat_lt

-- The negation of the least number is itself, and its absolute value as an unsigned number.
lemma toNat_neg_toUInt64 {v : Int64} (h : v < 0) : (-v).toUInt64.toNat = v.toInt.natAbs := by
  have hv : v.toBitVec.toInt < 0 := by simpa [Int64.lt_iff_toInt_lt] using h
  have hl := v.toBitVec.isLt
  show (-v.toBitVec).toNat = v.toBitVec.toInt.natAbs
  rw [BitVec.toInt_eq_toNat_cond] at hv ⊢
  rw [BitVec.toNat_neg]
  split at hv <;> omega

lemma toNat_toUInt64 {v : Int64} (h : ¬v < 0) : v.toUInt64.toNat = v.toInt.natAbs := by
  have hv : ¬v.toBitVec.toInt < 0 := by simpa [Int64.lt_iff_toInt_lt] using h
  have hl := v.toBitVec.isLt
  show v.toBitVec.toNat = v.toBitVec.toInt.natAbs
  rw [BitVec.toInt_eq_toNat_cond] at hv ⊢
  split at hv <;> omega

lemma signedText_eq (v : Int64) : signedText v = signedNumeral v.toInt := by
  have hv : v < 0 ↔ v.toInt < 0 := by simp [Int64.lt_iff_toInt_lt]
  unfold signedText signedNumeral
  split
  case isTrue h => rw [if_pos (hv.mp h), digits_decimal, toNat_neg_toUInt64 h]
  case isFalse h => rw [if_neg (mt hv.mpr h), digits_decimal, toNat_toUInt64 h]

def Conversion.cchar (k : Conversion) : CChar :=
  ⟨ascii k.char, by cases k <;> decide⟩

lemma Conversion.ofChar_cchar (k : Conversion) : ofChar k.cchar = some k := by
  cases k <;> decide

lemma directive_spelling (l : Length) (k : Conversion) (rest : CString) :
    directive (CString.ofChars (l.spelling ++ [k.char]) ++ rest) = (l, k.cchar :: rest) := by
  cases l <;> cases k <;> rfl

lemma map_asString {s : List WChar} (h : ∀ c ∈ s, c.val < 128) :
    (asString s).map (·.val) = (s.take 1).map (·.val.toUInt8) := by
  cases s
  case nil => rfl
  case cons c s =>
    -- the second byte of the first character is zero
    have hbytes : ∀ n < 128, n ≠ 0 → WChar.bytes (UInt32.ofNat n) = [(UInt32.ofNat n).toUInt8, 0, 0, 0] ∧
        (UInt32.ofNat n).toUInt8 ≠ 0 := by decide +kernel
    have hlt : c.val.toNat < 128 := h c (.head _)
    obtain ⟨hb, h0⟩ := hbytes c.val.toNat hlt fun hz => c.property (UInt32.toNat_inj.mp hz)
    rw [UInt32.ofNat_toNat] at hb h0
    rw [asString, List.flatMap_cons, hb, List.cons_append, List.takeWhile_cons_of_pos (by simpa using h0),
      List.cons_append, List.takeWhile_cons_of_neg (by simp)]
    simp [h0]

lemma directiveText_wide {s : List WChar} (h : ∀ c ∈ s, c.val < 128) :
    directiveText l Conversion.s.cchar (.wide s :: args) = .ok ((s.take 1).map (·.val.toUInt8), args) := by
  have hmap := map_asString h
  have hlen : (asString s).length < 2 ^ 31 := by
    have hle := congrArg List.length hmap
    rw [List.length_map, List.length_map, List.length_take] at hle
    omega
  have hl : stringLength (asString s) = .ok (asString s).length := if_pos hlen
  unfold directiveText
  rw [Conversion.ofChar_cchar, ← hmap]
  simp [stringText, vaString, hl, bind, Except.bind, pure, Except.pure]

lemma directiveText_eq (ht : k.text l args = some (text, rest)) (hm : (Piece.directive l k h).Measured args)
    (hn : (Piece.directive l k h).Narrow args) : directiveText l k.cchar args = .ok (text, rest) := by
  revert ht
  fun_cases Conversion.text l k args <;> intro ht <;> cases ht
  case case7 s hs => rw [directiveText_wide hs.2, List.take_of_length_le hn]
  all_goals
    unfold directiveText
    rw [Conversion.ofChar_cchar]
  case case5 => rfl
  case case3 str _ =>
    have hl : stringLength str = .ok str.length := if_pos hm
    simp [stringText, vaString, hl, bind, Except.bind, pure, Except.pure]
  all_goals
    simp [wordText, vaWord, bind, Except.bind, pure, Except.pure, signedText_eq, digits_decimal, digits_octal,
      digits_hex, digits_upperHex, pointerText]

lemma outcome_ok : outcome limit b t (.ok ()) = .ok (.written b (t.take limit)) := by
  rcases Nat.lt_or_ge t.length limit with hl | hl
  case inr => exact outcome_of_le hl
  case inl =>
    rw [outcome_of_lt hl, List.take_of_length_le hl.le]
    rfl

lemma render_format_cons {h : l.Fits k} : render (format (.directive l k h :: pieces)) args =
    match directiveText l k.cchar args with
    | .error e => ([], .error e)
    | .ok (text, args) => (text ++ (render (format pieces) args).1, (render (format pieces) args).2) :=
  render_directive rfl (directive_spelling l k (format pieces))

lemma render_format_of_text (ht : p.text args = some (text, rest)) (hm : p.Measured args) (hn : p.Narrow args) :
    render (format (p :: pieces)) args =
      (text ++ (render (format pieces) rest).1, (render (format pieces) rest).2) := by
  cases p
  case literal c hc =>
    cases ht
    exact render_literal hc
  case directive l k h => rw [render_format_cons, directiveText_eq ht hm hn]

lemma render_of_not_measured (hm : ¬p.Measured args) : render (format (p :: pieces)) args = ([], .error .length) := by
  unfold Piece.Measured at hm
  split at hm
  case h_2 => exact absurd trivial hm
  case h_1 l h str args =>
    have hl : stringLength str = .error .length := if_neg hm
    rw [render_format_cons]
    unfold directiveText
    rw [Conversion.ofChar_cchar]
    simp [stringText, vaString, hl, bind, Except.bind, pure, Except.pure]

lemma Along.of_le (h : limit ≤ n) : Along P limit n pieces args := by
  cases pieces
  case nil => trivial
  case cons => exact fun hlt => absurd h hlt.not_ge

lemma Along.tail (h : Along P limit n (p :: pieces) args) (hlt : n < limit) (ht : p.text args = some (text, rest)) :
    Along P limit (n + text.length) pieces rest :=
  (h hlt).2 _ _ ht

lemma outcome_format (t : List UInt8) (h : standard pieces args = some text)
    (hn : Narrow limit t.length pieces args) :
    (Measured limit t.length pieces args →
      outcome limit b (t ++ (render (format pieces) args).1) (render (format pieces) args).2 =
        .ok (.written b ((t ++ text).take limit))) ∧
    (¬Measured limit t.length pieces args →
      outcome limit b (t ++ (render (format pieces) args).1) (render (format pieces) args).2 = .error .length) := by
  induction pieces generalizing args text t
  case nil =>
    cases h
    rw [format, List.flatMap_nil, render_nil, List.append_nil]
    exact ⟨fun _ => outcome_ok, absurd trivial⟩
  case cons p pieces ih =>
    obtain ⟨⟨text1, rest⟩, ht, h⟩ := Option.bind_eq_some_iff.mp h
    obtain ⟨text2, hr, he⟩ := Option.bind_eq_some_iff.mp h
    cases he
    rcases Nat.lt_or_ge t.length limit with hl | hl
    case inr =>
      rw [outcome_of_le (by rw [List.length_append]; omega), List.take_append_of_le_length hl,
        List.take_append_of_le_length hl]
      exact ⟨fun _ => rfl, absurd (Along.of_le hl)⟩
    by_cases hp : p.Measured args
    case neg =>
      rw [render_of_not_measured hp, List.append_nil, outcome_of_lt hl]
      exact ⟨fun hm => absurd (hm hl).1 hp, fun _ => rfl⟩
    have hiff : Measured limit t.length (p :: pieces) args ↔ Measured limit (t ++ text1).length pieces rest := by
      rw [List.length_append]
      refine ⟨fun hm => Along.tail hm hl ht, fun hm _ => ⟨hp, fun text' rest' ht' => ?_⟩⟩
      cases ht.symm.trans ht'
      exact hm
    rw [render_format_of_text ht hp (hn hl).1, ← List.append_assoc, ← List.append_assoc, hiff]
    refine ih (t ++ text1) hr ?_
    rw [List.length_append]
    exact Along.tail hn hl ht

lemma bound_eq (hs : size.toNat < 2 ^ 31) : bound size = size.toNat - 1 := by
  have hi : size.toUInt32.toInt32.toInt = size.toNat := by
    show (BitVec.ofNat 32 size.toNat).toInt = size.toNat
    rw [BitVec.toInt_eq_toNat_cond, BitVec.toNat_ofNat]
    split <;> omega
  have hb : (size.toUInt32.toInt32 - 1).toInt = size.toNat - 1 := by
    rw [Int32.toInt_sub, hi]
    exact Int.bmod_eq_of_le (by simp; omega) (by simp; omega)
  unfold bound
  rw [hb]
  omega

-- The buffer has the front of the standard text that there is room for, and the null character.
theorem vsnprintf_standard (b : Nat → UInt8) (size : UInt64) (hs : 1 ≤ size) (hl : size.toNat < 2 ^ 31)
    (pieces : List Piece) (args : List Arg) (text : List UInt8) (h : standard pieces args = some text)
    (hn : Narrow (size.toNat - 1) 0 pieces args) :
    vsnprintf (some b) size (format pieces) args =
      .ok (some fun i => (text.take (size.toNat - 1) ++ [0])[i]?.getD (b i),
        min text.length (size.toNat - 1)) ↔ Measured (size.toNat - 1) 0 pieces args := by
  have hne : size ≠ 0 := by
    rintro rfl
    exact absurd hs (by decide)
  have ho := outcome_format (b := b) [] h hn
  rw [List.nil_append, List.nil_append] at ho
  rw [vsnprintf_eq hne, bound_eq hl]
  have hp : (Sink.written b (text.take (size.toNat - 1))).pos = min text.length (size.toNat - 1) := by
    rw [Sink.pos_written, List.length_take, Nat.min_comm]
  have hf : (Sink.written b (text.take (size.toNat - 1) ++ [0])).buf =
      fun i => (text.take (size.toNat - 1) ++ [0])[i]?.getD (b i) := funext Sink.buf_written
  rw [← hf, ← Sink.update_written, ← hp]
  constructor
  · intro he
    by_contra hm
    rw [ho.2 hm] at he
    cases he
  · intro hm
    rw [ho.1 hm]
    rfl

-- The least `int`, cut off within its digits, behind a wide character.
theorem vsnprintf_standard_least :
    vsnprintf (some fun _ => 0) 7 (format [.directive .long .c (.inr (.inr ⟨rfl, .inl rfl⟩)),
        .directive .none .d (.inl rfl)]) [.word 0x41, .word 0x80000000] =
      .ok (some fun i => (("A-2147483648".toList.map ascii).take 6 ++ [0])[i]?.getD 0, 6) := by
  refine (vsnprintf_standard _ 7 (by decide) (by decide) _ [.word 0x41, .word 0x80000000]
    ("A-2147483648".toList.map ascii) (by decide +kernel) ?_).mpr ?_
  all_goals exact fun _ => ⟨trivial, fun _ _ _ _ => ⟨trivial, fun _ _ _ => trivial⟩⟩

lemma vsnprintf_eq_length (h : 2 ^ 31 ≤ str.length) :
    vsnprintf (some b) 2 (format [.directive .none .s (.inl rfl)]) [.string (some str)] =
      .error .length := by
  have hr : render (format [.directive .none .s (.inl rfl)]) [.string (some str)] = ([], .error .length) :=
    render_of_not_measured (Nat.not_lt.mpr h)
  rw [vsnprintf_eq (by decide), hr]
  rfl

-- A string of 2 GiB: the counter of its length overflows before the first character is stored.
theorem vsnprintf_nonstandard :
    standard [.directive .none .s (.inl rfl)] [.string (some (List.replicate (2 ^ 31) CString.slash))] =
        some (List.replicate (2 ^ 31) 0x2F) ∧
      vsnprintf (some fun _ => 0) 2 (format [.directive .none .s (.inl rfl)])
        [.string (some (List.replicate (2 ^ 31) CString.slash))] = .error .length := by
  have hs (str : CString) : standard [.directive .none .s (.inl rfl)] [.string (some str)] =
      some (str.map (·.val)) := by simp [standard, Piece.text, Conversion.text]
  refine ⟨?_, vsnprintf_eq_length (by rw [List.length_replicate])⟩
  rw [hs, List.map_replicate]
  rfl

end Format
