import VoidFrame.Text.Format

-- What formats stand for, regardless of the size of the buffer.

namespace Format

def signedText (v : Int64) : List UInt8 :=
  if v < 0 then ascii '-' :: digits false 10 (-v).toUInt64.toNat
  else digits false 10 v.toUInt64.toNat

def pointerText (w : UInt64) : List UInt8 :=
  ascii '0' :: ascii 'x' :: digits true 16 w.toNat

def wordText (args : List Arg) (f : UInt64 → List UInt8) : Except Fault (List UInt8 × List Arg) := do
  let (w, args) ← vaWord args
  return (f w, args)

def stringText (args : List Arg) : Except Fault (List UInt8 × List Arg) := do
  let (p, args) ← vaString args
  match p with
  | none => return (null, args)
  | some p =>
    let len ← stringLength p
    return ((p.take len).map (·.val), args)

def directiveText (l : Length) (k : CChar) (args : List Arg) : Except Fault (List UInt8 × List Arg) :=
  match Conversion.ofChar k with
  | some .c => wordText args fun w => [w.toUInt8]
  | some .s => stringText args
  | some .d => wordText args fun w => signedText (l.signed w)
  | some .i => wordText args fun w => signedText (l.signed w)
  | some .u => wordText args fun w => digits false 10 (l.unsigned w).toNat
  | some .x => wordText args fun w => digits true 16 (l.unsigned w).toNat
  | some .X => wordText args fun w => digits false 16 (l.unsigned w).toNat
  | some .o => wordText args fun w => digits false 8 (l.unsigned w).toNat
  | some .p => wordText args pointerText
  | some .percent => return ([ascii '%'], args)
  | none => return ([ascii '%', k.val], args)

-- The text of a format up to its end, or up to the directive that cannot be carried out.
def render (fmt : CString) (args : List Arg) : List UInt8 × Except Fault Unit :=
  match fmt with
  | [] => ([], .ok ())
  | c :: fmt =>
    if is '%' c then
      match h : directive fmt with
      | (_, []) => ([], .error .pastEnd)
      | (l, k :: rest) =>
        have := length_lt_of_directive h
        match directiveText l k args with
        | .error e => ([], .error e)
        | .ok (text, args) => (text ++ (render rest args).1, (render rest args).2)
    else (c.val :: (render fmt args).1, (render fmt args).2)
termination_by fmt.length

section

variable {c : CChar} {fmt : CString} {l : Length} {args : List Arg}

lemma render_nil : render [] args = ([], .ok ()) := by
  rw [render.eq_def]

lemma render_literal (hc : is '%' c = false) :
    render (c :: fmt) args = (c.val :: (render fmt args).1, (render fmt args).2) := by
  rw [render.eq_def]
  simp [hc]

lemma render_unfinished (hc : is '%' c) (hd : directive fmt = (l, [])) :
    render (c :: fmt) args = ([], .error .pastEnd) := by
  rw [render.eq_def]
  dsimp only
  rw [if_pos hc]
  split
  case h_1 => rfl
  case h_2 h => cases hd.symm.trans h

lemma render_directive (hc : is '%' c) (hd : directive fmt = (l, k :: rest)) :
    render (c :: fmt) args =
      match directiveText l k args with
      | .error e => ([], .error e)
      | .ok (text, args) => (text ++ (render rest args).1, (render rest args).2) := by
  rw [render.eq_def]
  dsimp only
  rw [if_pos hc]
  split
  case h_1 h => cases hd.symm.trans h
  case h_2 h =>
    cases hd.symm.trans h
    rfl

variable {limit : Nat} {s : Sink UInt8}

lemma scan_literal (hp : s.pos < limit) (hc : is '%' c = false) :
    scan limit (c :: fmt) s args = scan limit fmt (s.push c.val) args := by
  rw [scan.eq_def]
  simp [hp, hc]

lemma scan_unfinished (hp : s.pos < limit) (hc : is '%' c) (hd : directive fmt = (l, [])) :
    scan limit (c :: fmt) s args = .error .pastEnd := by
  rw [scan.eq_def]
  dsimp only
  rw [if_pos hp, if_pos hc]
  split
  case h_1 => rfl
  case h_2 h => cases hd.symm.trans h

lemma scan_directive (hp : s.pos < limit) (hc : is '%' c) (hd : directive fmt = (l, k :: rest)) :
    scan limit (c :: fmt) s args =
      (convert limit l (k :: rest) s args >>= fun r => scan limit rest r.1 r.2) := by
  rw [scan.eq_def]
  dsimp only
  rw [if_pos hp, if_pos hc]
  split
  case h_1 h => cases hd.symm.trans h
  case h_2 h =>
    cases hd.symm.trans h
    rfl

end

variable {limit : Nat} {b : Nat → UInt8} {t : List UInt8}

section

open Sink (written emit_written copy_written push_written)

variable {args : List Arg} {l : Length}

def extend (limit : Nat) (b : Nat → UInt8) (t text : List UInt8) : Sink UInt8 :=
  written b ((t ++ text).take limit)

lemma pos_lt (h : t.length < limit) : (written b (t.take limit)).pos < limit := by
  rw [Sink.pos_written, List.length_take]
  omega

lemma push_eq_extend (h : t.length < limit) (c : UInt8) :
    (written b (t.take limit)).push c = extend limit b t [c] := by
  rw [push_written, extend, List.take_of_length_le h.le, List.take_of_length_le (by simp; omega)]

lemma copy_eq_extend (text : List UInt8) :
    (written b (t.take limit)).copy limit text = extend limit b t text :=
  copy_written text

lemma emit_eq_extend (c : UInt8) :
    (written b (t.take limit)).emit limit c = extend limit b t [c] :=
  emit_written c

lemma numberToStr_extend (text : List UInt8) (num base : Nat) (small : Bool) :
    numberToStr limit (extend limit b t text) num base small =
      extend limit b t (text ++ digits small base num) := by
  rw [numberToStr, extend, copy_eq_extend, extend, extend, List.append_assoc]

lemma putChar_written (h : t.length < limit) :
    putChar limit (written b (t.take limit)) args =
      Prod.map (extend limit b t) id <$> wordText args fun w => [w.toUInt8] := by
  unfold putChar wordText
  rw [if_pos (pos_lt h)]
  cases vaWord args
  case error => rfl
  case ok r => exact congrArg (fun s => Except.ok (s, r.2)) (push_eq_extend h _)

lemma putString_written :
    putString limit (written b (t.take limit)) args =
      Prod.map (extend limit b t) id <$> stringText args := by
  unfold putString stringText
  rcases vaString args with _ | r
  · rfl
  rcases hs : r.1 with _ | p
  · simp [bind, Except.bind, hs, copy_eq_extend, pure, Except.pure]
  simp only [bind, Except.bind, hs]
  cases stringLength p
  case error => rfl
  case ok n => simp [copy_eq_extend, pure, Except.pure]

lemma putSigned_written (h : t.length < limit) :
    putSigned limit l (written b (t.take limit)) args =
      Prod.map (extend limit b t) id <$> wordText args fun w => signedText (l.signed w) := by
  have hp : (written b (t.take limit)).pos < limit := pos_lt h
  unfold putSigned wordText
  rcases vaWord args with _ | r
  · rfl
  by_cases hn : l.signed r.1 < 0
  case pos =>
    simp only [bind, Except.bind, hn, hp, and_self, if_true, push_eq_extend h,
      numberToStr_extend, signedText]
    rfl
  simp only [bind, Except.bind, hn, false_and, if_false, numberToStr, copy_eq_extend, signedText]
  rfl

lemma putUnsigned_written (base : Nat) (small : Bool) :
    putUnsigned limit l base small (written b (t.take limit)) args =
      Prod.map (extend limit b t) id <$> wordText args fun w => digits small base (l.unsigned w).toNat := by
  unfold putUnsigned wordText
  cases vaWord args
  case error => rfl
  case ok r => simp only [bind, Except.bind, numberToStr, copy_eq_extend]; rfl

lemma putPointer_written :
    putPointer limit (written b (t.take limit)) args =
      Prod.map (extend limit b t) id <$> wordText args pointerText := by
  have he : ((written b (t.take limit)).emit limit (ascii '0')).emit limit (ascii 'x') =
      extend limit b t [ascii '0', ascii 'x'] := by
    rw [emit_written, emit_written, extend, List.append_assoc, List.singleton_append]
  unfold putPointer wordText
  simp only [he]
  cases vaWord args
  case error => rfl
  case ok r => simp only [bind, Except.bind, numberToStr_extend]; rfl

lemma convert_written (h : t.length < limit) (k : CChar) (rest : CString) :
    convert limit l (k :: rest) (written b (t.take limit)) args =
      Prod.map (extend limit b t) id <$> directiveText l k args := by
  unfold convert directiveText
  dsimp only
  rcases Conversion.ofChar k with _ | conv
  · simp only [emit_written, List.append_assoc]
    rfl
  cases conv
  case c => exact putChar_written h
  case s => exact putString_written
  case d => exact putSigned_written h
  case i => exact putSigned_written h
  case u => exact putUnsigned_written 10 false
  case x => exact putUnsigned_written 16 true
  case X => exact putUnsigned_written 16 false
  case o => exact putUnsigned_written 8 false
  case p => exact putPointer_written
  case percent => exact congrArg (fun s => Except.ok (s, args)) (emit_eq_extend _)

end

-- The sink after a text of which `r` says how it ends.
def outcome (limit : Nat) (b : Nat → UInt8) (t : List UInt8) (r : Except Fault Unit) :
    Except Fault (Sink UInt8) :=
  if limit ≤ t.length then .ok (.written b (t.take limit)) else (fun _ => .written b t) <$> r

lemma outcome_of_le (h : limit ≤ t.length) :
    outcome limit b t r = .ok (.written b (t.take limit)) :=
  if_pos h

lemma outcome_of_lt (h : t.length < limit) :
    outcome limit b t r = (fun _ => .written b t) <$> r :=
  if_neg (by omega)

lemma scan_of_le (fmt : CString) (args : List Arg) (h : limit ≤ t.length) :
    scan limit fmt (.written b (t.take limit)) args = .ok (.written b (t.take limit)) := by
  rw [scan.eq_def]
  cases fmt
  case nil => rfl
  case cons c fmt => exact if_neg (by rw [Sink.pos_written, List.length_take]; omega)

-- The loop writes the text of the format until the buffer is full. If it does not get full, then the
-- loop ends as the text does.
lemma scan_written (fmt : CString) (args : List Arg) (t : List UInt8) :
    scan limit fmt (.written b (t.take limit)) args =
      outcome limit b (t ++ (render fmt args).1) (render fmt args).2 := by
  rcases Nat.lt_or_ge t.length limit with hl | hl
  case inr =>
    rw [scan_of_le _ _ hl, outcome_of_le (by rw [List.length_append]; omega),
      List.take_append_of_le_length hl]
  case inl =>
    have hp : (Sink.written b (t.take limit)).pos < limit := pos_lt hl
    rcases fmt with _ | ⟨c, fmt⟩
    · rw [scan.eq_def, render_nil, List.append_nil, outcome_of_lt hl, List.take_of_length_le hl.le]
      rfl
    cases hc : is '%' c
    case false =>
      rw [scan_literal hp hc, render_literal hc, push_eq_extend hl, extend, scan_written fmt,
        List.append_assoc]
      rfl
    rcases hr : (directive fmt).2 with _ | ⟨k, rest⟩
    · have hd : directive fmt = ((directive fmt).1, []) := Prod.ext rfl hr
      rw [scan_unfinished hp hc hd, render_unfinished hc hd, List.append_nil, outcome_of_lt hl]
      rfl
    have hd : directive fmt = ((directive fmt).1, k :: rest) := Prod.ext rfl hr
    have hlt := length_lt_of_directive hd
    rw [scan_directive hp hc hd, render_directive hc hd, convert_written hl]
    rcases directiveText (directive fmt).1 k args with e | r
    · dsimp only
      rw [List.append_nil, outcome_of_lt hl]
      rfl
    have ih := scan_written rest r.2 (t ++ r.1)
    rw [List.append_assoc] at ih
    exact ih
termination_by fmt.length

lemma vsnprintf_eq (hs : size ≠ 0) (fmt : CString) (args : List Arg) :
    vsnprintf (some b) size fmt args =
      (fun s => (some (Function.update s.buf s.pos 0), s.pos)) <$>
        outcome (bound size) b (render fmt args).1 (render fmt args).2 := by
  have h := @scan_written (bound size) b fmt args []
  rw [List.take_nil, Sink.written_nil, List.nil_append] at h
  simp only [vsnprintf, hs, if_false, h]
  cases outcome (bound size) b (render fmt args).1 (render fmt args).2 <;> rfl

end Format
