import VoidFrame.Clock.Rtc

-- The time that is read from the clock is the one that was set.

namespace Rtc

section

lemma bcdToBinary_binaryToBcd (h : v.toNat < 100) : bcdToBinary (binaryToBcd v) = v := by
  have hv : ∀ n < 100, bcdToBinary (binaryToBcd (UInt8.ofNat n)) = UInt8.ofNat n := by decide
  simpa using hv v.toNat h

lemma decode_encode (h : v.toNat < 100) : decode b (encode b v) = v := by
  unfold decode encode
  split
  · exact bcdToBinary_binaryToBcd h
  · rfl

lemma decodeHour_encode (h : v.toNat < 24) : decodeHour b (encode b v) = v := by
  have hv : ∀ n < 24, UInt8.ofNat n &&& 0x80 = 0 := by decide
  unfold decodeHour
  rw [decode_encode (by omega), if_neg]
  rintro ⟨-, hb⟩
  exact hb (by simpa using hv v.toNat h)

-- A date that fits in the registers.
structure DateTime.Fits (t : DateTime) : Prop where
  second : t.second.toNat < 60
  minute : t.minute.toNat < 60
  hour : t.hour.toNat < 24
  day : t.day.toNat < 100
  month : t.month.toNat < 100
  year : t.year.toNat < 10000

section

variable {year : UInt16} (h : year.toNat < 10000)

lemma yearOfCentury_toNat : (year % 100).toUInt8.toNat = year.toNat % 100 := by
  rw [UInt16.toNat_toUInt8, UInt16.toNat_mod, show (100 : UInt16).toNat = 100 from rfl]
  omega

include h in
lemma century_toNat : (year / 100).toUInt8.toNat = year.toNat / 100 := by
  rw [UInt16.toNat_toUInt8, UInt16.toNat_div, show (100 : UInt16).toNat = 100 from rfl]
  omega

include h in
lemma year_eq : (year % 100).toUInt8.toUInt16 + (year / 100).toUInt8.toUInt16 * 100 = year := by
  rw [← UInt16.toNat_inj, UInt16.toNat_add, UInt16.toNat_mul, UInt8.toNat_toUInt16, UInt8.toNat_toUInt16,
    yearOfCentury_toNat, century_toNat h, show (100 : UInt16).toNat = 100 from rfl]
  omega

end

variable {cmos : Cmos}

lemma rtcReadTime_rtcSetTime (hu : isUpdating cmos = false) (ht : t.Fits) :
    rtcReadTime (rtcSetTime cmos t) = some t := by
  have hc : (t.year % 100).toUInt8.toNat < 100 ∧ (t.year / 100).toUInt8.toNat < 100 := by
    have := ht.year
    rw [yearOfCentury_toNat, century_toNat ht.year]
    omega
  have he : rtcReadTime (rtcSetTime cmos t) = if isUpdating cmos then none else some {
      second := decode (cmos statusB) (encode (cmos statusB) t.second)
      minute := decode (cmos statusB) (encode (cmos statusB) t.minute)
      hour := decodeHour (cmos statusB) (encode (cmos statusB) t.hour)
      day := decode (cmos statusB) (encode (cmos statusB) t.day)
      month := decode (cmos statusB) (encode (cmos statusB) t.month)
      year := (decode (cmos statusB) (encode (cmos statusB) (t.year % 100).toUInt8)).toUInt16 +
        (decode (cmos statusB) (encode (cmos statusB) (t.year / 100).toUInt8)).toUInt16 * 100 } := rfl
  rw [he, if_neg (by simp [hu]), decode_encode (by have := ht.second; omega),
    decode_encode (by have := ht.minute; omega), decodeHour_encode ht.hour, decode_encode ht.day,
    decode_encode ht.month, decode_encode hc.1, decode_encode hc.2, year_eq ht.year]

end

lemma yearLen_ne_zero (year : Nat) : yearLen year ≠ some 0 := by
  unfold yearLen yearDays
  split <;> simp

def leapYears (year : Nat) : Nat :=
  year / 4 - year / 100 + year / 400

lemma leapYears_succ (year : Nat) :
    leapYears (year + 1) = leapYears year +
      if (4 ∣ year + 1 ∧ ¬100 ∣ year + 1) ∨ 400 ∣ year + 1 then 1 else 0 := by
  have h1 : 400 ∣ year + 1 → 100 ∣ year + 1 := Nat.dvd_trans (by decide)
  have h2 : 100 ∣ year + 1 → 4 ∣ year + 1 := Nat.dvd_trans (by decide)
  have hle : year / 100 ≤ year / 4 := Nat.div_le_div_left (by decide) (by decide)
  unfold leapYears
  rw [Nat.succ_div, Nat.succ_div, Nat.succ_div]
  generalize year / 4 = a at *
  generalize year / 100 = b at *
  generalize year / 400 = c at *
  split_ifs <;> omega

lemma yearDays_ofNat {year : Nat} (h : year < 65536) :
    yearDays (UInt16.ofNat year) = 365 + if (4 ∣ year ∧ ¬100 ∣ year) ∨ 400 ∣ year then 1 else 0 := by
  have hy : (UInt16.ofNat year).toNat = year := UInt16.toNat_ofNat_of_lt' h
  simp only [yearDays, isLeapYear, decide_eq_true_eq, ne_eq, ← UInt16.toNat_inj, UInt16.toNat_mod, hy,
    UInt16.reduceToNat, ← Nat.dvd_iff_mod_eq_zero]
  split <;> rfl

lemma total_yearLen {k : Nat} (h : k ≤ 63566) :
    Intervals.total yearLen 1970 k = some (365 * k + (leapYears (1969 + k) - leapYears 1969)) := by
  induction k
  case zero => simp [Intervals.total]
  case succ k ih =>
    have hs := leapYears_succ (1969 + k)
    have hm : leapYears 1969 ≤ leapYears (1969 + k) := by
      clear ih hs h
      induction k
      case zero => exact le_rfl
      case succ k ih => exact ih.trans (leapYears_succ (1969 + k) ▸ Nat.le_add_right _ _)
    rw [Intervals.total, ih (by omega), yearLen, yearDays_ofNat (by omega), Option.bind_eq_bind, Option.bind_some,
      Option.bind_some, Option.pure_def, Option.some_inj, show 1970 + k = 1969 + k + 1 by omega,
      show 1969 + (k + 1) = 1969 + k + 1 by omega, hs]
    omega

lemma total_years : Intervals.total yearLen 1970 8030 = some 2932897 := by
  rw [total_yearLen (by decide)]
  decide

lemma monthLen_ne_zero (year : UInt16) (month : Nat) : monthLen year month ≠ some 0 := by
  intro h
  obtain ⟨n, hn, h⟩ := Option.bind_eq_some_iff.mp h
  have hm : n ∈ daysInMonth := List.mem_of_getElem? hn
  have hp : ∀ n ∈ daysInMonth, n ≠ 0 := by decide
  exact hp n hm (Nat.eq_zero_of_add_eq_zero_right (Option.some.inj h))

lemma total_monthLen (year : UInt16) : Intervals.total (monthLen year) 1 12 = some (yearDays year) := by
  cases h : isLeapYear year <;> simp [Intervals.total, monthLen, daysInMonth, yearDays, h]

lemma monthLen_le {year : UInt16} {month n : Nat} (h : monthLen year month = some n) : n ≤ 32 := by
  obtain ⟨k, hk, h⟩ := Option.bind_eq_some_iff.mp h
  have hm : k ∈ daysInMonth := List.mem_of_getElem? hk
  have hp : ∀ k ∈ daysInMonth, k ≤ 31 := by decide
  have := hp k hm
  obtain rfl := Option.some.inj h
  split <;> omega

-- Up to the end of the year 9999 every day has a date, and the days before it are counted again.
lemma exists_dateOf (h : days < 2932897) :
    ∃ year month rest n, dateOf days = some (year, month, rest) ∧ year.toNat < 10000 ∧ month ≤ 12 ∧ rest < 32 ∧
      daysBefore year (UInt8.ofNat month) = some n ∧ n + rest = days := by
  obtain ⟨r, k, m, l, hy, hk, hm, hs, hl, hr⟩ :=
    Intervals.exists_locate yearLen_ne_zero total_years h (Nat.lt_succ_self days)
  have hyear : (UInt16.ofNat (1970 + k)).toNat = 1970 + k := UInt16.toNat_ofNat_of_lt' (by
    show 1970 + k < 65536
    omega)
  obtain rfl := Option.some.inj hl
  obtain ⟨r', k', m', l', hy', hk', hm', hs', hl', hr'⟩ :=
    Intervals.exists_locate (monthLen_ne_zero _) (total_monthLen (UInt16.ofNat (1970 + k))) hr (Nat.lt_succ_self r)
  have hmonth : (UInt8.ofNat (1 + k')).toNat = 1 + k' := UInt8.toNat_ofNat_of_lt' (by
    show 1 + k' < 256
    omega)
  refine ⟨UInt16.ofNat (1970 + k), 1 + k', r', m + m', ?_, by omega, by omega, ?_, ?_, by omega⟩
  · unfold dateOf
    rw [hy]
    exact congrArg (fun x => Option.bind x _) hy'
  · exact hr'.trans_le (monthLen_le hl')
  · unfold daysBefore
    rw [hyear, hmonth, Nat.add_sub_cancel_left, Nat.add_sub_cancel_left, hm, hm']
    rfl

-- The last second of the year 9999.
def lastSecond : UInt64 := 253402300799

lemma rtcGetUnixTime_eq (ht : rtcReadTime cmos = some t)
    (hn : daysBefore t.year t.month = some n) :
    rtcGetUnixTime cmos = some ((UInt64.ofNat n + (t.day.toUInt64 - 1)) * 86400 + t.hour.toUInt64 * 3600 +
      t.minute.toUInt64 * 60 + t.second.toUInt64) := by
  unfold rtcGetUnixTime
  rw [ht, Option.bind_eq_bind, Option.bind_some, hn]
  rfl

lemma seconds_eq {t : UInt64} {n rest : Nat} {day hour minute second : UInt8} (h : n + rest = t.toNat / 86400)
    (hd : day.toNat = rest + 1) (hh : hour.toNat = t.toNat / 3600 % 24) (hm : minute.toNat = t.toNat / 60 % 60)
    (hs : second.toNat = t.toNat % 60) :
    (UInt64.ofNat n + (day.toUInt64 - 1)) * 86400 + hour.toUInt64 * 3600 + minute.toUInt64 * 60 + second.toUInt64
      = t := by
  have hc : ∀ v : UInt8, v.toUInt64 = UInt64.ofNat v.toNat := fun v => by
    rw [← UInt64.toNat_inj, UInt8.toNat_toUInt64, UInt64.toNat_ofNat_of_lt' (v.toNat_lt.trans (by decide))]
  have hr : day.toUInt64 - 1 = UInt64.ofNat rest := by
    rw [hc, hd, UInt64.ofNat_add]
    exact add_sub_cancel_right _ _
  have ht : t.toNat / 86400 * 86400 + t.toNat / 3600 % 24 * 3600 + t.toNat / 60 % 60 * 60 + t.toNat % 60
      = t.toNat := by
    omega
  rw [hr, hc hour, hc minute, hc second, hh, hm, hs, ← UInt64.ofNat_add, h,
    show (86400 : UInt64) = UInt64.ofNat 86400 from rfl, show (3600 : UInt64) = UInt64.ofNat 3600 from rfl,
    show (60 : UInt64) = UInt64.ofNat 60 from rfl, ← UInt64.ofNat_mul, ← UInt64.ofNat_mul, ← UInt64.ofNat_mul,
    ← UInt64.ofNat_add, ← UInt64.ofNat_add, ← UInt64.ofNat_add, ht, UInt64.ofNat_toNat]

theorem rtcGetUnixTime_rtcSetUnixTime (cmos : Cmos) (t : UInt64) (ht : t ≤ lastSecond)
    (hu : isUpdating cmos = false) : (rtcSetUnixTime cmos t).bind rtcGetUnixTime = some t := by
  have ht : t.toNat ≤ 253402300799 := UInt64.le_iff_toNat_le.mp ht
  have hd : (t / 60 / 60 / 24).toNat = t.toNat / 86400 := by
    rw [UInt64.toNat_div, UInt64.toNat_div, UInt64.toNat_div, Nat.div_div_eq_div_mul, Nat.div_div_eq_div_mul]
    rfl
  obtain ⟨year, month, rest, n, he, hy, hm, hr, hn, hs⟩ := exists_dateOf (show t.toNat / 86400 < 2932897 by omega)
  have hsec : (t % 60).toUInt8.toNat = t.toNat % 60 := by
    rw [UInt64.toNat_toUInt8, UInt64.toNat_mod, show (60 : UInt64).toNat = 60 from rfl]
    omega
  have hmin : (t / 60 % 60).toUInt8.toNat = t.toNat / 60 % 60 := by
    rw [UInt64.toNat_toUInt8, UInt64.toNat_mod, UInt64.toNat_div, show (60 : UInt64).toNat = 60 from rfl]
    omega
  have hhour : (t / 60 / 60 % 24).toUInt8.toNat = t.toNat / 3600 % 24 := by
    rw [UInt64.toNat_toUInt8, UInt64.toNat_mod, UInt64.toNat_div, UInt64.toNat_div, Nat.div_div_eq_div_mul,
      show (60 : UInt64).toNat = 60 from rfl, show (24 : UInt64).toNat = 24 from rfl]
    omega
  have hday : (UInt8.ofNat (rest + 1)).toNat = rest + 1 := UInt8.toNat_ofNat_of_lt' (by
    show rest + 1 < 256
    omega)
  have hmonth : (UInt8.ofNat month).toNat = month := UInt8.toNat_ofNat_of_lt' (by
    show month < 256
    omega)
  have hf : DateTime.Fits ⟨(t % 60).toUInt8, (t / 60 % 60).toUInt8, (t / 60 / 60 % 24).toUInt8,
      UInt8.ofNat (rest + 1), UInt8.ofNat month, year⟩ := by
    constructor
    case year => exact hy
    all_goals
      dsimp only
      omega
  have hg := rtcGetUnixTime_eq (rtcReadTime_rtcSetTime hu hf) hn
  unfold rtcSetUnixTime
  rw [hd, he]
  exact hg.trans (congrArg some (seconds_eq hs hday hhour hmin hsec))

-- The second before the year 2000, on a clock with decimal digits and the 12-hour format.
theorem rtcGetUnixTime_rtcSetUnixTime_1999 :
    (rtcSetUnixTime (fun _ => 0) 946684799).bind rtcGetUnixTime = some 946684799 :=
  rtcGetUnixTime_rtcSetUnixTime (fun _ => 0) 946684799 (by decide +kernel) (by decide +kernel)

end Rtc
