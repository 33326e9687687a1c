import Mathlib.Data.Int.Order.Basic
import Mathlib.Tactic

set_option autoImplicit false

/-! # Date and time

A Unix time counts the seconds since January 1st, 1970. The two conversions count the days of a year
from March 1st on, so that the leap day is the last one. `time_t` is taken to hold every number from
0 to `2 ^ 32 - 1`. -/

/-- Date and time representation. -/
structure DateTime where
  year : UInt16
  month : UInt8
  day : UInt8
  dayOfWeek : UInt8
  hours : UInt8
  minutes : UInt8
  seconds : UInt8
  milliseconds : UInt16
  deriving DecidableEq, Repr

/-- Calculate day of week. -/
def computeDayOfWeek (y : UInt16) (m d : UInt8) : UInt8 :=
  -- January and February are counted as months 13 and 14 of the previous year
  let (y, m) := if m ≤ 2 then (y - 1, m + 12) else (y, m)
  let j := (y / 100).toUInt32
  let k := (y % 100).toUInt32
  -- Zeller's congruence
  let h := d.toUInt32 + 26 * (m.toUInt32 + 1) / 10 + k + k / 4 + 5 * j + j / 4
  ((h + 5) % 7 + 1).toUInt8

/-- The part of `convertUnixTimeToDate` that finds year, month and day of a day of the Unix time. -/
def convertDaysToDate (t : ℕ) : UInt32 × UInt32 × UInt32 :=
  let a := UInt32.ofNat ((4 * t + 102032) / 146097 + 15)
  let b := UInt32.ofNat (t + 2442113 + a.toNat - (a / 4).toNat)
  let c := (20 * b - 2442) / 7305
  let d := b - 365 * c - c / 4
  let e := d * 1000 / 30601
  let f := d - e * 30 - e * 601 / 1000
  -- January and February are counted as months 13 and 14 of the previous year
  if e ≤ 13 then (c - 4716, e - 1, f) else (c - 4715, e - 13, f)

/-- Convert Unix timestamp to date. -/
def convertUnixTimeToDate (t : ℤ) : DateTime :=
  -- Negative Unix time values are not supported
  let t := if t < 1 then 0 else t.toNat
  let seconds := t % 60
  let t := t / 60
  let minutes := t % 60
  let t := t / 60
  let hours := t % 24
  let t := t / 24
  let date := convertDaysToDate t
  { year := date.1.toUInt16
    month := date.2.1.toUInt8
    day := date.2.2.toUInt8
    dayOfWeek := computeDayOfWeek date.1.toUInt16 date.2.1.toUInt8 date.2.2.toUInt8
    hours := UInt8.ofNat hours
    minutes := UInt8.ofNat minutes
    seconds := UInt8.ofNat seconds
    milliseconds := 0 }

/-- Convert date to Unix timestamp. -/
def convertDateToUnixTime (date : DateTime) : ℤ :=
  let y := date.year.toUInt32
  let m := date.month.toUInt32
  let d := date.day.toUInt32
  -- January and February are counted as months 13 and 14 of the previous year
  let (y, m) := if m ≤ 2 then (y - 1, m + 12) else (y, m)
  let t := 365 * y + y / 4 - y / 100 + y / 400
  let t := t + (30 * m + 3 * (m + 1) / 5 + d)
  let t := t - 719561
  let t := t * 86400
  let t := t + (3600 * date.hours.toUInt32 + 60 * date.minutes.toUInt32 + date.seconds.toUInt32)
  t.toNat

/-- Compare dates. -/
def compareDateTime (date1 date2 : DateTime) : ℤ :=
  if date1.year < date2.year then -1
  else if date1.year > date2.year then 1
  else if date1.month < date2.month then -1
  else if date1.month > date2.month then 1
  else if date1.day < date2.day then -1
  else if date1.day > date2.day then 1
  else if date1.hours < date2.hours then -1
  else if date1.hours > date2.hours then 1
  else if date1.minutes < date2.minutes then -1
  else if date1.minutes > date2.minutes then 1
  else if date1.seconds < date2.seconds then -1
  else if date1.seconds > date2.seconds then 1
  else if date1.milliseconds < date2.milliseconds then -1
  else if date1.milliseconds > date2.milliseconds then 1
  else 0

/-! ## The Gregorian calendar -/

namespace Calendar

/-- A year of 366 days. -/
def isLeapYear (y : ℕ) : Bool := y % 4 = 0 ∧ (y % 100 ≠ 0 ∨ y % 400 = 0)

/-- Length of a month. -/
def daysInMonth (y m : ℕ) : ℕ :=
  if m = 2 then if isLeapYear y then 29 else 28
  else if m = 4 ∨ m = 6 ∨ m = 9 ∨ m = 11 then 30 else 31

/-- A date, as numbers. -/
structure IsDate (y m d : ℕ) : Prop where
  month_pos : 1 ≤ m
  month_le : m ≤ 12
  day_pos : 1 ≤ d
  day_le : d ≤ daysInMonth y m

/-- Days up to a date, in years that begin on March 1st: `m` is 3 to 14. -/
def marchDays (y m d : ℕ) : ℕ :=
  365 * y + y / 4 - y / 100 + y / 400 + (30 * m + 3 * (m + 1) / 5 + d)

/-- Days up to a date. -/
def dayNumber (y m d : ℕ) : ℕ := if m ≤ 2 then marchDays (y - 1) (m + 12) d else marchDays y m d

/-- The date of day `n` of the Unix time. -/
def ofDays (n : ℕ) : ℕ × ℕ × ℕ :=
  let a := (4 * n + 102032) / 146097 + 15
  let b := n + 2442113 + a - a / 4
  let c := (20 * b - 2442) / 7305
  let d := b - 365 * c - c / 4
  let e := d * 1000 / 30601
  let f := d - e * 30 - e * 601 / 1000
  if e ≤ 13 then (c - 4716, e - 1, f) else (c - 4715, e - 13, f)

theorem daysInMonth_le (y m : ℕ) : daysInMonth y m ≤ 31 := by
  rw [daysInMonth]
  split_ifs <;> omega

theorem isLeapYear_iff (y : ℕ) :
    isLeapYear y = true ↔ y % 4 = 0 ∧ (y % 100 ≠ 0 ∨ y % 400 = 0) := by
  rw [isLeapYear, decide_eq_true_iff]

/-- Leap days up to a year. -/
def leapDays (y : ℕ) : ℕ := y / 4 - y / 100 + y / 400

theorem leapDays_succ (y : ℕ) :
    leapDays (y + 1) = leapDays y + if isLeapYear (y + 1) then 1 else 0 := by
  have hle : y / 100 ≤ y / 4 := Nat.div_le_div_left (by omega) (by omega)
  have h4 : (y + 1) / 4 = y / 4 + if (y + 1) % 4 = 0 then 1 else 0 := by split <;> omega
  have h100 : (y + 1) / 100 = y / 100 + if (y + 1) % 100 = 0 then 1 else 0 := by split <;> omega
  have h400 : (y + 1) / 400 = y / 400 + if (y + 1) % 400 = 0 then 1 else 0 := by split <;> omega
  have h100_4 : (y + 1) % 100 = 0 → (y + 1) % 4 = 0 := by omega
  have h400_100 : (y + 1) % 400 = 0 → (y + 1) % 100 = 0 := by omega
  simp only [leapDays, isLeapYear_iff, h4, h100, h400]
  -- nothing more is asked of the quotients and the remainders
  generalize y / 4 = quarters, y / 100 = centuries, y / 400 = cycles, (y + 1) % 4 = r4,
    (y + 1) % 100 = r100, (y + 1) % 400 = r400 at *
  split_ifs <;> omega

theorem leapDays_mono {y y' : ℕ} (h : y ≤ y') : leapDays y ≤ leapDays y' := by
  induction y', h using Nat.le_induction with
  | base => exact le_rfl
  | succ y' _ ih =>
      rw [leapDays_succ]
      omega

theorem marchDays_eq (y m d : ℕ) :
    marchDays y m d = 365 * y + leapDays y + (30 * m + 3 * (m + 1) / 5 + d) := by
  have hle : y / 100 ≤ y / 4 := Nat.div_le_div_left (by omega) (by omega)
  rw [marchDays, leapDays]
  omega

/-! ## The order of dates -/

section Order

variable {y m d y' m' d' : ℕ}

/-- The days of a year. -/
theorem dayNumber_year (h : IsDate (y + 1) m d) :
    365 * y + leapDays y + 398 < dayNumber (y + 1) m d ∧
      dayNumber (y + 1) m d ≤ 365 * (y + 1) + leapDays (y + 1) + 398 := by
  have hsucc := leapDays_mono (show y ≤ y + 1 by omega)
  have hle := h.day_le.trans (daysInMonth_le _ _)
  have hpos := h.day_pos
  have hm1 := h.month_pos
  have hm2 := h.month_le
  rw [dayNumber]
  split
  · rw [marchDays_eq, Nat.add_sub_cancel]
    omega
  · rw [marchDays_eq]
    omega

theorem dayNumber_lt_of_year (h : IsDate y m d) (h' : IsDate y' m' d') (hy : 1 ≤ y)
    (hlt : y < y') : dayNumber y m d < dayNumber y' m' d' := by
  obtain ⟨y, rfl⟩ : ∃ k, y = k + 1 := ⟨y - 1, by omega⟩
  obtain ⟨y', rfl⟩ : ∃ k, y' = k + 1 := ⟨y' - 1, by omega⟩
  have hmono := leapDays_mono (show y + 1 ≤ y' by omega)
  have hlow := (dayNumber_year h).2
  have hhigh := (dayNumber_year h').1
  omega

/-- The last day of February comes right before March 1st: the leap day is in `leapDays`. -/
theorem dayNumber_lt_of_month (h : IsDate y m d) (h' : IsDate y m' d') (hy : 1 ≤ y)
    (hlt : m < m') : dayNumber y m d < dayNumber y m' d' := by
  obtain ⟨y, rfl⟩ : ∃ k, y = k + 1 := ⟨y - 1, by omega⟩
  have hsucc := leapDays_succ y
  have hle := h.day_le
  have hpos' := h'.day_pos
  have hm := h.month_pos
  have hm12 : m ≤ 12 := h.month_le
  rw [daysInMonth] at hle
  rw [dayNumber, dayNumber, marchDays_eq, marchDays_eq, marchDays_eq, marchDays_eq,
    Nat.add_sub_cancel]
  by_cases hm2 : m ≤ 2
  · rw [if_pos hm2]
    split_ifs at hle hsucc ⊢ <;> omega
  · rw [if_neg hm2, if_neg (by omega)]
    interval_cases m <;> simp at hle <;> omega

theorem dayNumber_lt_of_day (hlt : d < d') : dayNumber y m d < dayNumber y m d' := by
  rw [dayNumber, dayNumber]
  split <;> exact Nat.add_lt_add_left (Nat.add_lt_add_left hlt _) _

end Order

/-! ## From days to dates -/

section OfDays

variable {n a b c d e : ℕ}

/-- `a` follows the centuries of the years that begin on March 1st. -/
theorem ofDays_year (hn : n ≤ 49710) (ha : a = (4 * n + 102032) / 146097 + 15)
    (hb : b = n + 2442113 + a - a / 4) (hc : c = (20 * b - 2442) / 7305) :
    ∃ y, c = y + 4716 ∧ 1969 ≤ y ∧ y ≤ 2106 ∧ a + y / 400 + 3 = y / 100 + a / 4 := by
  have ha : a = 15 ∨ a = 16 ∨ a = 17 := by omega
  refine ⟨c - 4716, ?_⟩
  rcases ha with rfl | rfl | rfl
  · have : 6685 ≤ c ∧ c < 6716 := by omega
    omega
  · have : 6716 ≤ c ∧ c < 6816 := by omega
    omega
  · have : 6816 ≤ c ∧ c ≤ 6822 := by omega
    omega

/-- The day of the year, which begins on March 1st, counted from 123. -/
theorem ofDays_day (hn : n ≤ 49710) (ha : a = (4 * n + 102032) / 146097 + 15)
    (hb : b = n + 2442113 + a - a / 4) (hc : c = (20 * b - 2442) / 7305)
    (hd : d = b - 365 * c - c / 4) :
    d + 365 * c + c / 4 = b ∧ 122 < d ∧
      (d ≤ 487 ∨ d ≤ 488 ∧ (c - 4715) % 4 = 0 ∧ c - 4715 ≠ 2100) := by
  obtain ⟨y, rfl, hy1, hy2, hay⟩ := ofDays_year hn ha hb hc
  have hd' : d + 365 * (y + 4716) + (y + 4716) / 4 = b ∧ 122 < d := by omega
  refine ⟨hd'.1, hd'.2, ?_⟩
  by_cases h : y = 2099
  · subst h
    omega
  · have h4 : d ≤ 487 ∨ y % 4 = 3 ∧ d ≤ 488 := by
      obtain ⟨q, r, rfl, hr⟩ : ∃ q r, y = 4 * q + r ∧ r < 4 :=
        ⟨y / 4, y % 4, by omega, by omega⟩
      have h4b : 4 * b ≤ 1461 * (4 * q + r + 4716) + 1949 := by omega
      clear ha hb hc hay h hd
      omega
    omega

/-- The numbers of days of the months from March on. -/
theorem ofDays_month (hd : 122 < d) (he : e = d * 1000 / 30601) (hlast : d ≤ 488) :
    4 ≤ e ∧ e ≤ 15 ∧ 1 ≤ d - e * 30 - e * 601 / 1000 ∧
      d = d - e * 30 - e * 601 / 1000 + e * 30 + 3 * e / 5 ∧
      (e ≤ 14 → d - e * 30 - e * 601 / 1000 ≤
        if e = 5 ∨ e = 7 ∨ e = 10 ∨ e = 12 then 30 else 31) := by
  have hmonth : 4 ≤ e ∧ e ≤ 15 := by omega
  have hdiv : e * 601 / 1000 = 3 * e / 5 := by omega
  refine ⟨hmonth.1, hmonth.2, by omega, by omega, fun h14 => ?_⟩
  obtain ⟨hmin, -⟩ := hmonth
  interval_cases e <;> simp <;> omega

theorem marchDays_ofDays (hn : n ≤ 49710) (ha : a = (4 * n + 102032) / 146097 + 15)
    (hb : b = n + 2442113 + a - a / 4) (hc : c = (20 * b - 2442) / 7305)
    (hd : d = b - 365 * c - c / 4) (he : e = d * 1000 / 30601) :
    marchDays (c - 4716) (e - 1) (d - e * 30 - e * 601 / 1000) = n + 719561 := by
  obtain ⟨hday, hlow, hhigh⟩ := ofDays_day hn ha hb hc hd
  obtain ⟨y, rfl, hy1, hy2, hay⟩ := ofDays_year hn ha hb hc
  obtain ⟨he1, he2, hpos, hsum, -⟩ := ofDays_month hlow he (by omega)
  generalize d - e * 30 - e * 601 / 1000 = f at *
  rw [marchDays, show y + 4716 - 4716 = y by omega, show e - 1 + 1 = e by omega]
  clear hc he hd hhigh
  omega

theorem ofDays_eq (ha : a = (4 * n + 102032) / 146097 + 15) (hb : b = n + 2442113 + a - a / 4)
    (hc : c = (20 * b - 2442) / 7305) (hd : d = b - 365 * c - c / 4) (he : e = d * 1000 / 30601) :
    ofDays n = if e ≤ 13 then (c - 4716, e - 1, d - e * 30 - e * 601 / 1000)
      else (c - 4715, e - 13, d - e * 30 - e * 601 / 1000) := by
  rw [he, hd, hc, hb, ha]
  rfl

/-- **The conversion finds the date that has `n` days before it.** -/
theorem ofDays_spec (hn : n ≤ 49710) :
    IsDate (ofDays n).1 (ofDays n).2.1 (ofDays n).2.2 ∧
      dayNumber (ofDays n).1 (ofDays n).2.1 (ofDays n).2.2 = n + 719561 ∧
      1970 ≤ (ofDays n).1 ∧ (ofDays n).1 ≤ 2107 := by
  obtain ⟨a, ha⟩ : ∃ a, a = (4 * n + 102032) / 146097 + 15 := ⟨_, rfl⟩
  obtain ⟨b, hb⟩ : ∃ b, b = n + 2442113 + a - a / 4 := ⟨_, rfl⟩
  obtain ⟨c, hc⟩ : ∃ c, c = (20 * b - 2442) / 7305 := ⟨_, rfl⟩
  obtain ⟨d, hd⟩ : ∃ d, d = b - 365 * c - c / 4 := ⟨_, rfl⟩
  obtain ⟨e, he⟩ : ∃ e, e = d * 1000 / 30601 := ⟨_, rfl⟩
  have hsum := marchDays_ofDays hn ha hb hc hd he
  obtain ⟨hday, hlow, hhigh⟩ := ofDays_day hn ha hb hc hd
  obtain ⟨y, rfl, hy1, hy2, hay⟩ := ofDays_year hn ha hb hc
  obtain ⟨he1, he2, hpos, hdf, hlen⟩ := ofDays_month hlow he (by omega)
  rw [ofDays_eq ha hb hc hd he]
  obtain ⟨f, hf⟩ : ∃ f, d - e * 30 - e * 601 / 1000 = f := ⟨_, rfl⟩
  rw [hf] at hsum hpos hdf hlen ⊢
  clear he hd hc hb ha hf
  rw [show y + 4716 - 4716 = y by omega] at hsum ⊢
  rw [show y + 4716 - 4715 = y + 1 by omega] at hhigh ⊢
  split
  case isTrue h13 =>
    have hlen' := hlen (by omega)
    refine ⟨⟨by show 1 ≤ e - 1; omega, by show e - 1 ≤ 12; omega, hpos, ?_⟩, ?_, ?_, ?_⟩
    · show f ≤ daysInMonth y (e - 1)
      rw [daysInMonth, if_neg (show ¬ e - 1 = 2 by omega)]
      split_ifs at hlen' ⊢ <;> omega
    · show dayNumber y (e - 1) f = _
      rw [dayNumber, if_neg (by omega)]
      exact hsum
    · -- the days from March to December 1969 come before day 0
      show 1970 ≤ y
      by_contra hlt
      obtain rfl : y = 1969 := by omega
      rw [marchDays] at hsum
      split_ifs at hlen' <;> omega
    · show y ≤ 2107
      omega
  case isFalse h13 =>
    refine ⟨⟨by show 1 ≤ e - 13; omega, by show e - 13 ≤ 12; omega, hpos, ?_⟩, ?_, ?_, ?_⟩
    · show f ≤ daysInMonth (y + 1) (e - 13)
      have hleap := isLeapYear_iff (y + 1)
      rw [daysInMonth]
      split_ifs with h2 hyes
      · omega
      · rw [hleap] at hyes
        omega
      · omega
      · have := hlen (by omega)
        split_ifs at this <;> omega
    · show dayNumber (y + 1) (e - 13) f = _
      rw [dayNumber, if_pos (by omega), Nat.add_sub_cancel, show e - 13 + 12 = e - 1 by omega]
      exact hsum
    · show 1970 ≤ y + 1
      omega
    · show y + 1 ≤ 2107
      omega

end OfDays

/-! ## The conversions in unbounded numbers -/

section Words

variable {x y : UInt32} {m n : ℕ}

theorem toNat_add_of (hx : x.toNat = m) (hy : y.toNat = n) (h : m + n < 2 ^ 32) :
    (x + y).toNat = m + n := by
  rw [UInt32.toNat_add, hx, hy, Nat.mod_eq_of_lt h]

theorem toNat_sub_of (hx : x.toNat = m) (hy : y.toNat = n) (h : n ≤ m) :
    (x - y).toNat = m - n := by
  rw [UInt32.toNat_sub_of_le x y (UInt32.le_iff_toNat_le.2 (by rwa [hx, hy])), hx, hy]

theorem toNat_mul_of (hx : x.toNat = m) (hy : y.toNat = n) (h : m * n < 2 ^ 32) :
    (x * y).toNat = m * n := by
  rw [UInt32.toNat_mul, hx, hy, Nat.mod_eq_of_lt h]

theorem toNat_div_of (hx : x.toNat = m) (hy : y.toNat = n) : (x / y).toNat = m / n := by
  rw [UInt32.toNat_div, hx, hy]

theorem eq_ofNat_of (hx : x.toNat = m) : x = UInt32.ofNat m := by
  rw [← hx, UInt32.ofNat_toNat]

end Words

/-- Nothing overflows on the days of the first `2 ^ 32` seconds. -/
theorem ofDays_words {n : ℕ} (hn : n ≤ 49710) {a b c d e f : UInt32}
    (ha : a = UInt32.ofNat ((4 * n + 102032) / 146097 + 15))
    (hb : b = UInt32.ofNat (n + 2442113 + a.toNat - (a / 4).toNat))
    (hc : c = (20 * b - 2442) / 7305) (hd : d = b - 365 * c - c / 4)
    (he : e = d * 1000 / 30601) (hf : f = d - e * 30 - e * 601 / 1000) :
    (if e ≤ 13 then (c - 4716, e - 1, f) else (c - 4715, e - 13, f)) =
      (UInt32.ofNat (ofDays n).1, UInt32.ofNat (ofDays n).2.1, UInt32.ofNat (ofDays n).2.2) := by
  obtain ⟨a', ha'⟩ : ∃ k, k = (4 * n + 102032) / 146097 + 15 := ⟨_, rfl⟩
  obtain ⟨b', hb'⟩ : ∃ k, k = n + 2442113 + a' - a' / 4 := ⟨_, rfl⟩
  obtain ⟨c', hc'⟩ : ∃ k, k = (20 * b' - 2442) / 7305 := ⟨_, rfl⟩
  obtain ⟨d', hd'⟩ : ∃ k, k = b' - 365 * c' - c' / 4 := ⟨_, rfl⟩
  obtain ⟨e', he'⟩ : ∃ k, k = d' * 1000 / 30601 := ⟨_, rfl⟩
  have hb1 : 2442000 ≤ b' ∧ b' ≤ 2492000 := by omega
  have hc1 : 365 * c' + c' / 4 ≤ b' ∧ c' ≤ 6900 ∧ 4716 ≤ c' := by omega
  have hd1 : 122 < d' ∧ d' ≤ 489 := by omega
  have he1 : 3 ≤ e' ∧ e' ≤ 15 := by omega
  have hf1 : e' * 30 + e' * 601 / 1000 ≤ d' := by omega
  have hna : a.toNat = a' := by
    rw [ha, ← ha', UInt32.toNat_ofNat', Nat.mod_eq_of_lt (by omega)]
  have hnb : b.toNat = b' := by
    rw [hb, hna, show (a / 4).toNat = a' / 4 from toNat_div_of hna rfl, ← hb',
      UInt32.toNat_ofNat', Nat.mod_eq_of_lt (by omega)]
  have hnc : c.toNat = c' := by
    have hmul : (20 * b).toNat = 20 * b' := toNat_mul_of rfl hnb (by omega)
    rw [hc, hc']
    exact toNat_div_of (toNat_sub_of hmul rfl (by omega)) rfl
  have hnd : d.toNat = d' := by
    have hmul : (365 * c).toNat = 365 * c' := toNat_mul_of rfl hnc (by omega)
    rw [hd, hd']
    exact toNat_sub_of (toNat_sub_of hnb hmul (by omega)) (toNat_div_of hnc rfl) (by omega)
  have hne : e.toNat = e' := by
    have hmul : (d * 1000).toNat = d' * 1000 := toNat_mul_of hnd rfl (by omega)
    rw [he, he']
    exact toNat_div_of hmul rfl
  have hnf : f.toNat = d' - e' * 30 - e' * 601 / 1000 := by
    have h30 : (e * 30).toNat = e' * 30 := toNat_mul_of hne rfl (by omega)
    have h601 : (e * 601).toNat = e' * 601 := toNat_mul_of hne rfl (by omega)
    rw [hf]
    exact toNat_sub_of (toNat_sub_of hnd h30 (by omega)) (toNat_div_of h601 rfl) (by omega)
  have hiff : e ≤ 13 ↔ e' ≤ 13 := by
    rw [UInt32.le_iff_toNat_le, hne]
    rfl
  rw [ofDays_eq ha' hb' hc' hd' he']
  by_cases h13 : e' ≤ 13
  · rw [if_pos h13, if_pos (hiff.2 h13)]
    exact Prod.ext (eq_ofNat_of (toNat_sub_of hnc rfl hc1.2.2)) (Prod.ext
      (eq_ofNat_of (toNat_sub_of hne rfl (show 1 ≤ e' by omega))) (eq_ofNat_of hnf))
  · rw [if_neg h13, if_neg (fun h => h13 (hiff.1 h))]
    exact Prod.ext (eq_ofNat_of (toNat_sub_of hnc rfl (show 4715 ≤ c' by omega))) (Prod.ext
      (eq_ofNat_of (toNat_sub_of hne rfl (show 13 ≤ e' by omega))) (eq_ofNat_of hnf))

theorem convertDaysToDate_eq {n : ℕ} (hn : n ≤ 49710) : convertDaysToDate n =
    (UInt32.ofNat (ofDays n).1, UInt32.ofNat (ofDays n).2.1, UInt32.ofNat (ofDays n).2.2) := by
  unfold convertDaysToDate
  extract_lets a b c d e f
  exact ofDays_words hn (a := a) (b := b) (c := c) (d := d) (e := e) (f := f)
    rfl rfl rfl rfl rfl rfl

/-- What `convertUnixTimeToDate` returns. -/
theorem convertUnixTimeToDate_eq {t : ℕ} (ht : t < 2 ^ 32) :
    convertUnixTimeToDate t =
      { year := UInt16.ofNat (ofDays (t / 86400)).1
        month := UInt8.ofNat (ofDays (t / 86400)).2.1
        day := UInt8.ofNat (ofDays (t / 86400)).2.2
        dayOfWeek := computeDayOfWeek (UInt16.ofNat (ofDays (t / 86400)).1)
          (UInt8.ofNat (ofDays (t / 86400)).2.1) (UInt8.ofNat (ofDays (t / 86400)).2.2)
        hours := UInt8.ofNat (t / 3600 % 24)
        minutes := UInt8.ofNat (t / 60 % 60)
        seconds := UInt8.ofNat (t % 60)
        milliseconds := 0 } := by
  have hclamp : (if (t : ℤ) < 1 then 0 else (t : ℤ).toNat) = t := by
    split
    · omega
    · exact Int.toNat_natCast t
  have hdays : t / 60 / 60 / 24 = t / 86400 := by
    rw [Nat.div_div_eq_div_mul, Nat.div_div_eq_div_mul]
  have hhours : t / 60 / 60 = t / 3600 := Nat.div_div_eq_div_mul ..
  have hdate := convertDaysToDate_eq (show t / 86400 ≤ 49710 by omega)
  rw [convertUnixTimeToDate, hclamp, hdays, hhours, hdate]
  generalize ofDays (t / 86400) = date
  simp only [UInt32.toUInt16_ofNat', UInt32.toUInt8_ofNat']

/-- Seconds up to a date and time of day. -/
def unixTime (date : DateTime) : ℕ :=
  (dayNumber date.year.toNat date.month.toNat date.day.toNat - 719561) * 86400 +
    (3600 * date.hours.toNat + 60 * date.minutes.toNat + date.seconds.toNat)

theorem epoch_le {y m d : ℕ} (h : IsDate y m d) (hy : 1970 ≤ y) : 719561 ≤ dayNumber y m d := by
  obtain ⟨y, rfl⟩ : ∃ k, y = k + 1 := ⟨y - 1, by omega⟩
  have hfirst : leapDays 1969 = 477 := rfl
  have hmono := leapDays_mono (show 1969 ≤ y by omega)
  have hlow := (dayNumber_year h).1
  omega

/-- The days of a date, in words. -/
theorem marchDays_words {y m d : UInt32} {y' m' d' : ℕ} (hy : y.toNat = y') (hm : m.toNat = m')
    (hd : d.toNat = d') (hy' : y' < 2 ^ 16) (hm' : m' ≤ 14) (hd' : d' < 2 ^ 8) :
    (365 * y + y / 4 - y / 100 + y / 400 + (30 * m + 3 * (m + 1) / 5 + d)).toNat
      = marchDays y' m' d' := by
  have h365 : (365 * y).toNat = 365 * y' := toNat_mul_of rfl hy (by omega)
  have hleap : (365 * y + y / 4 - y / 100 + y / 400).toNat
      = 365 * y' + y' / 4 - y' / 100 + y' / 400 :=
    toNat_add_of
      (toNat_sub_of
        (toNat_add_of h365 (toNat_div_of hy rfl) (by show _ + y' / 4 < _; omega))
        (toNat_div_of hy rfl) (by show y' / 100 ≤ _ + y' / 4; omega))
      (toNat_div_of hy rfl) (by show _ - y' / 100 + y' / 400 < _; omega)
  have h30 : (30 * m).toNat = 30 * m' := toNat_mul_of rfl hm (by omega)
  have h3 : (3 * (m + 1)).toNat = 3 * (m' + 1) :=
    toNat_mul_of rfl (toNat_add_of hm rfl (by omega)) (by omega)
  have hmonth : (30 * m + 3 * (m + 1) / 5 + d).toNat = 30 * m' + 3 * (m' + 1) / 5 + d' :=
    toNat_add_of (toNat_add_of h30 (toNat_div_of h3 rfl) (by omega)) hd (by omega)
  exact toNat_add_of hleap hmonth (by omega)

theorem seconds_words {w s : UInt32} {n k : ℕ} (hw : w.toNat = n) (hs : s.toNat = k)
    (hle : 719561 ≤ n) (hlt : (n - 719561) * 86400 + k < 2 ^ 32) :
    ((w - 719561) * 86400 + s).toNat = (n - 719561) * 86400 + k := by
  have hdays : (n - 719561) * 86400 < 2 ^ 32 := lt_of_le_of_lt (Nat.le_add_right _ _) hlt
  have hsub : (w - 719561).toNat = n - 719561 := toNat_sub_of hw (by decide) hle
  have hmul : ((w - 719561) * 86400).toNat = (n - 719561) * 86400 :=
    toNat_mul_of hsub (by decide) hdays
  exact toNat_add_of hmul hs hlt

theorem convertDateToUnixTime_eq {date : DateTime}
    (hdate : IsDate date.year.toNat date.month.toNat date.day.toNat)
    (hy : 1970 ≤ date.year.toNat) (hlt : unixTime date < 2 ^ 32) :
    convertDateToUnixTime date = unixTime date := by
  have hepoch := epoch_le hdate hy
  have hm := hdate.month_le
  have hyear : date.year.toUInt32.toNat = date.year.toNat := UInt16.toNat_toUInt32 _
  have hmonth : date.month.toUInt32.toNat = date.month.toNat := UInt8.toNat_toUInt32 _
  have hday : date.day.toUInt32.toNat = date.day.toNat := UInt8.toNat_toUInt32 _
  have hiff : date.month.toUInt32 ≤ 2 ↔ date.month.toNat ≤ 2 := by
    rw [UInt32.le_iff_toNat_le, hmonth]
    rfl
  have hh : (3600 * date.hours.toUInt32).toNat = 3600 * date.hours.toNat :=
    toNat_mul_of rfl (UInt8.toNat_toUInt32 _) (by have := date.hours.toNat_lt; omega)
  have hmin : (60 * date.minutes.toUInt32).toNat = 60 * date.minutes.toNat :=
    toNat_mul_of rfl (UInt8.toNat_toUInt32 _) (by have := date.minutes.toNat_lt; omega)
  have hsec : (3600 * date.hours.toUInt32 + 60 * date.minutes.toUInt32 +
      date.seconds.toUInt32).toNat
      = 3600 * date.hours.toNat + 60 * date.minutes.toNat + date.seconds.toNat := by
    have := date.hours.toNat_lt
    have := date.minutes.toNat_lt
    have := date.seconds.toNat_lt
    exact toNat_add_of (toNat_add_of hh hmin (by omega)) (UInt8.toNat_toUInt32 _) (by omega)
  rw [unixTime] at hlt ⊢
  have hyl := date.year.toNat_lt
  have hdl := date.day.toNat_lt
  rw [convertDateToUnixTime]
  by_cases h2 : date.month.toNat ≤ 2
  · rw [if_pos (hiff.2 h2)]
    refine congrArg Nat.cast (seconds_words ?_ hsec hepoch hlt)
    rw [dayNumber, if_pos h2]
    exact marchDays_words (toNat_sub_of hyear rfl (by show 1 ≤ _; omega))
      (toNat_add_of hmonth rfl (by show _ + 12 < _; omega)) hday (by omega) (by omega) (by omega)
  · rw [if_neg (fun h => h2 (hiff.1 h))]
    refine congrArg Nat.cast (seconds_words ?_ hsec hepoch hlt)
    rw [dayNumber, if_neg h2]
    exact marchDays_words hyear hmonth hday (by omega) (by omega) (by omega)

/-- A date and time of day that exist, with their day of week. -/
structure Valid (date : DateTime) : Prop where
  isDate : IsDate date.year.toNat date.month.toNat date.day.toNat
  dayOfWeek_eq : date.dayOfWeek = computeDayOfWeek date.year date.month date.day
  hours_lt : date.hours.toNat < 24
  minutes_lt : date.minutes.toNat < 60
  seconds_lt : date.seconds.toNat < 60
  milliseconds_lt : date.milliseconds.toNat < 1000

/-! ## The order of dates and times -/

/-- Milliseconds up to a date and time of day. -/
def unixMillis (date : DateTime) : ℤ := unixTime date * 1000 + date.milliseconds.toNat

section Step

variable {p q : Prop} [Decidable p] [Decidable q] {x y r : ℤ}

/-- One comparison of `compareDateTime`. -/
theorem compare_step (hlt : p → x < y) (hgt : q → y < x) (heq : ¬ p → ¬ q → r = (x - y).sign) :
    (if p then -1 else if q then 1 else r) = (x - y).sign := by
  split_ifs with hp hq
  · have := hlt hp
    rw [Int.sign_eq_neg_one_of_neg (by omega)]
  · have := hgt hq
    rw [Int.sign_eq_one_of_pos (by omega)]
  · exact heq hp hq

theorem compare_step_zero (h : (if p then -1 else if q then 1 else r) = 0) :
    ¬ p ∧ ¬ q ∧ r = 0 := by
  split_ifs at h with hp hq
  · exact absurd h one_ne_zero
  · exact ⟨hp, hq, h⟩

end Step

theorem eq_of_not_lt8 {a b : UInt8} (hlt : ¬ a < b) (hgt : ¬ a > b) : a = b :=
  UInt8.le_antisymm (UInt8.not_lt.1 hgt) (UInt8.not_lt.1 hlt)

theorem eq_of_not_lt16 {a b : UInt16} (hlt : ¬ a < b) (hgt : ¬ a > b) : a = b :=
  UInt16.le_antisymm (UInt16.not_lt.1 hgt) (UInt16.not_lt.1 hlt)

section Compare

variable {date date' : DateTime}

theorem unixMillis_lt_of_day (h : Valid date) (hy : 1970 ≤ date.year.toNat)
    (hlt : dayNumber date.year.toNat date.month.toNat date.day.toNat <
      dayNumber date'.year.toNat date'.month.toNat date'.day.toNat) :
    unixMillis date < unixMillis date' := by
  have hepoch := epoch_le h.isDate hy
  have hh := h.hours_lt
  have hm := h.minutes_lt
  have hs := h.seconds_lt
  have hms := h.milliseconds_lt
  rw [unixMillis, unixMillis, unixTime, unixTime]
  generalize dayNumber date.year.toNat date.month.toNat date.day.toNat = n at *
  generalize dayNumber date'.year.toNat date'.month.toNat date'.day.toNat = n' at *
  obtain ⟨k, rfl⟩ := Nat.exists_eq_add_of_le hepoch
  obtain ⟨j, rfl⟩ := Nat.exists_eq_add_of_lt hlt
  rw [Nat.add_sub_cancel_left, show 719561 + k + j + 1 - 719561 = k + j + 1 by omega]
  omega

/-- **Dates compare as the times they stand for.** -/
theorem compareDateTime_eq (h : Valid date) (h' : Valid date') (hy : 1970 ≤ date.year.toNat)
    (hy' : 1970 ≤ date'.year.toNat) :
    compareDateTime date date' = (unixMillis date - unixMillis date').sign := by
  have hd := h.isDate
  have hd' := h'.isDate
  rw [compareDateTime]
  refine compare_step (fun hlt => ?_) (fun hlt => ?_) (fun hle hge => ?_)
  · exact unixMillis_lt_of_day h hy (dayNumber_lt_of_year hd hd' (by omega) hlt)
  · exact unixMillis_lt_of_day h' hy' (dayNumber_lt_of_year hd' hd (by omega) hlt)
  have hyear := eq_of_not_lt16 hle hge
  rw [← hyear] at hd'
  refine compare_step (fun hlt => ?_) (fun hlt => ?_) (fun hle hge => ?_)
  · refine unixMillis_lt_of_day h hy ?_
    rw [← hyear]
    exact dayNumber_lt_of_month hd hd' (by omega) hlt
  · refine unixMillis_lt_of_day h' hy' ?_
    rw [← hyear]
    exact dayNumber_lt_of_month hd' hd (by omega) hlt
  have hmonth := eq_of_not_lt8 hle hge
  refine compare_step (fun hlt => ?_) (fun hlt => ?_) (fun hle hge => ?_)
  · refine unixMillis_lt_of_day h hy ?_
    rw [← hyear, ← hmonth]
    exact dayNumber_lt_of_day hlt
  · refine unixMillis_lt_of_day h' hy' ?_
    rw [← hyear, ← hmonth]
    exact dayNumber_lt_of_day hlt
  have hday := eq_of_not_lt8 hle hge
  have hm := h.minutes_lt
  have hs := h.seconds_lt
  have hms := h.milliseconds_lt
  have hm' := h'.minutes_lt
  have hs' := h'.seconds_lt
  have hms' := h'.milliseconds_lt
  rw [unixMillis, unixMillis, unixTime, unixTime, hyear, hmonth, hday]
  generalize (dayNumber date'.year.toNat date'.month.toNat date'.day.toNat - 719561) * 86400 = n
  refine compare_step (fun hlt => ?_) (fun hlt => ?_) (fun hle hge => ?_)
  · have : date.hours.toNat < date'.hours.toNat := hlt
    omega
  · have : date'.hours.toNat < date.hours.toNat := hlt
    omega
  rw [eq_of_not_lt8 hle hge]
  refine compare_step (fun hlt => ?_) (fun hlt => ?_) (fun hle hge => ?_)
  · have : date.minutes.toNat < date'.minutes.toNat := hlt
    omega
  · have : date'.minutes.toNat < date.minutes.toNat := hlt
    omega
  rw [eq_of_not_lt8 hle hge]
  refine compare_step (fun hlt => ?_) (fun hlt => ?_) (fun hle hge => ?_)
  · have : date.seconds.toNat < date'.seconds.toNat := hlt
    omega
  · have : date'.seconds.toNat < date.seconds.toNat := hlt
    omega
  rw [eq_of_not_lt8 hle hge]
  refine compare_step (fun hlt => ?_) (fun hlt => ?_) (fun hle hge => ?_)
  · have : date.milliseconds.toNat < date'.milliseconds.toNat := hlt
    omega
  · have : date'.milliseconds.toNat < date.milliseconds.toNat := hlt
    omega
  · rw [eq_of_not_lt16 hle hge, sub_self, Int.sign_zero]

/-- Only equal dates compare as equal. -/
theorem eq_of_compareDateTime (h : Valid date) (h' : Valid date')
    (heq : compareDateTime date date' = 0) : date = date' := by
  obtain ⟨year, month, day, dayOfWeek, hours, minutes, seconds, milliseconds⟩ := date
  obtain ⟨year', month', day', dayOfWeek', hours', minutes', seconds', milliseconds'⟩ := date'
  have hw := h.dayOfWeek_eq
  have hw' := h'.dayOfWeek_eq
  rw [compareDateTime] at heq
  obtain ⟨h1, h2, heq⟩ := compare_step_zero heq
  obtain rfl : year = year' := eq_of_not_lt16 h1 h2
  obtain ⟨h1, h2, heq⟩ := compare_step_zero heq
  obtain rfl : month = month' := eq_of_not_lt8 h1 h2
  obtain ⟨h1, h2, heq⟩ := compare_step_zero heq
  obtain rfl : day = day' := eq_of_not_lt8 h1 h2
  obtain ⟨h1, h2, heq⟩ := compare_step_zero heq
  obtain rfl : hours = hours' := eq_of_not_lt8 h1 h2
  obtain ⟨h1, h2, heq⟩ := compare_step_zero heq
  obtain rfl : minutes = minutes' := eq_of_not_lt8 h1 h2
  obtain ⟨h1, h2, heq⟩ := compare_step_zero heq
  obtain rfl : seconds = seconds' := eq_of_not_lt8 h1 h2
  obtain ⟨h1, h2, -⟩ := compare_step_zero heq
  obtain rfl : milliseconds = milliseconds' := eq_of_not_lt16 h1 h2
  obtain rfl : dayOfWeek = dayOfWeek' := hw.trans hw'.symm
  rfl

end Compare

/-! ## Round trips -/

/-- The last second of the 32-bit Unix time. -/
def lastSecond : DateTime :=
  { year := 2106, month := 2, day := 7, dayOfWeek := 7, hours := 6, minutes := 28, seconds := 15
    milliseconds := 999 }

/-- What `convertUnixTimeToDate` returns is a date, and the date of the time given. -/
theorem convertUnixTimeToDate_spec {t : ℕ} (ht : t < 2 ^ 32) :
    Valid (convertUnixTimeToDate t) ∧ 1970 ≤ (convertUnixTimeToDate t).year.toNat ∧
      unixTime (convertUnixTimeToDate t) = t ∧ (convertUnixTimeToDate t).milliseconds = 0 := by
  obtain ⟨hdate, hsum, hy, hy'⟩ := ofDays_spec (show t / 86400 ≤ 49710 by omega)
  have hm := hdate.month_le
  have hd := hdate.day_le.trans (daysInMonth_le _ _)
  rw [convertUnixTimeToDate_eq ht]
  generalize ofDays (t / 86400) = date at *
  have hyear : (UInt16.ofNat date.1).toNat = date.1 := by
    rw [UInt16.toNat_ofNat', Nat.mod_eq_of_lt (by omega)]
  have hmonth : (UInt8.ofNat date.2.1).toNat = date.2.1 := by
    rw [UInt8.toNat_ofNat', Nat.mod_eq_of_lt (by omega)]
  have hday : (UInt8.ofNat date.2.2).toNat = date.2.2 := by
    rw [UInt8.toNat_ofNat', Nat.mod_eq_of_lt (by omega)]
  have hhours : (UInt8.ofNat (t / 3600 % 24)).toNat = t / 3600 % 24 := by
    rw [UInt8.toNat_ofNat', Nat.mod_eq_of_lt (by omega)]
  have hminutes : (UInt8.ofNat (t / 60 % 60)).toNat = t / 60 % 60 := by
    rw [UInt8.toNat_ofNat', Nat.mod_eq_of_lt (by omega)]
  have hseconds : (UInt8.ofNat (t % 60)).toNat = t % 60 := by
    rw [UInt8.toNat_ofNat', Nat.mod_eq_of_lt (by omega)]
  refine ⟨⟨?_, rfl, ?_, ?_, ?_, Nat.zero_lt_succ _⟩, ?_, ?_, rfl⟩
  · show IsDate (UInt16.ofNat date.1).toNat (UInt8.ofNat date.2.1).toNat _
    rw [hyear, hmonth, hday]
    exact hdate
  · show (UInt8.ofNat (t / 3600 % 24)).toNat < 24
    omega
  · show (UInt8.ofNat (t / 60 % 60)).toNat < 60
    omega
  · show (UInt8.ofNat (t % 60)).toNat < 60
    omega
  · show 1970 ≤ (UInt16.ofNat date.1).toNat
    rwa [hyear]
  · simp only [unixTime, hyear, hmonth, hday, hhours, hminutes, hseconds, hsum,
      Nat.add_sub_cancel]
    omega

/-- A time goes to its date and back. -/
theorem convert_date_back {t : ℕ} (ht : t < 2 ^ 32) :
    convertDateToUnixTime (convertUnixTimeToDate t) = t := by
  obtain ⟨hvalid, hy, hunix, -⟩ := convertUnixTimeToDate_spec ht
  rw [convertDateToUnixTime_eq hvalid.isDate hy (by rwa [hunix]), hunix]

theorem unixTime_lt_of_le_lastSecond {date : DateTime} (h : Valid date)
    (hy : 1970 ≤ date.year.toNat) (hle : compareDateTime date lastSecond ≤ 0) :
    unixTime date < 2 ^ 32 := by
  have hlast : Valid lastSecond := ⟨⟨by decide, by decide, by decide, by decide⟩, by decide,
    by decide, by decide, by decide, by decide⟩
  have hmillis : unixMillis lastSecond = (2 ^ 32 - 1) * 1000 + 999 := rfl
  rw [compareDateTime_eq h hlast hy (by decide), hmillis, Int.sign_nonpos_iff, unixMillis] at hle
  omega

/-- A date goes to its time and back, less its milliseconds. -/
theorem convert_time_back {date : DateTime} (h : Valid date) (hy : 1970 ≤ date.year.toNat)
    (hle : compareDateTime date lastSecond ≤ 0) :
    convertUnixTimeToDate (convertDateToUnixTime date) = { date with milliseconds := 0 } := by
  have hlt := unixTime_lt_of_le_lastSecond h hy hle
  rw [convertDateToUnixTime_eq h.isDate hy hlt]
  obtain ⟨hvalid, hy', hunix, hms⟩ := convertUnixTimeToDate_spec hlt
  have hcut : Valid { date with milliseconds := 0 } :=
    ⟨h.isDate, h.dayOfWeek_eq, h.hours_lt, h.minutes_lt, h.seconds_lt, Nat.zero_lt_succ _⟩
  refine eq_of_compareDateTime hvalid hcut ?_
  have hsame : unixTime { date with milliseconds := 0 } = unixTime date := rfl
  rw [compareDateTime_eq hvalid hcut hy' hy, unixMillis, unixMillis, hunix, hms, hsame]
  show (_ - (_ + ((0 : UInt16).toNat : ℤ))).sign = 0
  rw [sub_self, Int.sign_zero]

end Calendar

/-- **Times and dates convert into each other, and compare alike.** A date loses its milliseconds.
-/
theorem dateTime_roundTrip :
    (∀ t : ℕ, t < 2 ^ 32 → Calendar.Valid (convertUnixTimeToDate t) ∧
      convertDateToUnixTime (convertUnixTimeToDate t) = t) ∧
    (∀ date : DateTime, Calendar.Valid date → 1970 ≤ date.year.toNat →
      compareDateTime date Calendar.lastSecond ≤ 0 →
      convertUnixTimeToDate (convertDateToUnixTime date) = { date with milliseconds := 0 }) ∧
    (∀ t u : ℕ, t < 2 ^ 32 → u < 2 ^ 32 →
      compareDateTime (convertUnixTimeToDate t) (convertUnixTimeToDate u) = Int.sign (t - u)) := by
  refine ⟨fun t ht => ⟨(Calendar.convertUnixTimeToDate_spec ht).1, Calendar.convert_date_back ht⟩,
    fun date h hy hle => Calendar.convert_time_back h hy hle, fun t u ht hu => ?_⟩
  obtain ⟨hvalid, hy, hunix, hms⟩ := Calendar.convertUnixTimeToDate_spec ht
  obtain ⟨hvalid', hy', hunix', hms'⟩ := Calendar.convertUnixTimeToDate_spec hu
  rw [Calendar.compareDateTime_eq hvalid hvalid' hy hy', Calendar.unixMillis, Calendar.unixMillis,
    hunix, hunix', hms, hms', add_sub_add_right_eq_sub, ← sub_mul, Int.sign_mul]
  exact mul_one _

/-- The dates of the first and the last second. -/
theorem dateTime_roundTrip_bounds :
    (convertDateToUnixTime (convertUnixTimeToDate (0 : ℕ)) = 0 ∧
      convertDateToUnixTime (convertUnixTimeToDate (4294967295 : ℕ)) = 4294967295) ∧
    convertUnixTimeToDate (convertDateToUnixTime Calendar.lastSecond) =
      { Calendar.lastSecond with milliseconds := 0 } ∧
    compareDateTime (convertUnixTimeToDate (0 : ℕ)) (convertUnixTimeToDate (4294967295 : ℕ)) = -1 := by
  obtain ⟨hback, hforth, hcompare⟩ := dateTime_roundTrip
  refine ⟨⟨(hback 0 (by decide)).2, (hback 4294967295 (by decide)).2⟩, hforth _ ⟨⟨by decide, by decide,
    by decide, by decide⟩, by decide, by decide, by decide, by decide, by decide⟩ (by decide)
    (by decide), ?_⟩
  rw [hcompare 0 4294967295 (by decide) (by decide)]
  rfl

/-- January 1st, 1970, one millisecond after midnight, comes back as midnight. -/
theorem dateTime_milliseconds_lost :
    ¬ ∀ date : DateTime, Calendar.Valid date → 1970 ≤ date.year.toNat →
      compareDateTime date Calendar.lastSecond ≤ 0 →
      convertUnixTimeToDate (convertDateToUnixTime date) = date := by
  intro h
  have := h { year := 1970, month := 1, day := 1, dayOfWeek := 4, hours := 0, minutes := 0
              seconds := 0, milliseconds := 1 }
    ⟨⟨by decide, by decide, by decide, by decide⟩, by decide, by decide, by decide, by decide,
      by decide⟩ (by decide) (by decide)
  exact absurd this (by decide)
