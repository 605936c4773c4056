import Mathlib.Data.List.GetD
import Mathlib.Algebra.Ring.Nat

namespace Huks.Calendar

-- The Gregorian calendar, from the first day of the year 0 on
def IsLeap (year : Nat) : Prop := year % 4 = 0 ∧ (year % 100 ≠ 0 ∨ year % 400 = 0)

instance (year : Nat) : Decidable (IsLeap year) := inferInstanceAs (Decidable (_ ∧ _))

def yearLength (year : Nat) : Nat := if IsLeap year then 366 else 365

def monthLengths (year : Nat) : List Nat :=
  [31, if IsLeap year then 29 else 28, 31, 30, 31, 30, 31, 31, 30, 31, 30, 31]

def daysBeforeYear : Nat → Nat
  | 0        => 0
  | year + 1 => daysBeforeYear year + yearLength year

-- The days of the first months of a year
def daysBeforeMonth (year month : Nat) : Nat := ((monthLengths year).take month).sum

-- A day that exists. Months and days are counted from one.
@[ext]
structure Date where
  year      : Nat
  month     : Nat
  day       : Nat
  month_pos : 0 < month
  month_le  : month ≤ 12
  day_pos   : 0 < day
  day_le    : day ≤ (monthLengths year).getD (month - 1) 0

def Date.days (d : Date) : Nat := daysBeforeYear d.year + daysBeforeMonth d.year (d.month - 1) + (d.day - 1)

@[ext]
structure DateTime extends Date where
  hour      : Nat
  minute    : Nat
  second    : Nat
  hour_lt   : hour < 24
  minute_lt : minute < 60
  second_lt : second < 60

-- The seconds since the first day of 1970
def DateTime.seconds (t : DateTime) : Int :=
  86400 * ((t.days : Int) - daysBeforeYear 1970) + 3600 * t.hour + 60 * t.minute + t.second

section Years

variable {year n m : Nat}

theorem yearLength_bounds (year : Nat) : 365 ≤ yearLength year ∧ yearLength year ≤ 366 := by
  rw [yearLength]
  split <;> omega

-- The leap years up to a year, without the year 0
def leapDays (year : Nat) : Nat := year / 4 - year / 100 + year / 400

theorem isLeap_iff : IsLeap year ↔ 4 ∣ year ∧ (¬100 ∣ year ∨ 400 ∣ year) := by
  rw [IsLeap, Nat.dvd_iff_mod_eq_zero, Nat.dvd_iff_mod_eq_zero, Nat.dvd_iff_mod_eq_zero]

theorem leapDays_succ (year : Nat) : leapDays (year + 1) = leapDays year + if IsLeap (year + 1) then 1 else 0 := by
  have hcentury (h : 100 ∣ year + 1) : 4 ∣ year + 1 := Nat.dvd_trans (by decide) h
  have hcenturies (h : 400 ∣ year + 1) : 100 ∣ year + 1 := Nat.dvd_trans (by decide) h
  have hle : year / 100 ≤ year / 4 := Nat.div_le_div_left (by decide) (by decide)
  rw [leapDays, leapDays, Nat.succ_div, Nat.succ_div, Nat.succ_div]
  simp only [isLeap_iff]
  -- The quotients of `year` are numbers like any other now.
  generalize year / 4 = a, year / 100 = b, year / 400 = c at *
  by_cases h4 : 4 ∣ year + 1
  case neg =>
    have h100 := mt hcentury h4
    simp [h4, h100, mt hcenturies h100]
  case pos =>
    by_cases h100 : 100 ∣ year + 1
    case neg =>
      simp only [h4, h100, mt hcenturies h100, reduceIte, not_false_eq_true, true_or, and_self]
      omega
    case pos =>
      by_cases h400 : 400 ∣ year + 1
      case neg => simp [h4, h100, h400]
      case pos =>
        simp only [h4, h100, h400, reduceIte, or_true, and_self]
        omega

theorem daysBeforeYear_succ (year : Nat) : daysBeforeYear (year + 1) = 365 * year + leapDays year + 366 := by
  induction year
  case zero => rfl
  case succ year ih =>
    rw [daysBeforeYear, ih, leapDays_succ, yearLength]
    split <;> omega

theorem leapDays_mono (h : n ≤ m) : leapDays n ≤ leapDays m := by
  induction h
  case refl => exact Nat.le_refl _
  case step m _ ih =>
    rw [Nat.succ_eq_add_one, leapDays_succ]
    exact Nat.le_add_right_of_le ih

-- Years that follow one another have between 365 and 366 days on the average.
theorem daysBeforeYear_add (year n : Nat) :
    daysBeforeYear year + 365 * n ≤ daysBeforeYear (year + n) ∧
      daysBeforeYear (year + n) ≤ daysBeforeYear year + 366 * n := by
  induction n
  case zero => exact ⟨Nat.le_refl _, Nat.le_refl _⟩
  case succ n ih =>
    have hlen := yearLength_bounds (year + n)
    rw [← Nat.add_assoc year n 1, daysBeforeYear, Nat.mul_succ, Nat.mul_succ, ← Nat.add_assoc, ← Nat.add_assoc]
    exact ⟨Nat.add_le_add ih.1 hlen.1, Nat.add_le_add ih.2 hlen.2⟩

theorem daysBeforeYear_mono (h : n ≤ m) : daysBeforeYear n ≤ daysBeforeYear m := by
  obtain ⟨k, rfl⟩ := Nat.exists_eq_add_of_le h
  exact Nat.le_of_add_right_le (daysBeforeYear_add n k).1

-- A day lies in one year only.
theorem year_unique {day : Nat} (hn : daysBeforeYear n ≤ day ∧ day < daysBeforeYear (n + 1))
    (hm : daysBeforeYear m ≤ day ∧ day < daysBeforeYear (m + 1)) : n = m := by
  obtain hlt | heq | hlt := Nat.lt_trichotomy n m
  · have := daysBeforeYear_mono (show _ + 1 ≤ _ from hlt)
    omega
  · exact heq
  · have := daysBeforeYear_mono (show _ + 1 ≤ _ from hlt)
    omega

end Years

section Months

variable {year n m : Nat}

theorem length_monthLengths (year : Nat) : (monthLengths year).length = 12 := rfl

theorem daysBeforeMonth_succ (h : n < 12) :
    daysBeforeMonth year (n + 1) = daysBeforeMonth year n + (monthLengths year).getD n 0 := by
  have hn : n < (monthLengths year).length := h
  rw [daysBeforeMonth, daysBeforeMonth, List.take_succ_eq_append_getElem hn, List.sum_append, List.sum_singleton,
    List.getD_eq_getElem _ _ hn]

theorem daysBeforeMonth_twelve (year : Nat) : daysBeforeMonth year 12 = yearLength year := by
  rw [daysBeforeMonth, yearLength, monthLengths]
  split <;> rfl

theorem daysBeforeMonth_mono (h : n ≤ m) (hm : m ≤ 12) : daysBeforeMonth year n ≤ daysBeforeMonth year m := by
  induction h
  case refl => exact Nat.le_refl _
  case step m _ ih =>
    rw [Nat.succ_eq_add_one, daysBeforeMonth_succ (by omega)]
    have := ih (by omega)
    omega

theorem month_unique {day : Nat} (hn : n < 12) (hm : m < 12)
    (hnday : daysBeforeMonth year n ≤ day ∧ day < daysBeforeMonth year (n + 1))
    (hmday : daysBeforeMonth year m ≤ day ∧ day < daysBeforeMonth year (m + 1)) : n = m := by
  obtain hlt | heq | hlt := Nat.lt_trichotomy n m
  · have := @daysBeforeMonth_mono year _ _ (show _ + 1 ≤ _ from hlt) (by omega)
    omega
  · exact heq
  · have := @daysBeforeMonth_mono year _ _ (show _ + 1 ≤ _ from hlt) (by omega)
    omega

end Months

section Dates

-- The day of the month is one of the month, and the day of the year one of the year.
theorem Date.day_bounds (d : Date) :
    daysBeforeMonth d.year (d.month - 1) + (d.day - 1) < daysBeforeMonth d.year (d.month - 1 + 1) ∧
      daysBeforeMonth d.year (d.month - 1 + 1) ≤ yearLength d.year := by
  have hmonth := d.month_pos
  have hle := d.month_le
  have hpos := d.day_pos
  have hday := d.day_le
  constructor
  case left =>
    rw [daysBeforeMonth_succ (by omega)]
    omega
  case right =>
    rw [← daysBeforeMonth_twelve]
    exact daysBeforeMonth_mono (by omega) (Nat.le_refl _)

-- The 29th of February is a day of leap years only, and every other day is one of every year.
theorem Date.isLeap_of_leapDay {d : Date} (hmonth : d.month = 2) (hday : d.day = 29) : IsLeap d.year := by
  have hle := d.day_le
  rw [hmonth, hday, monthLengths] at hle
  refine Decidable.not_not.mp fun h => ?_
  rw [if_neg h] at hle
  exact absurd hle (by decide)

theorem Date.day_le_of_year (d : Date) (h : ¬(d.month = 2 ∧ d.day = 29)) (year : Nat) :
    d.day ≤ (monthLengths year).getD (d.month - 1) 0 := by
  have hle := d.day_le
  by_cases hmonth : d.month = 2
  case pos =>
    rw [hmonth, monthLengths] at hle ⊢
    change d.day ≤ if _ then 29 else 28 at hle
    change d.day ≤ if _ then 29 else 28
    split at hle <;> split <;> omega
  case neg =>
    have hfeb : d.month - 1 ≠ 1 := by
      have := d.month_pos
      omega
    have hsame (m : Nat) (hm : m ≠ 1) : (monthLengths year).getD m 0 = (monthLengths d.year).getD m 0 := by
      match m, hm with
      | 0, _     => rfl
      | _ + 2, _ => rfl
    rwa [hsame _ hfeb]

theorem Date.days_injective : Function.Injective Date.days := by
  intro d e h
  have hd := d.day_bounds
  have he := e.day_bounds
  have hyear : d.year = e.year := by
    refine @year_unique _ _ d.days ?_ ?_
    · rw [daysBeforeYear, Date.days]
      omega
    · rw [h, daysBeforeYear, Date.days]
      omega
  rw [Date.days, Date.days, hyear] at h
  rw [hyear] at hd
  have hmonths := And.intro d.month_pos e.month_pos
  have hmonth : d.month - 1 = e.month - 1 := by
    have hle := And.intro d.month_le e.month_le
    refine @month_unique e.year _ _ (daysBeforeMonth e.year (e.month - 1) + (e.day - 1)) (by omega) (by omega)
      ?_ ?_ <;> omega
  have hdays := And.intro d.day_pos e.day_pos
  rw [hmonth] at h
  ext
  · exact hyear
  · omega
  · omega

theorem DateTime.seconds_injective : Function.Injective DateTime.seconds := by
  intro t u h
  rw [DateTime.seconds, DateTime.seconds] at h
  have := And.intro t.hour_lt u.hour_lt
  have := And.intro t.minute_lt u.minute_lt
  have := And.intro t.second_lt u.second_lt
  have hdate : t.toDate = u.toDate := Date.days_injective (by omega)
  rw [hdate] at h
  ext
  · rw [hdate]
  · rw [hdate]
  · rw [hdate]
  · omega
  · omega
  · omega

end Dates

section Text

-- `UTCTime`: two digits for each of the year of the century, the month, the day, the hour, the minute and the
-- second, and `Z`
def twoDigits (n : Nat) : List UInt8 := [(48 + n / 10).toUInt8, (48 + n % 10).toUInt8]

def DateTime.utcTime (t : DateTime) : List UInt8 :=
  twoDigits (t.year % 100) ++ twoDigits t.month ++ twoDigits t.day ++ twoDigits t.hour ++ twoDigits t.minute ++
    twoDigits t.second ++ [90]

def IsDigit (b : UInt8) : Prop := 48 ≤ b ∧ b ≤ 57

def IsUtcTime (text : List UInt8) : Prop :=
  ∃ digits : List UInt8, text = digits ++ [90] ∧ digits.length = 12 ∧ ∀ b ∈ digits, IsDigit b

theorem isDigit_twoDigits {n : Nat} (h : n < 100) : ∀ b ∈ twoDigits n, IsDigit b := by
  have hdigit (k : Nat) (hk : k < 10) : IsDigit (48 + k).toUInt8 := by
    have hnat : (48 + k).toUInt8.toNat = 48 + k := UInt8.toNat_ofNat_of_lt' (by rw [UInt8.size]; omega)
    rw [IsDigit, UInt8.le_iff_toNat_le, UInt8.le_iff_toNat_le, hnat]
    change 48 ≤ 48 + k ∧ 48 + k ≤ 57
    omega
  rw [twoDigits, List.forall_mem_cons, List.forall_mem_singleton]
  exact ⟨hdigit _ (by omega), hdigit _ (by omega)⟩

theorem DateTime.isUtcTime (t : DateTime) : IsUtcTime t.utcTime := by
  refine ⟨_, rfl, rfl, ?_⟩
  have hday : t.day < 100 := by
    have hlen : ∀ n ∈ monthLengths t.year, n ≤ 31 := by
      rw [monthLengths]
      split <;> decide
    have hmonth : t.month - 1 < (monthLengths t.year).length := by
      have := t.month_pos
      have := t.month_le
      rw [length_monthLengths]
      omega
    have hle := t.day_le
    rw [List.getD_eq_getElem _ _ hmonth] at hle
    have := hlen _ (List.getElem_mem hmonth)
    omega
  have := t.month_le
  have := t.hour_lt
  have := t.minute_lt
  have := t.second_lt
  simp only [List.forall_mem_append]
  exact ⟨⟨⟨⟨⟨isDigit_twoDigits (by omega), isDigit_twoDigits (by omega)⟩, isDigit_twoDigits (by omega)⟩,
    isDigit_twoDigits (by omega)⟩, isDigit_twoDigits (by omega)⟩, isDigit_twoDigits (by omega)⟩

end Text

end Huks.Calendar
