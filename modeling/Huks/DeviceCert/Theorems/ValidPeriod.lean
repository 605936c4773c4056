import Huks.DeviceCert.ValidPeriod
import Huks.Lib.Calendar
import Huks.Common.Theorems.Words

namespace Huks.InPlace

open Calendar (IsLeap yearLength daysBeforeYear daysBeforeMonth leapDays)

section Numbers

variable {a b year : UInt32}

theorem difference_ok (h : b.toNat ≤ a.toNat) : difference a b = .ok (a - b) ∧ (a - b).toNat = a.toNat - b.toNat :=
  ⟨if_neg (UInt32.not_lt.mpr (UInt32.le_iff_toNat_le.mpr h)), UInt32.toNat_sub_of_le _ _ (UInt32.le_iff_toNat_le.mpr h)⟩

theorem getYearIndex_eq (year : UInt32) : getYearIndex year = if IsLeap year.toNat then 1 else 0 := by
  simp only [getYearIndex, IsLeap, ← UInt32.toNat_inj, UInt32.toNat_mod, ne_eq]
  rfl

theorem yearLength_elem (year : UInt32) :
    ∃ length, (elemAt yearLengths (getYearIndex year) : DateM UInt32) = .ok length ∧
      length.toNat = yearLength year.toNat := by
  rw [getYearIndex_eq, yearLength]
  split
  case isTrue => exact ⟨366, rfl, rfl⟩
  case isFalse => exact ⟨365, rfl, rfl⟩

theorem monthLengths_elem (year : UInt32) :
    ∃ ip, (elemAt monthLengths (getYearIndex year) : DateM (List UInt32)) = .ok ip ∧
      ip.map UInt32.toNat = Calendar.monthLengths year.toNat := by
  rw [getYearIndex_eq, Calendar.monthLengths]
  split
  case isTrue => exact ⟨_, rfl, rfl⟩
  case isFalse => exact ⟨_, rfl, rfl⟩

theorem getLeapDays_ok (year : UInt32) :
    ∃ days, getLeapDays year = .ok days ∧ days.toNat = leapDays year.toNat := by
  have hyear := year.toNat_lt
  have hfour : (year / 4).toNat = year.toNat / 4 := UInt32.toNat_div ..
  have hhundred : (year / 100).toNat = year.toNat / 100 := UInt32.toNat_div ..
  have hfourHundred : (year / 400).toNat = year.toNat / 400 := UInt32.toNat_div ..
  have ⟨hok, hdiff⟩ := @difference_ok (year / 4) (year / 100) (by omega)
  refine ⟨year / 4 - year / 100 + year / 400, ?_, ?_⟩
  · rw [getLeapDays, hok]
    rfl
  · rw [toNat_add_of_lt (by rw [UInt32.size]; omega), hdiff, hfour, hhundred, hfourHundred, leapDays]

end Numbers

section Years

-- The years from one on to another one, in the days that the loop takes off for them
theorem daysBeforeYear_leapDays {year newYear : Nat} (hyear : 0 < year) (h : year ≤ newYear) :
    daysBeforeYear newYear =
      daysBeforeYear year + (newYear - year) * 365 + (leapDays (newYear - 1) - leapDays (year - 1)) := by
  obtain ⟨y, rfl⟩ := Nat.exists_eq_succ_of_ne_zero (by omega : year ≠ 0)
  obtain ⟨n, rfl⟩ := Nat.exists_eq_succ_of_ne_zero (by omega : newYear ≠ 0)
  have hmono := Calendar.leapDays_mono (by omega : y ≤ n)
  simp only [Nat.succ_eq_add_one, Calendar.daysBeforeYear_succ, Nat.add_sub_cancel]
  omega

-- What is skipped in one round is at least a year, and has no more days than there are.
theorem carryOver_bounds {year : Nat} {tDays carryOver : UInt32}
    (hcarryOver : carryOver = if tDays / 366 = 0 then 1 else tDays / 366) (h : yearLength year ≤ tDays.toNat) :
    0 < carryOver.toNat ∧ daysBeforeYear (year + carryOver.toNat) ≤ daysBeforeYear year + tDays.toNat := by
  have hdiv : (tDays / 366).toNat = tDays.toNat / 366 := UInt32.toNat_div ..
  by_cases hzero : tDays / 366 = 0
  case pos =>
    rw [hcarryOver, if_pos hzero]
    exact ⟨Nat.one_pos, Nat.add_le_add_left h _⟩
  case neg =>
    have hne : (tDays / 366).toNat ≠ 0 := fun h => hzero (UInt32.toNat_inj.mp h)
    have hle := (Calendar.daysBeforeYear_add year (tDays.toNat / 366)).2
    rw [hcarryOver, if_neg hzero, hdiv]
    omega

-- One round: it takes the days of some years off, and counts these years.
theorem skipYears_step {year tDays : UInt32} (hyear : 0 < year.toNat)
    (hsize : year.toNat + tDays.toNat < UInt32.size) (h : yearLength year.toNat ≤ tDays.toNat) :
    ∃ newYear newDays, (∀ rounds, skipYears (rounds + 1) year tDays = skipYears rounds newYear newDays) ∧
      daysBeforeYear newYear.toNat + newDays.toNat = daysBeforeYear year.toNat + tDays.toNat ∧
      year.toNat < newYear.toNat ∧ newYear.toNat + newDays.toNat < year.toNat + tDays.toNat := by
  obtain ⟨length, hlength, hlengthNat⟩ := yearLength_elem year
  have hnot : ¬tDays < length := UInt32.not_lt.mpr (UInt32.le_iff_toNat_le.mpr (by omega))
  obtain ⟨carryOver, hcarryOver⟩ : ∃ c : UInt32, c = if tDays / 366 = 0 then 1 else tDays / 366 := ⟨_, rfl⟩
  have ⟨hpos, hle⟩ := carryOver_bounds hcarryOver h
  have hmin := (Calendar.daysBeforeYear_add year.toNat carryOver.toNat).1
  obtain ⟨newYear, hnewYear⟩ : ∃ y, y = year + carryOver := ⟨_, rfl⟩
  have hnew : newYear.toNat = year.toNat + carryOver.toNat := hnewYear ▸ toNat_add_of_lt (by omega)
  have hdays := daysBeforeYear_leapDays hyear (by omega : year.toNat ≤ newYear.toNat)
  have hmono := @Calendar.leapDays_mono (year.toNat - 1) (newYear.toNat - 1) (by omega)
  rw [← hnew] at hle
  -- The differences, in the order in which they are computed
  have hone : (1 : UInt32).toNat = 1 := rfl
  have ⟨hlast, hlastNat⟩ := @difference_ok newYear 1 (by omega)
  obtain ⟨lastLeap, hlastLeap, hlastLeapNat⟩ := getLeapDays_ok (newYear - 1)
  have ⟨hfirst, hfirstNat⟩ := @difference_ok year 1 (by omega)
  obtain ⟨firstLeap, hfirstLeap, hfirstLeapNat⟩ := getLeapDays_ok (year - 1)
  rw [hlastNat, hone] at hlastLeapNat
  rw [hfirstNat, hone] at hfirstLeapNat
  have ⟨hleap, hleapNat⟩ := @difference_ok lastLeap firstLeap (by omega)
  have ⟨hyears, hyearsNat⟩ := @difference_ok newYear year (by omega)
  have hmul : ((newYear - year) * 365).toNat = (newYear.toNat - year.toNat) * 365 := by
    rw [UInt32.toNat_mul, hyearsNat]
    exact Nat.mod_eq_of_lt (by change (newYear.toNat - year.toNat) * 365 < UInt32.size; omega)
  have ⟨hcommon, hcommonNat⟩ := @difference_ok tDays ((newYear - year) * 365) (by omega)
  have ⟨hrest, hrestNat⟩ := @difference_ok (tDays - (newYear - year) * 365) (lastLeap - firstLeap) (by omega)
  refine ⟨newYear, tDays - (newYear - year) * 365 - (lastLeap - firstLeap),
    fun rounds => ?_, by omega, by omega, by omega⟩
  simp only [skipYears, hlength, ← hcarryOver, ← hnewYear, hlast, hlastLeap, hfirst, hfirstLeap, hleap, hyears, hcommon,
    hrest, if_neg hnot, bind, Except.bind]

-- The loop ends in the year that the day lies in, however many rounds more it may have.
theorem skipYears_run {year tDays : UInt32} (hyear : 0 < year.toNat)
    (hsize : year.toNat + tDays.toNat < UInt32.size) :
    ∃ lastYear iDays, (∀ rounds, tDays.toNat < rounds → skipYears rounds year tDays = .ok (lastYear, iDays)) ∧
      daysBeforeYear lastYear.toNat + iDays.toNat = daysBeforeYear year.toNat + tDays.toNat ∧
      iDays.toNat < yearLength lastYear.toNat := by
  induction hdays : tDays.toNat using Nat.strongRecOn generalizing year tDays
  case ind days ih =>
    have hrounds (rounds : Nat) (h : days < rounds) : ∃ more, rounds = more + 1 ∧ days ≤ more :=
      ⟨rounds - 1, by omega, by omega⟩
    by_cases h : yearLength year.toNat ≤ tDays.toNat
    case neg =>
      obtain ⟨length, hlength, hlengthNat⟩ := yearLength_elem year
      have hlt : tDays < length := UInt32.lt_iff_toNat_lt.mpr (by omega)
      refine ⟨year, tDays, fun rounds hr => ?_, by rw [hdays], Nat.not_le.mp h⟩
      obtain ⟨more, rfl, _⟩ := hrounds rounds hr
      simp only [skipYears, hlength, if_pos hlt, bind, Except.bind, pure, Except.pure]
    case pos =>
      obtain ⟨newYear, newDays, hstep, hsum, hlt, hless⟩ := skipYears_step hyear hsize h
      obtain ⟨lastYear, iDays, hrun, hlast, hin⟩ :=
        @ih newDays.toNat (by omega) newYear newDays (by omega) (by omega) rfl
      refine ⟨lastYear, iDays, fun rounds hr => ?_, hlast.trans (hsum.trans (by rw [hdays])), hin⟩
      obtain ⟨more, rfl, _⟩ := hrounds rounds hr
      exact (hstep more).trans (hrun more (by omega))

end Years

section Months

-- The loop stops in the month that the day lies in, and before the end of the row.
theorem skipMonths_run {ip : List UInt32} {month iDays : UInt32}
    (h : iDays.toNat < (ip.map UInt32.toNat).sum) :
    ∃ k rest, k < ip.length ∧ skipMonths ip month iDays = .ok (month + k.toUInt32, rest) ∧
      ((ip.map UInt32.toNat).take k).sum + rest.toNat = iDays.toNat ∧
      rest.toNat < (ip.map UInt32.toNat).getD k 0 := by
  induction ip generalizing month iDays
  case nil => exact absurd h (Nat.not_lt_zero _)
  case cons length ip ih =>
    by_cases hle : length ≤ iDays
    case neg =>
      refine ⟨0, iDays, Nat.succ_pos _, ?_, Nat.zero_add _, Nat.not_le.mp fun h => hle (UInt32.le_iff_toNat_le.mpr h)⟩
      rw [skipMonths, if_neg hle]
      exact congrArg (fun m => Except.ok (m, iDays)) (UInt32.add_zero month).symm
    case pos =>
      have ⟨hdiff, hdiffNat⟩ := difference_ok (UInt32.le_iff_toNat_le.mp hle)
      have hleNat := UInt32.le_iff_toNat_le.mp hle
      rw [List.map_cons, List.sum_cons] at h
      obtain ⟨k, rest, hk, hrun, hsum, hrest⟩ := @ih (month + 1) (iDays - length) (by omega)
      refine ⟨k + 1, rest, Nat.succ_lt_succ hk, ?_, ?_, hrest⟩
      · have hmonth : month + 1 + k.toUInt32 = month + (k + 1).toUInt32 := by
          rw [UInt32.add_assoc, UInt32.add_comm 1]
          exact congrArg _ (UInt32.ofNat_add k 1).symm
        rw [skipMonths, if_pos hle, hdiff, ← hmonth, ← hrun]
        rfl
      · rw [List.map_cons, List.take_succ_cons, List.sum_cons]
        omega

end Months

section Dates

-- The two loops find the date that is so many days behind the first day of 1970.
theorem skip_date {tDays : UInt32} (hsize : 1970 + tDays.toNat < UInt32.size) :
    ∃ (d : Calendar.Date) (year iDays month rest : UInt32) (ip : List UInt32),
      (∀ rounds, tDays.toNat < rounds → skipYears rounds 1970 tDays = .ok (year, iDays)) ∧
      (elemAt monthLengths (getYearIndex year) : DateM (List UInt32)) = .ok ip ∧
      skipMonths ip 0 iDays = .ok (month, rest) ∧ d.days = daysBeforeYear 1970 + tDays.toNat ∧
      year.toNat = d.year ∧ (month + 1).toNat = d.month ∧ (rest + 1).toNat = d.day := by
  have hepoch : (1970 : UInt32).toNat = 1970 := rfl
  obtain ⟨year, iDays, hyears, hsum, hin⟩ := @skipYears_run 1970 tDays (by decide) hsize
  obtain ⟨ip, hip, hipNat⟩ := monthLengths_elem year
  have hrow : (ip.map UInt32.toNat).sum = yearLength year.toNat := by
    rw [hipNat, ← Calendar.daysBeforeMonth_twelve, daysBeforeMonth,
      List.take_of_length_le (Nat.le_of_eq (Calendar.length_monthLengths _))]
  obtain ⟨k, rest, hk, hmonths, hmonthSum, hrest⟩ := @skipMonths_run ip 0 iDays (by omega)
  have hlen : ip.length = 12 := by
    rw [← List.length_map UInt32.toNat, hipNat, Calendar.length_monthLengths]
  have hrestMax : rest.toNat < 366 := by
    have := (Calendar.yearLength_bounds year.toNat).2
    omega
  have hword : UInt32.size = 2 ^ 32 := rfl
  have hone : (1 : UInt32).toNat = 1 := rfl
  have hkNat : (0 + k.toUInt32).toNat = k := by
    rw [UInt32.zero_add]
    exact UInt32.toNat_ofNat_of_lt' (by omega)
  let d : Calendar.Date :=
    { year := year.toNat, month := k + 1, day := rest.toNat + 1
      month_pos := Nat.succ_pos _, month_le := by omega
      day_pos := Nat.succ_pos _, day_le := by rw [← hipNat]; exact hrest }
  refine ⟨d, year, iDays, 0 + k.toUInt32, rest, ip, hyears, hip, hmonths, ?_, rfl, ?_, toNat_add_of_lt (by omega)⟩
  · have hdays : d.days = daysBeforeYear year.toNat + daysBeforeMonth year.toNat k + rest.toNat := rfl
    rw [hdays, daysBeforeMonth, ← hipNat, Nat.add_assoc, hmonthSum, hsum, hepoch]
  · exact (toNat_add_of_lt (by omega)).trans (congrArg (· + 1) hkNat)

-- The fields are those of a time that exists.
structure DataTime.Denotes (time : DataTime) (t : Calendar.DateTime) : Prop where
  seconds : time.seconds.toNat = t.second
  min     : time.min.toNat = t.minute
  hour    : time.hour.toNat = t.hour
  day     : time.day.toNat = t.day
  month   : time.month.toNat = t.month
  year    : time.year.toNat = t.year

theorem remainSec_ok (seconds : UInt32) :
    difference seconds (seconds / 86400 * 86400) = .ok (seconds - seconds / 86400 * 86400) ∧
      (seconds - seconds / 86400 * 86400).toNat = seconds.toNat % 86400 := by
  have hlt := seconds.toNat_lt
  have hdays : (seconds / 86400).toNat = seconds.toNat / 86400 := UInt32.toNat_div ..
  have hmul : (seconds / 86400 * 86400).toNat = seconds.toNat / 86400 * 86400 := by
    rw [UInt32.toNat_mul, hdays]
    exact Nat.mod_eq_of_lt (Nat.lt_of_le_of_lt (Nat.div_mul_le_self _ _) hlt)
  have ⟨hok, hnat⟩ := @difference_ok seconds (seconds / 86400 * 86400) (by omega)
  exact ⟨hok, by omega⟩

theorem generateSysDateTime_run (rtcTime : UInt32) :
    ∃ time t, (∀ rounds, rtcTime.toNat < rounds → generateSysDateTime rounds rtcTime = .ok time) ∧
      time.Denotes t ∧ t.seconds = rtcTime.toNat := by
  have hlt := rtcTime.toNat_lt
  have hdays : (rtcTime / 86400).toNat = rtcTime.toNat / 86400 := UInt32.toNat_div ..
  have hword : UInt32.size = 2 ^ 32 := rfl
  obtain ⟨d, year, iDays, month, rest, ip, hyears, hip, hmonths, hdate, hyear, hmonth, hday⟩ :=
    @skip_date (rtcTime / 86400) (by omega)
  have ⟨hremain, hremainNat⟩ := remainSec_ok rtcTime
  obtain ⟨remain, hremainEq⟩ : ∃ r, r = rtcTime - rtcTime / 86400 * 86400 := ⟨_, rfl⟩
  rw [← hremainEq] at hremain hremainNat
  have hofHour : (remain % 3600).toNat = remain.toNat % 3600 := UInt32.toNat_mod ..
  let t : Calendar.DateTime :=
    { d with
      hour := remain.toNat / 3600, minute := remain.toNat % 3600 / 60, second := remain.toNat % 3600 % 60
      hour_lt := by omega, minute_lt := by omega, second_lt := by omega }
  refine ⟨⟨remain % 3600 % 60, remain % 3600 / 60, remain / 3600, rest + 1, month + 1, year⟩, t, ?_,
    ⟨?_, ?_, UInt32.toNat_div .., hday, hmonth, hyear⟩, ?_⟩
  · intro rounds hrounds
    exact Except.bind_eq_ok.mpr ⟨_, hremain, Except.bind_eq_ok.mpr ⟨_, hyears rounds (by omega),
      Except.bind_eq_ok.mpr ⟨_, hip, Except.bind_eq_ok.mpr ⟨_, hmonths, rfl⟩⟩⟩⟩
  · exact (UInt32.toNat_mod ..).trans (congrArg (· % 60) hofHour)
  · exact (UInt32.toNat_div ..).trans (congrArg (· / 60) hofHour)
  · have hseconds : t.seconds = 86400 * ((d.days : Int) - daysBeforeYear 1970) + 3600 * (remain.toNat / 3600 : Nat) +
        60 * (remain.toNat % 3600 / 60 : Nat) + (remain.toNat % 3600 % 60 : Nat) := rfl
    rw [hseconds, hdate]
    omega

end Dates

section Text

variable {time : DataTime} {t : Calendar.DateTime}

theorem tens_eq (n : UInt32) : (n / 10 + 48).toUInt8 = (48 + n.toNat / 10).toUInt8 := by
  have hdiv : (n / 10).toNat = n.toNat / 10 := UInt32.toNat_div ..
  have hadd : (n / 10 + 48).toNat = n.toNat / 10 + 48 := by
    rw [toNat_add_of_lt, hdiv]
    · rfl
    · have := n.toNat_lt
      change (n / 10).toNat + 48 < 2 ^ 32
      omega
  rw [← UInt8.toNat_inj, UInt32.toNat_toUInt8, hadd, Nat.add_comm]
  exact UInt8.toNat_ofNat'.symm

theorem units_eq (n : UInt32) : (n % 10 + 48).toUInt8 = (48 + n.toNat % 10).toUInt8 := by
  have hmod : (n % 10).toNat = n.toNat % 10 := UInt32.toNat_mod ..
  have hadd : (n % 10 + 48).toNat = n.toNat % 10 + 48 := by
    rw [toNat_add_of_lt, hmod]
    · rfl
    · change (n % 10).toNat + 48 < 2 ^ 32
      omega
  rw [← UInt8.toNat_inj, UInt32.toNat_toUInt8, hadd, Nat.add_comm]
  exact UInt8.toNat_ofNat'.symm

theorem yearOfCentury (year : UInt32) : (year - year / 100 * 100).toNat = year.toNat % 100 := by
  have hlt := year.toNat_lt
  have hdiv : (year / 100).toNat = year.toNat / 100 := UInt32.toNat_div ..
  have hmul : (year / 100 * 100).toNat = year.toNat / 100 * 100 := by
    rw [UInt32.toNat_mul, hdiv]
    exact Nat.mod_eq_of_lt (Nat.lt_of_le_of_lt (Nat.div_mul_le_self _ _) hlt)
  rw [UInt32.toNat_sub_of_le _ _ (UInt32.le_iff_toNat_le.mpr (by omega)), hmul]
  omega

theorem getTimeStampTee_text (h : time.Denotes t) : (getTimeStampTee time).toList = t.utcTime := by
  have htext : t.utcTime = [(48 + t.year % 100 / 10).toUInt8, (48 + t.year % 100 % 10).toUInt8,
      (48 + t.month / 10).toUInt8, (48 + t.month % 10).toUInt8, (48 + t.day / 10).toUInt8, (48 + t.day % 10).toUInt8,
      (48 + t.hour / 10).toUInt8, (48 + t.hour % 10).toUInt8, (48 + t.minute / 10).toUInt8,
      (48 + t.minute % 10).toUInt8, (48 + t.second / 10).toUInt8, (48 + t.second % 10).toUInt8, 90] := rfl
  rw [htext, getTimeStampTee]
  simp only [tens_eq, units_eq, yearOfCentury, h.seconds, h.min, h.hour, h.day, h.month, h.year]
  rfl

end Text

section Start

-- The shifts multiply by a little less than a thousandth, and the remainder makes up for it.
theorem secondsOfMillis_eq {millis : UInt64} (h : millis.toNat < 1000 * 2 ^ 32) :
    (secondsOfMillis millis).toNat = millis.toNat / 1000 := by
  have hmul {k x : UInt64} (hlt : k.toNat * x.toNat < 2 ^ 64) : (k * x).toNat = k.toNat * x.toNat := by
    rw [UInt64.toNat_mul]
    exact Nat.mod_eq_of_lt hlt
  obtain ⟨approx, happrox⟩ : ∃ t, t = millis >>> 10 := ⟨_, rfl⟩
  have happroxNat : approx.toNat = millis.toNat / 1024 := by
    rw [happrox, UInt64.toNat_shiftRight, Nat.shiftRight_eq_div_pow]
    rfl
  have hthree : ((3 * approx) >>> 7).toNat = 3 * approx.toNat / 128 := by
    rw [UInt64.toNat_shiftRight, hmul (by change 3 * approx.toNat < _; omega), Nat.shiftRight_eq_div_pow]
    rfl
  have hnine : ((9 * approx) >>> 14).toNat = 9 * approx.toNat / 16384 := by
    rw [UInt64.toNat_shiftRight, hmul (by change 9 * approx.toNat < _; omega), Nat.shiftRight_eq_div_pow]
    rfl
  obtain ⟨tmpSec, htmpSec⟩ : ∃ t, t = approx + ((3 * approx) >>> 7) + ((9 * approx) >>> 14) := ⟨_, rfl⟩
  have htmpSecNat : tmpSec.toNat = approx.toNat + 3 * approx.toNat / 128 + 9 * approx.toNat / 16384 := by
    rw [htmpSec, UInt64.toNat_add, UInt64.toNat_add, hthree, hnine]
    omega
  -- What is missing are less than 2^32 milliseconds.
  have hrest : (millis - tmpSec * 1000).toNat = millis.toNat - tmpSec.toNat * 1000 ∧
      millis.toNat - tmpSec.toNat * 1000 < 2 ^ 32 ∧ tmpSec.toNat * 1000 ≤ millis.toNat := by
    have hmillis : (tmpSec * 1000).toNat = tmpSec.toNat * 1000 := hmul (by change tmpSec.toNat * 1000 < _; omega)
    rw [UInt64.toNat_sub_of_le _ _ (UInt64.le_iff_toNat_le.mpr (by omega)), hmillis]
    omega
  have hresult : secondsOfMillis millis = tmpSec + ((millis - tmpSec * 1000).toUInt32 / 1000).toUInt64 := by
    rw [htmpSec, happrox]
    rfl
  have hquotient : ((millis - tmpSec * 1000).toUInt32 / 1000).toNat = (millis.toNat - tmpSec.toNat * 1000) / 1000 := by
    rw [UInt32.toNat_div, UInt64.toNat_toUInt32, hrest.1, Nat.mod_eq_of_lt hrest.2.1]
    rfl
  rw [hresult, UInt64.toNat_add, UInt32.toNat_toUInt64, hquotient]
  omega

-- A time of day whose seconds are a `uint32_t`
structure TimeOfDay extends Timeval where
  sec_nonneg  : 0 ≤ tvSec
  sec_lt      : tvSec.toInt < 2 ^ 32
  usec_nonneg : 0 ≤ tvUsec
  usec_lt     : tvUsec.toInt < 10 ^ 6

variable (now : TimeOfDay)

theorem TimeOfDay.tvSec_toNat : (now.tvSec.toUInt64.toNat : Int) = now.tvSec.toInt := by
  have hnonneg := Int64.le_iff_toInt_le.mp now.sec_nonneg
  rw [Int64.toNat_toUInt64_of_le now.sec_nonneg]
  exact Int.toNat_of_nonneg hnonneg

theorem TimeOfDay.tvUsec_toNat : (now.tvUsec.toUInt64.toNat : Int) = now.tvUsec.toInt := by
  have hnonneg := Int64.le_iff_toInt_le.mp now.usec_nonneg
  rw [Int64.toNat_toUInt64_of_le now.usec_nonneg]
  exact Int.toNat_of_nonneg hnonneg

theorem TimeOfDay.secondsOfMillis_eq :
    (secondsOfMillis (activeDateTime now.toTimeval)).toNat = now.tvSec.toUInt64.toNat ∧
      now.tvSec.toUInt64.toNat < 2 ^ 32 := by
  have hsec := now.tvSec_toNat
  have husec := now.tvUsec_toNat
  have hsecLt := now.sec_lt
  have husecLt := now.usec_lt
  have hmul : (now.tvSec.toUInt64 * 1000).toNat = now.tvSec.toUInt64.toNat * 1000 := by
    rw [UInt64.toNat_mul]
    exact Nat.mod_eq_of_lt (by change now.tvSec.toUInt64.toNat * 1000 < 2 ^ 64; omega)
  have hdiv : (now.tvUsec.toUInt64 / 1000).toNat = now.tvUsec.toUInt64.toNat / 1000 := UInt64.toNat_div ..
  have hmillis : (activeDateTime now.toTimeval).toNat =
      now.tvSec.toUInt64.toNat * 1000 + now.tvUsec.toUInt64.toNat / 1000 := by
    rw [activeDateTime, UInt64.toNat_add, hmul, hdiv]
    exact Nat.mod_eq_of_lt (by omega)
  rw [InPlace.secondsOfMillis_eq (by omega), hmillis]
  omega

-- The whole routine: the start is the text of the second that it is, and the end is made from it.
theorem setAttestCertValid_run :
    ∃ t : Calendar.DateTime, t.seconds = now.tvSec.toInt ∧ ∃ time : DataTime, time.Denotes t ∧
      ∀ rounds, 2 ^ 32 ≤ rounds → ∀ valid,
        setAttestCertValid rounds (some now.toTimeval) valid =
          .ok ⟨getTimeStampTee time, addYears (getTimeStampTee time) 10⟩ := by
  have ⟨hseconds, hlt⟩ := now.secondsOfMillis_eq
  obtain ⟨rtcTime, hrtc⟩ : ∃ s, s = (secondsOfMillis (activeDateTime now.toTimeval)).toUInt32 := ⟨_, rfl⟩
  have hrtcNat : rtcTime.toNat = now.tvSec.toUInt64.toNat := by
    rw [hrtc, UInt64.toNat_toUInt32, hseconds]
    exact Nat.mod_eq_of_lt hlt
  obtain ⟨time, t, hrun, hdenotes, ht⟩ := generateSysDateTime_run rtcTime
  refine ⟨t, by rw [ht, hrtcNat, now.tvSec_toNat], time, hdenotes, fun rounds hrounds valid => ?_⟩
  have htime : generateSysDateTime rounds (secondsOfMillis (activeDateTime now.toTimeval)).toUInt32 = .ok time := by
    rw [← hrtc]
    exact hrun rounds (by omega)
  exact Except.bind_eq_ok.mpr ⟨time, htime, rfl⟩

-- The start is the date of the second that it is: the loops end, no difference of theirs is negative and no
-- month is looked up behind December.
theorem setAttestCertValid_start :
    (secondsOfMillis (activeDateTime now.toTimeval)).toNat = now.tvSec.toInt ∧
      ∃! t : Calendar.DateTime, t.seconds = now.tvSec.toInt ∧ ∃ enough, ∀ rounds, enough ≤ rounds → ∀ valid,
        ∃ valid', setAttestCertValid rounds (some now.toTimeval) valid = .ok valid' ∧
          valid'.start.toList = t.utcTime := by
  obtain ⟨t, ht, time, hdenotes, hrun⟩ := setAttestCertValid_run now
  refine ⟨by rw [now.secondsOfMillis_eq.1, now.tvSec_toNat], t, ⟨ht, 2 ^ 32, ?_⟩, ?_⟩
  · exact fun rounds hrounds valid => ⟨_, hrun rounds hrounds valid, getTimeStampTee_text hdenotes⟩
  · exact fun u hu => Calendar.DateTime.seconds_injective (hu.1.trans ht.symm)

end Start

section End

variable {t u : Calendar.DateTime}

theorem addYears_toList {start : Vector UInt8 utctimeLen} {tens units : UInt8} {text : Bytes} {years : UInt32}
    (h : start.toList = tens :: units :: text) :
    (addYears start years).toList =
      (tens.toUInt32 - 48 + (units.toUInt32 - 48 + years) / 10 + 48).toUInt8 ::
        ((units.toUInt32 - 48 + years) % 10 + 48).toUInt8 :: text := by
  have hget (i : Nat) (hi : i < utctimeLen) (hlen : i < start.toList.length) : start[i] = start.toList[i] := by
    rw [Vector.getElem_toList]
  simp only [addYears, Vector.toList_set, hget 0 (by decide) (by rw [h]; simp), hget 1 (by decide) (by rw [h]; simp), h]
  rfl

-- Ten years more are one more in the tens, also where these are nine already.
theorem decade_digits : ∀ year < 100,
    ((48 + year / 10).toUInt8.toUInt32 - 48 + ((48 + year % 10).toUInt8.toUInt32 - 48 + 10) / 10 + 48).toUInt8 =
        (48 + (year / 10 + 1)).toUInt8 ∧
      (((48 + year % 10).toUInt8.toUInt32 - 48 + 10) % 10 + 48).toUInt8 = (48 + year % 10).toUInt8 := by
  decide

theorem addYears_text {start : Vector UInt8 utctimeLen} (h : start.toList = t.utcTime) :
    (addYears start 10).toList =
      (48 + (t.year % 100 / 10 + 1)).toUInt8 :: (48 + t.year % 100 % 10).toUInt8 :: t.utcTime.drop 2 := by
  have htext : start.toList =
      (48 + t.year % 100 / 10).toUInt8 :: (48 + t.year % 100 % 10).toUInt8 :: t.utcTime.drop 2 :=
    h.trans rfl
  have ⟨htens, hunits⟩ := decade_digits (t.year % 100) (Nat.mod_lt _ (by decide))
  rw [addYears_toList htext, htens, hunits]

-- The same day and the same time ten years later
structure IsTenYearsAfter (t u : Calendar.DateTime) : Prop where
  year   : u.year = t.year + 10
  month  : u.month = t.month
  day    : u.day = t.day
  hour   : u.hour = t.hour
  minute : u.minute = t.minute
  second : u.second = t.second

-- There is no 29th of February ten years after one.
theorem IsTenYearsAfter.not_leapDay (h : IsTenYearsAfter t u) : ¬(t.month = 2 ∧ t.day = 29) := by
  intro ⟨hmonth, hday⟩
  have ht := Calendar.Date.isLeap_of_leapDay (d := t.toDate) hmonth hday
  have hu := Calendar.Date.isLeap_of_leapDay (d := u.toDate) (h.month.trans hmonth) (h.day.trans hday)
  rw [h.year] at hu
  rw [IsLeap] at ht hu
  omega

theorem exists_isTenYearsAfter (h : ¬(t.month = 2 ∧ t.day = 29)) : ∃ u, IsTenYearsAfter t u :=
  ⟨{ t with year := t.year + 10, day_le := t.day_le_of_year h _ }, ⟨rfl, rfl, rfl, rfl, rfl, rfl⟩⟩

theorem IsTenYearsAfter.text (h : IsTenYearsAfter t u) (hyear : t.year % 100 < 90) :
    u.utcTime = (48 + (t.year % 100 / 10 + 1)).toUInt8 :: (48 + t.year % 100 % 10).toUInt8 :: t.utcTime.drop 2 := by
  have hu : u.utcTime = (48 + u.year % 100 / 10).toUInt8 :: (48 + u.year % 100 % 10).toUInt8 :: u.utcTime.drop 2 := rfl
  have hdrop : u.utcTime.drop 2 = t.utcTime.drop 2 := by
    change Calendar.twoDigits u.month ++ Calendar.twoDigits u.day ++ Calendar.twoDigits u.hour ++
        Calendar.twoDigits u.minute ++ Calendar.twoDigits u.second ++ [90] = _
    rw [h.month, h.day, h.hour, h.minute, h.second]
    rfl
  have htens : u.year % 100 / 10 = t.year % 100 / 10 + 1 := by
    have := h.year
    omega
  have hunits : u.year % 100 % 10 = t.year % 100 % 10 := by
    have := h.year
    omega
  rw [hu, hdrop, htens, hunits]

-- In the last decade of a century the tens become a colon.
theorem year_lt_of_isUtcTime {text : Bytes}
    (h : Calendar.IsUtcTime ((48 + (t.year % 100 / 10 + 1)).toUInt8 :: text)) : t.year % 100 < 90 := by
  obtain ⟨digits, htext, hlen, hdigits⟩ := h
  match digits, hlen with
  | b :: bs, _ =>
    have hb := hdigits b List.mem_cons_self
    rw [← (List.cons.inj htext).1] at hb
    have hlt : t.year % 100 < 100 := Nat.mod_lt _ (by decide)
    refine Nat.not_le.mp fun hle => ?_
    have hnine : t.year % 100 / 10 = 9 := by omega
    rw [hnine] at hb
    exact absurd hb.2 (by decide)

-- The end is a date that exists, ten years after the start.
def EndsTenYearsAfter (t : Calendar.DateTime) (text : Bytes) : Prop :=
  Calendar.IsUtcTime text ∧ ∃ u, IsTenYearsAfter t u ∧ text = u.utcTime

theorem endsTenYearsAfter_iff {start : Vector UInt8 utctimeLen} (h : start.toList = t.utcTime) :
    EndsTenYearsAfter t (addYears start 10).toList ↔ t.year % 100 < 90 ∧ ¬(t.month = 2 ∧ t.day = 29) := by
  rw [addYears_text h]
  constructor
  case mp => exact fun ⟨hutc, u, hafter, _⟩ => ⟨year_lt_of_isUtcTime hutc, hafter.not_leapDay⟩
  case mpr =>
    intro ⟨hyear, hday⟩
    obtain ⟨u, hafter⟩ := exists_isTenYearsAfter hday
    rw [← hafter.text hyear]
    exact ⟨u.isUtcTime, u, hafter, rfl⟩

theorem setAttestCertValid_end_iff (now : TimeOfDay) :
    ∃! t : Calendar.DateTime, t.seconds = now.tvSec.toInt ∧
      ((∃ enough, ∀ rounds, enough ≤ rounds → ∀ valid, ∃ valid',
          setAttestCertValid rounds (some now.toTimeval) valid = .ok valid' ∧
            EndsTenYearsAfter t valid'.end.toList) ↔
        t.year % 100 < 90 ∧ ¬(t.month = 2 ∧ t.day = 29)) := by
  obtain ⟨t, ht, time, hdenotes, hrun⟩ := setAttestCertValid_run now
  have hend := endsTenYearsAfter_iff (getTimeStampTee_text hdenotes)
  refine ⟨t, ⟨ht, ?_⟩, fun u hu => Calendar.DateTime.seconds_injective (hu.1.trans ht.symm)⟩
  rw [← hend]
  constructor
  case mp =>
    intro ⟨enough, h⟩
    obtain ⟨valid', hok, hends⟩ := h (max enough (2 ^ 32)) (Nat.le_max_left _ _) ⟨.replicate _ 0, .replicate _ 0⟩
    rw [hrun _ (Nat.le_max_right _ _)] at hok
    cases hok
    exact hends
  case mpr => exact fun hends => ⟨2 ^ 32, fun rounds hrounds valid => ⟨_, hrun rounds hrounds valid, hends⟩⟩

def noonOfLeapDay : Calendar.DateTime :=
  { year := 2024, month := 2, day := 29, hour := 12, minute := 0, second := 0
    month_pos := by decide, month_le := by decide, day_pos := by decide, day_le := by decide
    hour_lt := by decide, minute_lt := by decide, second_lt := by decide }

-- At noon of the 29th of February 2024 the end is that of a year that has no such day.
theorem setAttestCertValid_leapDay :
    noonOfLeapDay.seconds = 1709208000 ∧
      ∃ valid, setAttestCertValid 100 (some ⟨1709208000, 0⟩) ⟨.replicate _ 0, .replicate _ 0⟩ = .ok valid ∧
        ¬EndsTenYearsAfter noonOfLeapDay valid.end.toList := by
  have hstart : (getTimeStampTee ⟨0, 0, 12, 29, 2, 2024⟩).toList = noonOfLeapDay.utcTime := rfl
  refine ⟨by decide +kernel, ⟨_, addYears (getTimeStampTee ⟨0, 0, 12, 29, 2, 2024⟩) 10⟩, rfl, fun hends => ?_⟩
  exact ((endsTenYearsAfter_iff hstart).mp hends).2 (by decide)

end End

end Huks.InPlace
