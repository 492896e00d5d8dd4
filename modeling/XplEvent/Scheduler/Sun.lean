import Mathlib.Data.Rat.Defs
import Mathlib.Tactic.IntervalCases
import XplEvent.Lib.Gregorian
import XplEvent.Scheduler.Schedule

/-!
# `calcDawnDusk` — the sun times of a day

The times are computed by `__sunriset__` for the local date and stored as
hours and minutes. What the C library says of the time, the place and what
`__sunriset__` makes of the angles are parameters; the numbers of `double`
are taken to be exact.

The day is numbered by a formula that counts the months from 1. The months
of a `struct tm` are counted from 0 and handed on as they are, so the day
is never the right one (`computedForToday_never`).
-/

namespace XplEvent.Scheduler

open Lib (Date DaysBetween daysBetween_iff yearStart monthsLength monthLength isLeap)

/-- `struct tm`, with the fields `mktime` needs. -/
structure TmDate extends Tm where
  tm_sec : Int
  tm_year : Int
  tm_isdst : Int
deriving DecidableEq, Repr

/-! ## `__sunriset__` -/

/-- The arguments of `__sunriset__`. -/
structure SunrisetCall where
  year : Int
  month : Int
  day : Int
  lon : ℚ
  lat : ℚ
  altit : ℚ
  upper_limb : Int
deriving DecidableEq, Repr

/-- What `__sunriset__` gives. -/
structure SunrisetResult where
  rc : Int
  trise : ℚ
  tset : ℚ
deriving DecidableEq, Repr

/-- What `calcDawnDusk` finds around it. -/
structure Almanac where
  gmtime_r : Int → TmDate
  localtime_r : Int → TmDate
  /-- The time, and the argument as it is left. -/
  mktime : TmDate → Int × TmDate
  lat : ℚ
  lon : ℚ
  /-- What `__sunriset__` computes from `d`, `lon`, `lat`, `altit` and
  `upper_limb`. -/
  sunAt : ℚ → ℚ → ℚ → ℚ → Int → SunrisetResult

/-- The number of days elapsed since 2000 Jan 0.0. -/
def days_since_2000_Jan_0 (y m d : Int) : Int :=
  367 * y - (7 * (y + (m + 9).tdiv 12)).tdiv 4 + (275 * m).tdiv 9 + d - 730530

/-- `__sunriset__`. -/
def Almanac.sunriset (a : Almanac) (c : SunrisetCall) : SunrisetResult :=
  -- 12h local mean solar time
  let d : ℚ := days_since_2000_Jan_0 c.year c.month c.day + 1 / 2 - c.lon / 360
  a.sunAt d c.lon c.lat c.altit c.upper_limb

def sun_rise_set (year month day : Int) (lon lat : ℚ) : SunrisetCall :=
  ⟨year, month, day, lon, lat, -35 / 60, 1⟩

def civil_twilight (year month day : Int) (lon lat : ℚ) : SunrisetCall :=
  ⟨year, month, day, lon, lat, -6, 0⟩

/-! ## `calcDawnDusk` -/

/-- `localtm`, as `mktime` leaves it. -/
def Almanac.localtm (a : Almanac) (now : Int) : TmDate := (a.mktime (a.localtime_r now)).2

/-- `sch->utcOffset`. -/
def Almanac.utcOffset (a : Almanac) (now : Int) : ℚ :=
  let utcOffsetSeconds := (a.mktime (a.localtime_r now)).1 - (a.mktime (a.gmtime_r now)).1
  let utcOffsetSeconds :=
    if (a.localtm now).tm_isdst ≠ 0 then utcOffsetSeconds + 3600 else utcOffsetSeconds
  utcOffsetSeconds / 3600

/-- A conversion to `int` cuts the fraction off. -/
def toInt (x : ℚ) : Int := x.num.tdiv x.den

/-- A time of the day in hours UT, moved to local time. -/
def toLocal (utcOffset t : ℚ) : ℚ :=
  let x := t + utcOffset
  if x < 0 then x + 24 else x

def hourOf (x : ℚ) : Int := toInt x

def minuteOf (x : ℚ) : Int := toInt ((x - hourOf x) * 60)

/-- The calls of `__sunriset__`, and what is stored. -/
structure DawnDusk where
  calls : List SunrisetCall
  sun : SunTimes
deriving DecidableEq, Repr

/-- The call for dawn and dusk. -/
def Almanac.civil (a : Almanac) (now : Int) : SunrisetCall :=
  let localtm := a.localtm now
  civil_twilight (1900 + localtm.tm_year) localtm.tm_mon localtm.tm_mday a.lon a.lat

/-- The call for sunrise and sunset. -/
def Almanac.riseSet (a : Almanac) (now : Int) : SunrisetCall :=
  let localtm := a.localtm now
  sun_rise_set (1900 + localtm.tm_year) localtm.tm_mon localtm.tm_mday a.lon a.lat

/-- `calcDawnDusk`. -/
def Almanac.calcDawnDusk (a : Almanac) (now : Int) (sun : SunTimes) : DawnDusk :=
  let utcOffset := a.utcOffset now
  let res := a.sunriset (a.civil now)
  let sun :=
    if res.rc = 0 then
      let civ_start := toLocal utcOffset res.trise
      let civ_end := toLocal utcOffset res.tset
      { sun with
        ddValid := true
        duskHour := hourOf civ_end
        duskMinute := minuteOf civ_end
        dawnHour := hourOf civ_start
        dawnMinute := minuteOf civ_start }
    else { sun with ddValid := false }
  let res := a.sunriset (a.riseSet now)
  let sun :=
    if res.rc = 0 then
      let sunrise := toLocal utcOffset res.trise
      let sunset := toLocal utcOffset res.tset
      { sun with
        ssValid := true
        sunsetHour := hourOf sunset
        sunsetMinute := minuteOf sunset
        sunriseHour := hourOf sunrise
        sunriseMinute := minuteOf sunrise }
    else { sun with ssValid := false }
  ⟨[a.civil now, a.riseSet now], sun⟩

/-- The clock the scheduler works with. -/
def Almanac.clock (a : Almanac) : Clock :=
  ⟨fun now => (a.localtime_r now).toTm, fun now sun => (a.calcDawnDusk now sun).sun⟩

/-! ## The day the times are computed for -/

/-- The last day of 1999. -/
def lastOf1999 : Date :=
  ⟨1999, 12, 31, Nat.succ_pos 11, Nat.le_refl 12, Nat.succ_pos 30, Nat.le_refl 31⟩

/-- A broken-down time tells a date. -/
def TmDate.IsDate (tm : TmDate) (date : Date) : Prop :=
  tm.tm_year = date.year - 1900 ∧ tm.tm_mon = date.month - 1 ∧ tm.tm_mday = date.day

/-- The day the sun times are computed for is the date: it is as many days
from the last day of 1999 as the formula says. -/
def ComputedForToday (a : Almanac) (now : Int) (sun : SunTimes) (date : Date) : Prop :=
  ∀ c ∈ (a.calcDawnDusk now sun).calls,
    DaysBetween lastOf1999 date (days_since_2000_Jan_0 c.year c.month c.day)

theorem dayNumber_lastOf1999 : lastOf1999.dayNumber = 730119 := by decide

/-- The divisions are of numbers that are not negative. -/
theorem days_since_2000_Jan_0_ediv {y m : Int} (hy : 0 ≤ y) (hm : 0 ≤ m) (d : Int) :
    days_since_2000_Jan_0 y m d =
      367 * y - 7 * (y + (m + 9) / 12) / 4 + 275 * m / 9 + d - 730530 := by
  have htwelfth : (m + 9).tdiv 12 = (m + 9) / 12 := Int.tdiv_eq_ediv_of_nonneg (by omega)
  have hfourth : (7 * (y + (m + 9) / 12)).tdiv 4 = 7 * (y + (m + 9) / 12) / 4 :=
    Int.tdiv_eq_ediv_of_nonneg (by omega)
  have hninth : (275 * m).tdiv 9 = 275 * m / 9 := Int.tdiv_eq_ediv_of_nonneg (by omega)
  rw [days_since_2000_Jan_0, htwelfth, hfourth, hninth]

/-- The length of the months before a month, as the formula has it. -/
theorem monthsLength_eq (year : Int) {month : Nat} (hpos : 1 ≤ month) (hle : month ≤ 12) :
    (monthsLength year (month - 1) : Int) + 30 +
      (if 3 ≤ month then if isLeap year then 1 else 2 else 0) = 275 * month / 9 := by
  by_cases hleap : isLeap year
  · interval_cases month <;> simp [monthsLength, monthLength, hleap]
  · interval_cases month <;> simp [monthsLength, monthLength, hleap]

/-- The years before a year, as the formula has it: of these years every
fourth is a leap year, 2000 as well. -/
theorem yearStart_eq {year : Int} (hfrom : 1970 ≤ year) (hto : year ≤ 2099) :
    367 * year - 7 * year / 4 = yearStart year + 381 ∧
      367 * year - 7 * (year + 1) / 4 = yearStart year + 379 + (if isLeap year then 1 else 0) := by
  have hcenturies : (year - 1) / 100 = (year - 1) / 400 + 15 := by omega
  have hleap : isLeap year ↔ year % 4 = 0 := by
    unfold isLeap
    omega
  unfold yearStart
  rw [hcenturies]
  constructor
  · omega
  · by_cases hfourth : year % 4 = 0
    · rw [if_pos (hleap.mpr hfourth)]
      omega
    · rw [if_neg (mt hleap.mp hfourth)]
      have hrest : year % 4 = 1 ∨ year % 4 = 2 ∨ year % 4 = 3 := by omega
      rcases hrest with hr | hr | hr
      · omega
      · omega
      · omega

/-- **The formula is right**, with the months counted from 1. -/
theorem days_since_2000_Jan_0_eq {date : Date} (hfrom : 1970 ≤ date.year) (hto : date.year ≤ 2099) :
    days_since_2000_Jan_0 date.year date.month date.day =
      date.dayNumber - lastOf1999.dayNumber := by
  have hmonths := monthsLength_eq date.year date.month_pos date.month_le
  obtain ⟨hwinter, hsummer⟩ := yearStart_eq hfrom hto
  rw [days_since_2000_Jan_0_ediv (by omega) (by omega), dayNumber_lastOf1999]
  unfold Date.dayNumber
  have hle := date.month_le
  by_cases hmarch : 3 ≤ date.month
  · have hshift : ((date.month : Int) + 9) / 12 = 1 := by omega
    rw [if_pos hmarch] at hmonths
    rw [hshift]
    by_cases hleap : isLeap date.year
    · rw [if_pos hleap] at hmonths hsummer
      omega
    · rw [if_neg hleap] at hmonths hsummer
      omega
  · have hshift : ((date.month : Int) + 9) / 12 = 0 := by omega
    rw [if_neg hmarch] at hmonths
    rw [hshift, Int.add_zero]
    omega

/-- A month earlier it is a smaller number. -/
theorem days_since_2000_Jan_0_lt {y m : Int} (hy : 0 ≤ y) (hm : 1 ≤ m) (d : Int) :
    days_since_2000_Jan_0 y (m - 1) d < days_since_2000_Jan_0 y m d := by
  rw [days_since_2000_Jan_0_ediv hy (by omega), days_since_2000_Jan_0_ediv hy (by omega)]
  omega

/-- The day of the calls. -/
theorem mem_calls {a : Almanac} {now : Int} {sun : SunTimes} {date : Date}
    (hkeeps : a.localtm now = a.localtime_r now) (hdate : (a.localtime_r now).IsDate date)
    {c : SunrisetCall} (hc : c ∈ (a.calcDawnDusk now sun).calls) :
    c.year = date.year ∧ c.month = date.month - 1 ∧ c.day = date.day := by
  obtain ⟨hyear, hmonth, hday⟩ := hdate
  have hyears : 1900 + (a.localtm now).tm_year = date.year := by
    rw [hkeeps, hyear]
    omega
  have hcalls : c = a.civil now ∨ c = a.riseSet now := by
    simpa using (show c ∈ [a.civil now, a.riseSet now] from hc)
  rw [← hkeeps] at hmonth hday
  rcases hcalls with rfl | rfl
  · exact ⟨hyears, hmonth, hday⟩
  · exact ⟨hyears, hmonth, hday⟩

/-- What the formula says of a date is too small with its month counted
from 0. -/
theorem not_daysBetween {date : Date} (hfrom : 1970 ≤ date.year) (hto : date.year ≤ 2099) :
    ¬ DaysBetween lastOf1999 date
      (days_since_2000_Jan_0 date.year (date.month - 1) date.day) := by
  have hmonth := date.month_pos
  have hright := days_since_2000_Jan_0_eq hfrom hto
  have hlt := days_since_2000_Jan_0_lt (y := date.year) (m := date.month) (by omega) (by omega)
    date.day
  rw [daysBetween_iff]
  omega

/-- **The sun times are never those of today.** `mktime` leaves a local
time as it is. -/
theorem computedForToday_never {a : Almanac} {now : Int} {date : Date}
    (hkeeps : a.localtm now = a.localtime_r now) (hdate : (a.localtime_r now).IsDate date)
    (hfrom : 1970 ≤ date.year) (hto : date.year ≤ 2099) (sun : SunTimes) :
    ¬ ComputedForToday a now sun date := by
  intro hcomputed
  have hc : a.civil now ∈ (a.calcDawnDusk now sun).calls := List.mem_cons_self
  obtain ⟨hyear, hmonth, hday⟩ := mem_calls hkeeps hdate hc
  have hdays := hcomputed _ hc
  rw [hyear, hmonth, hday] at hdays
  exact not_daysBetween hfrom hto hdays

/-- Reykjavik, where local time is UT all year, at a time and with the sun
as it is given. -/
def reykjavik (tm : TmDate) (trise tset : ℚ) : Almanac where
  gmtime_r _ := tm
  localtime_r _ := tm
  mktime tm :=
    let days := days_since_2000_Jan_0 (tm.tm_year + 1900) (tm.tm_mon + 1) tm.tm_mday + 10956
    (86400 * days + 3600 * tm.tm_hour + 60 * tm.tm_min + tm.tm_sec, tm)
  lat := 64
  lon := -22
  sunAt _ _ _ _ _ := ⟨0, trise, tset⟩

/-- Noon of the first of March 2020. -/
def firstOfMarch : TmDate := ⟨⟨0, 12, 1, 2, 0⟩, 0, 120, 0⟩

/-- No times are known yet. -/
def SunTimes.unknown : SunTimes := ⟨0, 0, 0, 0, 0, 0, 0, 0, false, false⟩

/-- Not on the first of March. -/
theorem computedForToday_march : ¬ ComputedForToday (reykjavik firstOfMarch (17 / 2) (37 / 2))
    1583064000 .unknown ⟨2020, 3, 1, by decide, by decide, by decide, by decide⟩ :=
  computedForToday_never rfl ⟨rfl, rfl, rfl⟩ (by decide) (by decide) .unknown

/-- New Year's Day of 2020 is computed as the second of December before. -/
theorem computedForToday_fails : ¬ ComputedForToday
    (reykjavik ⟨⟨0, 12, 1, 0, 3⟩, 0, 120, 0⟩ (45 / 4) (63 / 4)) 1577880000 .unknown
      ⟨2020, 1, 1, by decide, by decide, by decide, by decide⟩ := by
  intro hcomputed
  have hdays := hcomputed _ List.mem_cons_self
  rw [daysBetween_iff] at hdays
  revert hdays
  decide

end XplEvent.Scheduler
