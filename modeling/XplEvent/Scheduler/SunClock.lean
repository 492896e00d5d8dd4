import Mathlib.Data.Rat.Floor
import Mathlib.Tactic.Linarith
import XplEvent.Scheduler.Sun

/-!
# Sun times and the clock

An event of the sun is due when the clock shows the hour and the minute
that are stored for it. The stored ones are the local time of day where the
local time, counted from the UT day, is less than 24 hours; negative ones
are taken modulo 24 hours. What is past midnight is stored as an hour from
24 on, which no clock shows.
-/

namespace XplEvent.Scheduler

/-- The events of the sun. -/
inductive SunEvent
  | sunrise
  | sunset
  | dawn
  | dusk
deriving DecidableEq, Repr

namespace SunEvent

/-- Its `@` command. -/
def command : SunEvent → CString
  | sunrise => cstr "sunrise"
  | sunset => cstr "sunset"
  | dawn => cstr "dawn"
  | dusk => cstr "dusk"

/-- What `__sunriset__` gives for it. -/
def result (a : Almanac) (now : Int) : SunEvent → SunrisetResult
  | sunrise | sunset => a.sunriset (a.riseSet now)
  | dawn | dusk => a.sunriset (a.civil now)

/-- The sun comes to the altitude, and so there is an event. -/
def Happens (a : Almanac) (now : Int) (e : SunEvent) : Prop := (e.result a now).rc = 0

/-- Its time in hours UT. -/
def utTime (a : Almanac) (now : Int) (e : SunEvent) : ℚ :=
  match e with
  | sunrise | dawn => (e.result a now).trise
  | sunset | dusk => (e.result a now).tset

/-- Its local time in hours, from the start of the UT day. -/
def localTime (a : Almanac) (now : Int) (e : SunEvent) : ℚ := e.utTime a now + a.utcOffset now

def valid (sun : SunTimes) : SunEvent → Bool
  | sunrise | sunset => sun.ssValid
  | dawn | dusk => sun.ddValid

def hour (sun : SunTimes) : SunEvent → Int
  | sunrise => sun.sunriseHour
  | sunset => sun.sunsetHour
  | dawn => sun.dawnHour
  | dusk => sun.duskHour

def minute (sun : SunTimes) : SunEvent → Int
  | sunrise => sun.sunriseMinute
  | sunset => sun.sunsetMinute
  | dawn => sun.dawnMinute
  | dusk => sun.duskMinute

/-- What `__sunriset__` returns: rise times from 12 hours before the day
on, and set times up to 12 hours behind it. -/
def InRange (a : Almanac) (now : Int) (e : SunEvent) : Prop :=
  match e with
  | sunrise | dawn => -12 < e.utTime a now ∧ e.utTime a now < 24
  | sunset | dusk => 0 < e.utTime a now ∧ e.utTime a now < 36

end SunEvent

/-! ## Hours and minutes -/

/-- The minute of the day of a time in hours. -/
def minuteOfDay (x : ℚ) : Int := ⌊60 * (x - 24 * ⌊x / 24⌋)⌋

/-- An hour and a minute are those of a time, modulo 24 hours. -/
structure IsTimeOfDay (hour minute : Int) (x : ℚ) : Prop where
  hour_nonneg : 0 ≤ hour
  hour_le : hour ≤ 23
  minute_nonneg : 0 ≤ minute
  minute_le : minute ≤ 59
  denotes : 60 * hour + minute = minuteOfDay x

theorem toInt_eq_floor {x : ℚ} (h : 0 ≤ x) : toInt x = ⌊x⌋ := by
  have hnum : 0 ≤ x.num := Rat.num_nonneg.mpr h
  rw [toInt, Int.tdiv_eq_ediv_of_nonneg hnum, Rat.floor_def']

theorem minuteOfDay_add_24 (x : ℚ) : minuteOfDay (x + 24) = minuteOfDay x := by
  have hday : ⌊(x + 24) / 24⌋ = ⌊x / 24⌋ + 1 := by
    rw [show (x + 24) / 24 = x / 24 + 1 by ring]
    exact Int.floor_add_one (x / 24)
  unfold minuteOfDay
  rw [hday]
  congr 1
  push_cast
  ring

/-- Within the day the hour and the minute are the right ones. -/
theorem isTimeOfDay_of_lt {x : ℚ} (hx : 0 ≤ x) (hday : x < 24) :
    IsTimeOfDay (hourOf x) (minuteOf x) x := by
  have hhour : hourOf x = ⌊x⌋ := toInt_eq_floor hx
  have hfract : 0 ≤ (x - ⌊x⌋) * 60 := by
    have hle := Int.floor_le x
    linarith
  have hminute : minuteOf x = ⌊(x - ⌊x⌋) * 60⌋ := by
    rw [minuteOf, hhour]
    exact toInt_eq_floor hfract
  have hzero : ⌊x / 24⌋ = 0 := by
    rw [Int.floor_eq_zero_iff]
    constructor
    · linarith
    · linarith
  rw [hhour, hminute]
  constructor
  · exact Int.floor_nonneg.mpr hx
  · have hlt : ⌊x⌋ < 24 := Int.floor_lt.mpr hday
    omega
  · exact Int.floor_nonneg.mpr hfract
  · have hlt : ⌊(x - ⌊x⌋) * 60⌋ < 60 := by
      rw [Int.floor_lt]
      have hlt := Int.lt_floor_add_one x
      push_cast
      linarith
    omega
  · rw [minuteOfDay, hzero, show (x - ⌊x⌋) * 60 = 60 * x - ((60 * ⌊x⌋ : Int) : ℚ) by push_cast; ring,
      Int.floor_sub_intCast]
    simp

/-- **A local time is stored as a time of day if and only if it is before
the end of the day.** -/
theorem isTimeOfDay_iff {utcOffset t : ℚ} (h : -24 ≤ t + utcOffset) :
    IsTimeOfDay (hourOf (toLocal utcOffset t)) (minuteOf (toLocal utcOffset t)) (t + utcOffset) ↔
      t + utcOffset < 24 := by
  unfold toLocal
  by_cases hneg : t + utcOffset < 0
  · simp only [if_pos hneg]
    refine iff_of_true ?_ (by linarith)
    have hday := isTimeOfDay_of_lt (x := t + utcOffset + 24) (by linarith) (by linarith)
    exact ⟨hday.hour_nonneg, hday.hour_le, hday.minute_nonneg, hday.minute_le,
      hday.denotes.trans (minuteOfDay_add_24 _)⟩
  · simp only [if_neg hneg]
    refine ⟨fun hday => ?_, isTimeOfDay_of_lt (not_lt.mp hneg)⟩
    have hhour : ⌊t + utcOffset⌋ ≤ 23 := by
      rw [← toInt_eq_floor (not_lt.mp hneg)]
      exact hday.hour_le
    have hlt : ⌊t + utcOffset⌋ < 24 := by omega
    exact Int.floor_lt.mp hlt

/-! ## What is stored, and when it is due -/

/-- **What is stored for an event.** -/
theorem calcDawnDusk_stores {a : Almanac} {now : Int} {e : SunEvent} (h : e.Happens a now)
    (sun : SunTimes) :
    e.valid (a.calcDawnDusk now sun).sun = true ∧
      e.hour (a.calcDawnDusk now sun).sun = hourOf (toLocal (a.utcOffset now) (e.utTime a now)) ∧
      e.minute (a.calcDawnDusk now sun).sun =
        minuteOf (toLocal (a.utcOffset now) (e.utTime a now)) := by
  unfold Almanac.calcDawnDusk
  cases e with
  | sunrise =>
    have hrise : (a.sunriset (a.riseSet now)).rc = 0 := h
    simp only [if_pos hrise]
    exact ⟨rfl, rfl, rfl⟩
  | sunset =>
    have hrise : (a.sunriset (a.riseSet now)).rc = 0 := h
    simp only [if_pos hrise]
    exact ⟨rfl, rfl, rfl⟩
  | dawn =>
    have hcivil : (a.sunriset (a.civil now)).rc = 0 := h
    simp only [if_pos hcivil]
    split
    · exact ⟨rfl, rfl, rfl⟩
    · exact ⟨rfl, rfl, rfl⟩
  | dusk =>
    have hcivil : (a.sunriset (a.civil now)).rc = 0 := h
    simp only [if_pos hcivil]
    split
    · exact ⟨rfl, rfl, rfl⟩
    · exact ⟨rfl, rfl, rfl⟩

/-- **An event of the sun is due when the clock shows what is stored for
it.** -/
theorem cronAtCommand_sunEvent {l : SchedEntry} {e : SunEvent} (h : l.typeParam = 64 :: e.command)
    (sch : SchedInfo) : cronAtCommand sch l = (sch,
      if e.valid sch.sun ∧ sch.tmNow.tm_hour = e.hour sch.sun ∧ sch.tmNow.tm_min = e.minute sch.sun
      then [l.call] else []) := by
  unfold cronAtCommand
  rw [h]
  cases e with
  | sunrise => rfl
  | sunset => rfl
  | dawn => rfl
  | dusk => rfl

/-- The clock shows an hour and a minute at which the event is due. -/
def CanMatch (sun : SunTimes) (e : SunEvent) : Prop :=
  ∃ tmNow : Tm, (0 ≤ tmNow.tm_hour ∧ tmNow.tm_hour ≤ 23 ∧ 0 ≤ tmNow.tm_min ∧ tmNow.tm_min ≤ 59) ∧
    ∀ (sch : SchedInfo) (l : SchedEntry), sch.sun = sun → sch.tmNow = tmNow →
      l.typeParam = 64 :: e.command → (cronAtCommand sch l).2 = [l.call]

theorem canMatch_of_isTimeOfDay {sun : SunTimes} {e : SunEvent} {x : ℚ} (hvalid : e.valid sun = true)
    (h : IsTimeOfDay (e.hour sun) (e.minute sun) x) : CanMatch sun e := by
  refine ⟨{ Tm.zero with tm_hour := e.hour sun, tm_min := e.minute sun },
    ⟨h.hour_nonneg, h.hour_le, h.minute_nonneg, h.minute_le⟩, ?_⟩
  intro sch l hsun htm hcommand
  rw [cronAtCommand_sunEvent hcommand, hsun, htm]
  exact if_pos ⟨hvalid, rfl, rfl⟩

/-- What is stored for the events that happen is a time of day, the local
one, and one the clock shows. -/
def TimesOfDay (a : Almanac) (now : Int) (sun : SunTimes) : Prop :=
  ∀ e : SunEvent, e.Happens a now →
    IsTimeOfDay (e.hour (a.calcDawnDusk now sun).sun) (e.minute (a.calcDawnDusk now sun).sun)
      (e.localTime a now) ∧ CanMatch (a.calcDawnDusk now sun).sun e

/-- **The sun times are times of day if and only if every event happens
before 24 hours of local time.** -/
theorem timesOfDay_iff {a : Almanac} {now : Int}
    (hoffset : -12 ≤ a.utcOffset now ∧ a.utcOffset now ≤ 14)
    (hrange : ∀ e : SunEvent, e.Happens a now → e.InRange a now) (sun : SunTimes) :
    TimesOfDay a now sun ↔ ∀ e : SunEvent, e.Happens a now → e.localTime a now < 24 := by
  have hleast : ∀ e : SunEvent, e.Happens a now → -24 ≤ e.utTime a now + a.utcOffset now := by
    intro e he
    have hut : -12 < e.utTime a now := by
      have hin := hrange e he
      cases e with
      | sunrise => exact hin.1
      | dawn => exact hin.1
      | sunset => exact lt_trans (by norm_num) hin.1
      | dusk => exact lt_trans (by norm_num) hin.1
    linarith [hoffset.1]
  constructor
  · intro htimes e he
    obtain ⟨_, hhour, hminute⟩ := calcDawnDusk_stores he sun
    have hday := (htimes e he).1
    rw [hhour, hminute] at hday
    exact (isTimeOfDay_iff (hleast e he)).mp hday
  · intro hlt e he
    obtain ⟨hvalid, hhour, hminute⟩ := calcDawnDusk_stores he sun
    have hday := (isTimeOfDay_iff (hleast e he)).mpr (hlt e he)
    rw [← hhour, ← hminute] at hday
    exact ⟨hday, canMatch_of_isTimeOfDay hvalid hday⟩

theorem reykjavik_utcOffset (tm : TmDate) (trise tset : ℚ) (now : Int) (h : tm.tm_isdst = 0) :
    (reykjavik tm trise tset).utcOffset now = 0 := by
  unfold Almanac.utcOffset
  simp only [show ((reykjavik tm trise tset).localtm now).tm_isdst = 0 from h]
  simp [reykjavik]

/-- On the first of March everything is well. -/
theorem timesOfDay_march : TimesOfDay (reykjavik firstOfMarch (17 / 2) (37 / 2)) 1583064000
    .unknown := by
  have hoffset := reykjavik_utcOffset firstOfMarch (17 / 2) (37 / 2) 1583064000 rfl
  refine (timesOfDay_iff (by rw [hoffset]; norm_num) ?_ .unknown).mpr ?_
  · intro e _
    cases e <;> constructor <;> norm_num [SunEvent.utTime, SunEvent.result, Almanac.sunriset, reykjavik]
  · intro e _
    rw [SunEvent.localTime, hoffset]
    cases e <;> norm_num [SunEvent.utTime, SunEvent.result, Almanac.sunriset, reykjavik]

/-- The summer solstice, where the sun sets at three minutes past midnight. -/
def midsummer : Almanac :=
  reykjavik ⟨⟨0, 12, 21, 5, 0⟩, 0, 120, 0⟩ (35 / 12) (481 / 20)

/-- The hour that is stored is 24. -/
theorem timesOfDay_fails : ¬ TimesOfDay midsummer 1592740800 .unknown := by
  intro htimes
  have hoffset : midsummer.utcOffset 1592740800 = 0 := reykjavik_utcOffset _ _ _ _ rfl
  have hsunset : SunEvent.sunset.utTime midsummer 1592740800 = 481 / 20 := rfl
  have hhappens : SunEvent.sunset.Happens midsummer 1592740800 := rfl
  obtain ⟨_, hhour, hminute⟩ := calcDawnDusk_stores hhappens .unknown
  have hday := (htimes .sunset hhappens).1
  rw [hhour, hminute, SunEvent.localTime, hsunset, hoffset] at hday
  have hlt := (isTimeOfDay_iff (by norm_num)).mp hday
  norm_num at hlt

end XplEvent.Scheduler
