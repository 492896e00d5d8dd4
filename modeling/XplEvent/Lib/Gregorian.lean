import Mathlib.Logic.Function.Iterate

/-!
# The Gregorian calendar

A date and the one after it. Dates are numbered so that the next date has
the next number (`dayNumber_next`), and the distance of two dates is the
difference of their numbers (`daysBetween_iff`).
-/

namespace Lib

/-- A leap year has a February of 29 days. -/
def isLeap (year : Int) : Prop := year % 4 = 0 ∧ (year % 100 ≠ 0 ∨ year % 400 = 0)

instance (year : Int) : Decidable (isLeap year) := inferInstanceAs (Decidable (_ ∧ _))

def monthLength (year : Int) (month : Nat) : Nat :=
  if month = 2 then if isLeap year then 29 else 28
  else if month = 4 ∨ month = 6 ∨ month = 9 ∨ month = 11 then 30
  else 31

/-- The length of the first months of a year. -/
def monthsLength (year : Int) : Nat → Nat
  | 0 => 0
  | months + 1 => monthsLength year months + monthLength year (months + 1)

/-- A date of the calendar, continued to all years. -/
structure Date where
  year : Int
  month : Nat
  day : Nat
  month_pos : 1 ≤ month
  month_le : month ≤ 12
  day_pos : 1 ≤ day
  day_le : day ≤ monthLength year month
deriving DecidableEq

theorem monthLength_pos (year : Int) (month : Nat) : 1 ≤ monthLength year month := by
  unfold monthLength
  split
  · split <;> decide
  · split <;> decide

/-- The day after. -/
def Date.next (date : Date) : Date :=
  if hday : date.day + 1 ≤ monthLength date.year date.month then
    { date with day := date.day + 1, day_pos := Nat.le_add_left 1 date.day, day_le := hday }
  else if hmonth : date.month + 1 ≤ 12 then
    ⟨date.year, date.month + 1, 1, Nat.le_add_left 1 date.month, hmonth, Nat.le_refl 1,
      monthLength_pos date.year (date.month + 1)⟩
  else
    ⟨date.year + 1, 1, 1, Nat.le_refl 1, by decide, Nat.le_refl 1, monthLength_pos (date.year + 1) 1⟩

/-! ## The number of a date -/

/-- The number of the day before a year. -/
def yearStart (year : Int) : Int :=
  365 * (year - 1) + (year - 1) / 4 - (year - 1) / 100 + (year - 1) / 400

/-- The days up to a date. -/
def Date.dayNumber (date : Date) : Int :=
  yearStart date.year + monthsLength date.year (date.month - 1) + date.day

theorem monthsLength_twelve (year : Int) :
    monthsLength year 12 = if isLeap year then 366 else 365 := by
  by_cases hleap : isLeap year
  · simp [monthsLength, monthLength, hleap]
  · simp [monthsLength, monthLength, hleap]

theorem yearStart_succ (year : Int) :
    yearStart (year + 1) = yearStart year + monthsLength year 12 := by
  rw [monthsLength_twelve]
  by_cases hleap : isLeap year
  · rw [if_pos hleap]
    unfold isLeap at hleap
    unfold yearStart
    omega
  · rw [if_neg hleap]
    unfold isLeap at hleap
    unfold yearStart
    omega

/-- **The next date has the next number.** -/
theorem Date.dayNumber_next (date : Date) : date.next.dayNumber = date.dayNumber + 1 := by
  have hlen : monthsLength date.year date.month =
      monthsLength date.year (date.month - 1) + monthLength date.year date.month := by
    obtain ⟨months, hmonths⟩ : ∃ months, date.month = months + 1 :=
      ⟨date.month - 1, by have := date.month_pos; omega⟩
    rw [hmonths]
    rfl
  have hday := date.day_le
  unfold next
  split
  · show yearStart date.year + (monthsLength date.year (date.month - 1) : Int) +
      ((date.day + 1 : Nat) : Int) = _
    unfold dayNumber
    omega
  · split
    · show yearStart date.year + (monthsLength date.year date.month : Int) + ((1 : Nat) : Int) = _
      unfold dayNumber
      omega
    · have hdecember : date.month = 12 := by have := date.month_le; omega
      show yearStart (date.year + 1) + ((0 : Nat) : Int) + ((1 : Nat) : Int) = _
      have hyear := yearStart_succ date.year
      rename_i hlast _
      unfold dayNumber
      rw [hdecember] at hlen hlast hday ⊢
      omega

theorem Date.dayNumber_iterate (n : Nat) (date : Date) :
    (Date.next^[n] date).dayNumber = date.dayNumber + n := by
  induction n with
  | zero => exact (Int.add_zero _).symm
  | succ n ih =>
    rw [Function.iterate_succ_apply', Date.dayNumber_next, ih]
    push_cast
    omega

/-! ## Different dates have different numbers -/

theorem yearStart_mono {year year' : Int} (h : year ≤ year') : yearStart year ≤ yearStart year' := by
  unfold yearStart
  omega

theorem monthsLength_mono (year : Int) {months months' : Nat} (h : months ≤ months') :
    monthsLength year months ≤ monthsLength year months' := by
  induction h with
  | refl => exact Nat.le_refl _
  | step _ ih => exact Nat.le_trans ih (Nat.le_add_right _ _)

/-- A date lies within its month. -/
theorem Date.dayNumber_month (date : Date) :
    yearStart date.year + monthsLength date.year (date.month - 1) < date.dayNumber ∧
      date.dayNumber ≤ yearStart date.year + monthsLength date.year date.month := by
  have hpos := date.month_pos
  obtain ⟨months, hmonths⟩ : ∃ months, date.month = months + 1 := ⟨date.month - 1, by omega⟩
  have hfirst := date.day_pos
  have hlast := date.day_le
  rw [hmonths] at hlast
  unfold dayNumber
  rw [hmonths, Nat.add_sub_cancel, monthsLength]
  push_cast
  omega

theorem Date.dayNumber_year (date : Date) :
    yearStart date.year < date.dayNumber ∧ date.dayNumber ≤ yearStart (date.year + 1) := by
  obtain ⟨hfirst, hlast⟩ := date.dayNumber_month
  have hmono := monthsLength_mono date.year date.month_le
  rw [yearStart_succ]
  omega

theorem Date.dayNumber_injective : Function.Injective Date.dayNumber := by
  intro date date' h
  have hyear : date.year = date'.year := by
    have hbounds := date.dayNumber_year
    have hbounds' := date'.dayNumber_year
    rcases Int.lt_trichotomy date.year date'.year with hlt | heq | hgt
    · have hmono := yearStart_mono (Int.add_one_le_iff.mpr hlt)
      omega
    · exact heq
    · have hmono := yearStart_mono (Int.add_one_le_iff.mpr hgt)
      omega
  have hmonth : date.month = date'.month := by
    have hbounds := date.dayNumber_month
    have hbounds' := date'.dayNumber_month
    rw [← hyear] at hbounds'
    rcases Nat.lt_trichotomy date.month date'.month with hlt | heq | hgt
    · have hmono := monthsLength_mono date.year (Nat.le_sub_one_of_lt hlt)
      omega
    · exact heq
    · have hmono := monthsLength_mono date.year (Nat.le_sub_one_of_lt hgt)
      omega
  have hday : date.day = date'.day := by
    unfold dayNumber at h
    rw [hyear, hmonth] at h
    omega
  cases date
  cases date'
  cases hyear
  cases hmonth
  cases hday
  rfl

/-! ## The distance of dates -/

/-- From one date to another it is so many days, counted one by one. -/
def DaysBetween (date date' : Date) (n : Int) : Prop :=
  (0 ≤ n ∧ Date.next^[n.toNat] date = date') ∨ (n ≤ 0 ∧ Date.next^[(-n).toNat] date' = date)

/-- **The distance of two dates is the difference of their numbers.** -/
theorem daysBetween_iff (date date' : Date) (n : Int) :
    DaysBetween date date' n ↔ n = date'.dayNumber - date.dayNumber := by
  constructor
  · rintro (⟨hn, rfl⟩ | ⟨hn, rfl⟩)
    · rw [Date.dayNumber_iterate]
      omega
    · rw [Date.dayNumber_iterate]
      omega
  · intro hn
    rcases Int.le_total 0 n with hpos | hneg
    · refine .inl ⟨hpos, Date.dayNumber_injective ?_⟩
      rw [Date.dayNumber_iterate]
      omega
    · refine .inr ⟨hneg, Date.dayNumber_injective ?_⟩
      rw [Date.dayNumber_iterate]
      omega

end Lib
