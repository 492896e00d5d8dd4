import Mathlib.Data.Int.Order.Basic
import XplEvent.Lib.Sampling
import XplEvent.Scheduler.Timetable

/-!
# A walk for every minute

The scheduler is polled every few seconds and walks when the minute of
local time is another than at the last walk. It compares the number of the
minute in its hour with one it remembers, and what it remembers at first
is 0: a scheduler that is polled for the first time in the first minute of
an hour takes that minute for one it has been through.
-/

namespace XplEvent.Scheduler

open Lib (run EachStep)

/-- The local time: `minute` counts the minutes of the local clock. Less
than 60 seconds take it into the next minute at most, and that has another
number in its hour. -/
structure LocalClock extends Clock where
  minute : Int → Int
  same : ∀ t t', minute t = minute t' → (localtime_r t).tm_min = (localtime_r t').tm_min
  next : ∀ t t', minute t' = minute t + 1 → (localtime_r t').tm_min ≠ (localtime_r t).tm_min
  advances : ∀ t t', t < t' → t' < t + 60 → minute t ≤ minute t' ∧ minute t' ≤ minute t + 1

/-- Increasing times, each less than 60 seconds behind the one before. -/
def Sampled (ts : List Int) : Prop := ts.IsChain fun t t' => t < t' ∧ t' < t + 60

/-- **One walk a minute**: no poll fails, and in the minute of every poll
there is one walk. -/
def OneWalkPerMinute (clock : LocalClock) (sch : SchedInfo) (ts : List Int) : Prop :=
  ∃ walks sch', run (step clock.toClock) sch (ts.map .SchedulerDo) = (walks, .ok sch') ∧
    ∀ t ∈ ts, walks.countP (fun w => clock.minute w.now = clock.minute t) = 1

/-- The times of the walks of a timetable that is polled. -/
def walkTimes (clock : Clock) (t : Timetable) (ts : List Int) : List Int :=
  (t.run clock (ts.map .SchedulerDo)).1.map Walk.now

theorem walkTimes_cons (clock : Clock) (t : Timetable) (now : Int) (ts : List Int) :
    walkTimes clock t (now :: ts) =
      if t.Walks clock now then now :: walkTimes clock (t.walked clock now) ts
      else walkTimes clock t ts := by
  rw [walkTimes, List.map_cons, Timetable.run, Timetable.step]
  by_cases hwalks : t.Walks clock now
  · rw [if_pos hwalks, if_pos hwalks]
    rfl
  · rw [if_neg hwalks, if_neg hwalks]
    rfl

/-- The minutes climb along the polls. -/
theorem climbs_minutes (clock : LocalClock) {now : Int} {ts : List Int}
    (h : Sampled (now :: ts)) : Lib.Climbs clock.minute now ts := by
  induction ts generalizing now with
  | nil => trivial
  | cons next ts ih =>
    obtain ⟨⟨hlt, hgap⟩, hrest⟩ := List.isChain_cons_cons.mp h
    exact ⟨(clock.advances now next hlt hgap).1, ih hrest⟩

/-- **Behind a poll the timetable walks where the minute changes.** -/
theorem walkTimes_changes (clock : LocalClock) {t : Timetable} (hon : t.enabled = true) {now : Int}
    (hprev : t.tmPrevNow.tm_min = (clock.localtime_r now).tm_min) {ts : List Int}
    (h : Sampled (now :: ts)) :
    walkTimes clock.toClock t ts = Lib.changes clock.minute now ts := by
  induction ts generalizing t now with
  | nil => rfl
  | cons next ts ih =>
    obtain ⟨⟨hlt, hgap⟩, hrest⟩ := List.isChain_cons_cons.mp h
    rw [walkTimes_cons, Lib.changes]
    by_cases hsame : clock.minute next = clock.minute now
    · have hmin := clock.same next now hsame
      have hskip : ¬ t.Walks clock.toClock next := fun hwalks => hwalks.2 (hmin.trans hprev.symm)
      rw [if_neg hskip, if_pos hsame]
      exact ih hon (hprev.trans hmin.symm) hrest
    · obtain ⟨hle, hge⟩ := clock.advances now next hlt hgap
      have hmin := clock.next now next (by omega)
      have hwalks : t.Walks clock.toClock next := ⟨hon, fun heq => hmin (heq.trans hprev)⟩
      rw [if_pos hwalks, if_neg hsame]
      have hwalked : (t.walked clock.toClock next).enabled = true := hon
      exact congrArg (List.cons next) (ih hwalked rfl hrest)

/-- The count of the walks in a minute. -/
theorem countP_walks (clock : LocalClock) (walks : List Walk) (t : Int) :
    walks.countP (fun w => clock.minute w.now = clock.minute t) =
      (walks.map Walk.now).countP (fun s => clock.minute s = clock.minute t) := by
  rw [List.countP_map]
  rfl

/-- A poll allocates nothing. -/
theorem polls_allocate (clock : Clock) (sch : SchedInfo) (ts : List Int) :
    EachStep (step clock) Allocates sch (ts.map .SchedulerDo) := by
  apply Lib.eachStep_of_mem
  intro s hs sch
  obtain ⟨now, -, rfl⟩ := List.mem_map.mp hs
  trivial

/-- The walks of a scheduler that is polled are those of its timetable. -/
theorem oneWalk_iff_times (clock : LocalClock) {sch : SchedInfo} {t : Timetable} (h : sch.Has t)
    (ts : List Int) : OneWalkPerMinute clock sch ts ↔ ∀ now ∈ ts,
      (walkTimes clock.toClock t ts).countP (fun s => clock.minute s = clock.minute now) = 1 := by
  unfold OneWalkPerMinute walkTimes
  rw [run_walks_iff h (polls_allocate clock.toClock sch ts) fun walks => ∀ now ∈ ts,
    walks.countP (fun w => clock.minute w.now = clock.minute now) = 1]
  simp only [countP_walks]

/-- A first poll in the minute that is remembered at first makes no walk,
and neither do those behind it in that minute. -/
theorem firstMinute_passed (clock : LocalClock) {t : Timetable} (hon : t.enabled = true)
    {first : Int} (hmin : (clock.localtime_r first).tm_min = t.tmPrevNow.tm_min) {ts : List Int}
    (hts : Sampled (first :: ts)) : (walkTimes clock.toClock t (first :: ts)).countP
      (fun s => clock.minute s = clock.minute first) = 0 := by
  have hskip : ¬ t.Walks clock.toClock first := fun hwalks => hwalks.2 hmin
  rw [walkTimes_cons, if_neg hskip, walkTimes_changes clock hon hmin.symm hts]
  exact Lib.countP_changes_self (climbs_minutes clock hts)

/-- Behind a first poll that walks every minute has its walk. -/
theorem everyMinute_walked (clock : LocalClock) {t : Timetable} {first : Int}
    (hwalks : t.Walks clock.toClock first) {ts : List Int} (hts : Sampled (first :: ts)) {now : Int}
    (hnow : now ∈ first :: ts) : (walkTimes clock.toClock t (first :: ts)).countP
      (fun s => clock.minute s = clock.minute now) = 1 := by
  have hclimbs := climbs_minutes clock hts
  have hon : (t.walked clock.toClock first).enabled = true := hwalks.1
  rw [walkTimes_cons, if_pos hwalks, walkTimes_changes clock hon rfl hts, List.countP_cons]
  by_cases hsame : clock.minute now = clock.minute first
  · rw [hsame, Lib.countP_changes_self hclimbs, if_pos (decide_eq_true rfl)]
  · have hmem : now ∈ ts := by
      rcases List.mem_cons.mp hnow with rfl | hmem
      · exact absurd rfl hsame
      · exact hmem
    have hother : ¬ decide (clock.minute first = clock.minute now) = true := by
      rw [decide_eq_true_iff]
      exact Ne.symm hsame
    rw [Lib.countP_changes hclimbs hmem hsame, if_neg hother]

/-- **Every minute has its walk exactly when** the first poll does not fall
in the first minute of an hour. -/
theorem oneWalkPerMinute_iff (clock : LocalClock) {sch : SchedInfo} {t : Timetable}
    (h : sch.Has t) (hon : t.enabled = true) (hfresh : t.tmPrevNow = .zero) {ts : List Int}
    (hts : Sampled ts) : OneWalkPerMinute clock sch ts ↔
      ∀ now, ts.head? = some now → (clock.localtime_r now).tm_min ≠ 0 := by
  rw [oneWalk_iff_times clock h]
  cases ts with
  | nil =>
    refine iff_of_true (fun now hnow => absurd hnow List.not_mem_nil) ?_
    intro now hnow
    cases hnow
  | cons first ts =>
    constructor
    · rintro hone now ⟨⟩ hmin
      have hnone := firstMinute_passed clock hon (by rw [hfresh, hmin]; rfl) hts
      rw [hone first List.mem_cons_self] at hnone
      cases hnone
    · intro hne now hnow
      have hwalks : t.Walks clock.toClock first := by
        refine ⟨hon, ?_⟩
        rw [hfresh]
        exact hne first rfl
      exact everyMinute_walked clock hwalks hts hnow

/-- The clock of UTC in January 1970, where the sun does not rise. -/
def polarClock : LocalClock where
  localtime_r t := ⟨t / 60 % 60, t / 3600 % 24, 1 + t / 86400, 0, (4 + t / 86400) % 7⟩
  calcDawnDusk _ sun := { sun with ddValid := false, ssValid := false }
  minute t := t / 60
  same t t' h := congrArg (· % 60) h
  next t t' h := by
    show t' / 60 % 60 ≠ t / 60 % 60
    omega
  advances t t' hlt hgap := by omega

/-- A scheduler that has been started without entries. -/
def startedSched : SchedInfo := { SchedulerInit with enabled := true }

theorem startedSched_has : startedSched.Has { Timetable.initial with enabled := true } :=
  ⟨⟨rfl, Lib.Links.holds_nil _⟩, rfl, rfl, rfl, rfl⟩

/-- Polls from 01:01:54 on. -/
theorem oneWalkPerMinute_sample :
    OneWalkPerMinute polarClock startedSched [3714, 3720, 3726, 3780] := by
  have hts : Sampled [3714, 3720, 3726, 3780] := by
    unfold Sampled
    decide
  apply (oneWalkPerMinute_iff polarClock startedSched_has rfl rfl hts).mpr
  rintro now ⟨⟩
  decide

/-- The minute from 01:00:00 on has no walk. -/
theorem firstMinute_skipped : Sampled [3600, 3606, 3612] ∧
    ¬ OneWalkPerMinute polarClock startedSched [3600, 3606, 3612] := by
  have hts : Sampled [3600, 3606, 3612] := by
    unfold Sampled
    decide
  refine ⟨hts, fun hone => ?_⟩
  have hone := (oneWalk_iff_times polarClock startedSched_has _).mp hone 3600 List.mem_cons_self
  have hnone := firstMinute_passed polarClock (t := { Timetable.initial with enabled := true }) rfl
    rfl hts
  rw [hone] at hnone
  cases hnone

end XplEvent.Scheduler
