import Mathlib.Algebra.GroupWithZero.Nat
import Mathlib.Data.List.DropRight
import XplEvent.Scheduler.Startup

/-!
# Reloading the schedule

The list is replaced by stopping the scheduler, removing all entries,
adding the new ones and starting it again. Whatever the order of the calls
is, the list is what was added since it was last emptied, a stopped
scheduler executes nothing, and neither the remembered minute nor the flag
of the startup commands is lost on the way.
-/

namespace XplEvent.Scheduler

open Lib (run EachStep)

/-! ## What the calls ask for -/

/-- The entry that a call adds. -/
def Step.added : Step → Option SchedEntry
  | .SchedulerAdd _ entryName cronExp exec execParam =>
    some (newEntry entryName cronExp exec execParam)
  | _ => none

/-- The entries added since the last removal, in order of addition. -/
def addedSinceRemoval (steps : List Step) : List SchedEntry :=
  (steps.rtakeWhile (· ≠ .SchedulerRemoveAllEntries)).filterMap Step.added

/-- What a call switches the scheduler to. -/
def Step.switch : Step → Option Bool
  | .SchedulerStart _ => some true
  | .SchedulerStop => some false
  | _ => none

/-- The scheduler was started, and has not been stopped since. -/
def startedLast (steps : List Step) : Bool := (steps.filterMap Step.switch).getLast?.getD false

/-- The polls show one minute. -/
def OneMinute (clock : Clock) (steps : List Step) (minute : Int) : Prop :=
  ∀ now, .SchedulerDo now ∈ steps → (clock.localtime_r now).tm_min = minute

/-- The number of times that startup commands have been executed. -/
def startupRuns (walks : List Walk) : Nat :=
  (walks.map fun w => (w.visits.map fun v => if v.1.isStartup then v.2.length else 0).sum).sum

/-- **The schedule over reloads**: behind the calls the list is that of the
entries added since the last removal; if the scheduler is stopped, no call
walks; calls that show the same minute walk once at most; and the startup
commands have been executed once at most. -/
structure KeepsSchedule (clock : Clock) (steps : List Step) (walks : List Walk)
    (sch : SchedInfo) : Prop where
  list : sch.Describes (addedSinceRemoval steps)
  stopped : startedLast steps = false → ∀ s, (step clock sch s).1 = []
  once : ∀ more minute, EachStep (step clock) Allocates sch more → OneMinute clock more minute →
    (run (step clock) sch more).1.length ≤ 1
  startup : startupRuns walks ≤ 1

/-! ## The list and the switch -/

theorem addedSinceRemoval_concat (steps : List Step) (s : Step) :
    addedSinceRemoval (steps ++ [s]) =
      if s = .SchedulerRemoveAllEntries then [] else addedSinceRemoval steps ++ s.added.toList := by
  unfold addedSinceRemoval
  by_cases hremoval : s = .SchedulerRemoveAllEntries
  · rw [if_pos hremoval, List.rtakeWhile_concat_neg]
    · rfl
    · rw [decide_eq_true_iff]
      exact not_not_intro hremoval
  · rw [if_neg hremoval, List.rtakeWhile_concat_pos, List.filterMap_append]
    · cases hs : s.added with
      | none =>
        rw [List.filterMap_cons_none hs]
        rfl
      | some l =>
        rw [List.filterMap_cons_some hs]
        rfl
    · exact decide_eq_true hremoval

theorem startedLast_concat (steps : List Step) (s : Step) :
    startedLast (steps ++ [s]) = s.switch.getD (startedLast steps) := by
  unfold startedLast
  rw [List.filterMap_append]
  cases hs : s.switch with
  | none =>
    rw [List.filterMap_cons_none hs, List.filterMap_nil, List.append_nil]
    rfl
  | some on =>
    rw [List.filterMap_cons_some hs, List.filterMap_nil, List.getLast?_append]
    rfl

theorem Timetable.run_concat (clock : Clock) (t : Timetable) (steps : List Step) (s : Step) :
    (t.run clock (steps ++ [s])).2 = ((t.run clock steps).2.step clock s).2 := by
  rw [Timetable.run_append]
  rfl

theorem step_entries (clock : Clock) (t : Timetable) (s : Step) : (t.step clock s).2.entries =
    if s = .SchedulerRemoveAllEntries then [] else t.entries ++ s.added.toList := by
  cases s with
  | SchedulerAdd l entryName cronExp exec execParam => rfl
  | SchedulerRemoveAllEntries => rfl
  | SchedulerStart now => exact (List.append_nil _).symm
  | SchedulerStop => exact (List.append_nil _).symm
  | SchedulerDo now =>
    rw [if_neg nofun, show (Step.SchedulerDo now).added.toList = [] from rfl, List.append_nil]
    rw [Timetable.step]
    split
    · rfl
    · rfl

theorem step_enabled (clock : Clock) (t : Timetable) (s : Step) :
    (t.step clock s).2.enabled = s.switch.getD t.enabled := by
  cases s with
  | SchedulerAdd l entryName cronExp exec execParam => rfl
  | SchedulerRemoveAllEntries => rfl
  | SchedulerStart now => rfl
  | SchedulerStop => rfl
  | SchedulerDo now =>
    rw [Timetable.step]
    split
    · rfl
    · rfl

/-- **The list is that of the entries added since the last removal.** -/
theorem run_entries (clock : Clock) (steps : List Step) :
    (Timetable.initial.run clock steps).2.entries = addedSinceRemoval steps := by
  induction steps using List.reverseRecOn with
  | nil => rfl
  | append_singleton steps s ih =>
    rw [Timetable.run_concat, step_entries, ih, addedSinceRemoval_concat]

/-- **The scheduler runs exactly if** it was started last. -/
theorem run_enabled (clock : Clock) (steps : List Step) :
    (Timetable.initial.run clock steps).2.enabled = startedLast steps := by
  induction steps using List.reverseRecOn with
  | nil => rfl
  | append_singleton steps s ih =>
    rw [Timetable.run_concat, step_enabled, ih, startedLast_concat]

/-- A stopped timetable makes no walk. -/
theorem stopped_silent {t : Timetable} (h : t.enabled = false) (clock : Clock) (s : Step) :
    (t.step clock s).1 = [] := by
  rcases t.step_cases clock s with ⟨-, hlog, -⟩ | ⟨now, -, ⟨hon, -⟩, -⟩
  · exact hlog
  · rw [h] at hon
    cases hon

/-! ## One minute -/

theorem OneMinute.behind {clock : Clock} {s : Step} {steps : List Step} {minute : Int}
    (h : OneMinute clock (s :: steps) minute) : OneMinute clock steps minute :=
  fun now hnow => h now (List.mem_cons_of_mem s hnow)

/-- In the minute of the last walk there is no other. -/
theorem sameMinute_silent {clock : Clock} {t : Timetable} {steps : List Step} {minute : Int}
    (hprev : t.tmPrevNow.tm_min = minute) (h : OneMinute clock steps minute) :
    (t.run clock steps).1 = [] := by
  induction steps generalizing t with
  | nil => rfl
  | cons s steps ih =>
    rw [Timetable.run_cons]
    rcases t.step_cases clock s with ⟨-, hlog, -, hsame⟩ | ⟨now, rfl, ⟨-, hother⟩, -⟩
    · rw [hlog, List.nil_append]
      apply ih
      · rw [hsame]
        exact hprev
      · exact h.behind
    · have hmin := h now List.mem_cons_self
      exact absurd (hmin.trans hprev.symm) hother

/-- **Calls that show one minute walk once at most**, whatever is between
the polls. -/
theorem oneMinute_once {clock : Clock} (t : Timetable) {steps : List Step} {minute : Int}
    (h : OneMinute clock steps minute) : (t.run clock steps).1.length ≤ 1 := by
  induction steps generalizing t with
  | nil => exact Nat.zero_le 1
  | cons s steps ih =>
    rw [Timetable.run_cons]
    rcases t.step_cases clock s with ⟨-, hlog, -⟩ | ⟨now, rfl, -, hstep⟩
    · rw [hlog, List.nil_append]
      exact ih _ h.behind
    · rw [hstep]
      have hmin : (t.walked clock now).tmPrevNow.tm_min = minute := h now List.mem_cons_self
      rw [sameMinute_silent hmin h.behind, List.append_nil]
      exact Nat.le_refl 1

/-! ## The startup commands -/

/-- What a walk executes of the startup commands shows in the flag. -/
theorem walkEntries_startup (startupRan : Bool) (sun : SunTimes) (tmNow : Tm)
    (entries : List SchedEntry) :
    startupRan.toNat + ((walkEntries startupRan sun tmNow entries).map fun v =>
      if v.1.isStartup then v.2.length else 0).sum =
        (startupRan || entries.any SchedEntry.isStartup).toNat := by
  induction entries generalizing startupRan with
  | nil => rw [List.any_nil, Bool.or_false, walkEntries, List.map_nil, List.sum_nil, Nat.add_zero]
  | cons l entries ih =>
    have hbehind := ih (startupRan || l.isStartup)
    rw [walkEntries, List.map_cons, List.sum_cons, List.any_cons, ← Bool.or_assoc, ← hbehind,
      ← Nat.add_assoc]
    congr 1
    cases hl : l.isStartup with
    | false =>
      rw [Bool.or_false]
      rfl
    | true =>
      rw [entryCalls_startup hl]
      cases startupRan with
      | false => rfl
      | true => rfl

theorem startupRuns_append (walks walks' : List Walk) :
    startupRuns (walks ++ walks') = startupRuns walks + startupRuns walks' := by
  unfold startupRuns
  rw [List.map_append, List.sum_append]

theorem step_startup (clock : Clock) (t : Timetable) (s : Step) :
    t.startupRan.toNat + startupRuns (t.step clock s).1 =
      (t.step clock s).2.startupRan.toNat := by
  rcases t.step_cases clock s with ⟨-, hlog, hsame, -⟩ | ⟨now, rfl, -, hstep⟩
  · rw [hlog, hsame]
    rfl
  · rw [hstep]
    have hwalk := walkEntries_startup t.startupRan (sunAt clock now t.sun) (clock.localtime_r now)
      t.entries
    exact hwalk

/-- **The flag counts how often startup commands are executed.** -/
theorem run_startup (clock : Clock) (t : Timetable) (steps : List Step) :
    t.startupRan.toNat + startupRuns (t.run clock steps).1 =
      (t.run clock steps).2.startupRan.toNat := by
  induction steps generalizing t with
  | nil => rfl
  | cons s steps ih =>
    calc t.startupRan.toNat + startupRuns (t.run clock (s :: steps)).1
        = t.startupRan.toNat + startupRuns (t.step clock s).1 +
            startupRuns ((t.step clock s).2.run clock steps).1 := by
          rw [Timetable.run_cons, startupRuns_append, Nat.add_assoc]
      _ = (t.step clock s).2.startupRan.toNat +
            startupRuns ((t.step clock s).2.run clock steps).1 := by rw [step_startup]
      _ = ((t.step clock s).2.run clock steps).2.startupRan.toNat := ih _
      _ = (t.run clock (s :: steps)).2.startupRan.toNat := rfl

/-! ## Every order of the calls -/

/-- **The schedule is kept over reloads**: no sequence of calls fails, and
whatever it is, the list, the switch, the minute and the startup commands
are as they should be behind it. -/
theorem reload_keepsSchedule (clock : Clock) {steps : List Step}
    (halloc : EachStep (step clock) Allocates SchedulerInit steps) :
    ∃ walks sch, run (step clock) SchedulerInit steps = (walks, .ok sch) ∧
      KeepsSchedule clock steps walks sch := by
  obtain ⟨sch, hrun, hhas⟩ := run_has init_has halloc
  refine ⟨_, sch, hrun, ?_, ?_, ?_, ?_⟩
  · rw [← run_entries clock steps]
    exact hhas.list
  · intro hstopped s
    rw [← run_enabled clock steps] at hstopped
    rw [step_log hhas]
    exact stopped_silent hstopped clock s
  · intro more minute hmore hminute
    obtain ⟨sch', hrun', -⟩ := run_has hhas hmore
    rw [hrun']
    exact oneMinute_once _ hminute
  · have hflag := run_startup clock Timetable.initial steps
    rw [show Timetable.initial.startupRan.toNat = 0 from rfl, Nat.zero_add] at hflag
    rw [hflag]
    exact Bool.toNat_le _

/-- A reload between two polls of the minute 01:01. -/
def reloading : List Step :=
  [addStartup 1, .SchedulerStart 3660, .SchedulerDo 3660, .SchedulerStop,
    .SchedulerRemoveAllEntries, addStartup 1, .SchedulerStart 3666, .SchedulerDo 3666]

theorem reload_sample : ∃ walks sch,
    run (step polarClock.toClock) SchedulerInit reloading = (walks, .ok sch) ∧
      KeepsSchedule polarClock.toClock reloading walks sch := by
  apply reload_keepsSchedule
  unfold reloading
  exact ⟨rfl, trivial, trivial, trivial, trivial, rfl, trivial, trivial, trivial⟩

end XplEvent.Scheduler
