import XplEvent.Scheduler.Walk

/-!
# The scheduler as a timetable

What the scheduler is for can be said without addresses: it has a list of
entries, it is running or not, and it remembers the minute of its last
walk. A timetable is that, and every run of the scheduler is a run of its
timetable, with the same walks.
-/

namespace XplEvent.Scheduler

open Lib (run EachStep)

/-- A scheduler without addresses. -/
structure Timetable where
  entries : List SchedEntry
  enabled : Bool
  startupRan : Bool
  sun : SunTimes
  tmPrevNow : Tm

/-- The times of the sun that a walk reads. -/
def sunAt (clock : Clock) (now : Int) (sun : SunTimes) : SunTimes :=
  let tmNow := clock.localtime_r now
  if tmNow.tm_hour = 0 ∧ tmNow.tm_min = 0 then clock.calcDawnDusk now sun else sun

/-- The walk of a timetable. -/
def Timetable.walk (t : Timetable) (clock : Clock) (now : Int) : Walk :=
  let tmNow := clock.localtime_r now
  ⟨now, tmNow, sunAt clock now t.sun,
    walkEntries t.startupRan (sunAt clock now t.sun) tmNow t.entries⟩

/-- A poll walks: the timetable is enabled and the minute another than at
the last walk. -/
def Timetable.Walks (t : Timetable) (clock : Clock) (now : Int) : Prop :=
  t.enabled = true ∧ (clock.localtime_r now).tm_min ≠ t.tmPrevNow.tm_min

instance (t : Timetable) (clock : Clock) (now : Int) : Decidable (t.Walks clock now) :=
  inferInstanceAs (Decidable (_ ∧ _))

/-- A timetable behind a poll that walks. -/
def Timetable.walked (t : Timetable) (clock : Clock) (now : Int) : Timetable :=
  { t with
    sun := sunAt clock now t.sun
    startupRan := t.startupRan || t.entries.any SchedEntry.isStartup
    tmPrevNow := clock.localtime_r now }

/-- A step of a timetable. -/
def Timetable.step (clock : Clock) (t : Timetable) : Step → List Walk × Timetable
  | .SchedulerAdd _ entryName cronExp exec execParam =>
    ([], { t with entries := t.entries ++ [newEntry entryName cronExp exec execParam] })
  | .SchedulerRemoveAllEntries => ([], { t with entries := [] })
  | .SchedulerStart now => ([], { t with sun := clock.calcDawnDusk now t.sun, enabled := true })
  | .SchedulerStop => ([], { t with enabled := false })
  | .SchedulerDo now =>
    if t.Walks clock now then ([t.walk clock now], t.walked clock now) else ([], t)

/-- The run of a timetable. -/
def Timetable.run (clock : Clock) : Timetable → List Step → List Walk × Timetable
  | t, [] => ([], t)
  | t, s :: steps =>
    let (ws, t) := t.step clock s
    let (ws', t) := Timetable.run clock t steps
    (ws ++ ws', t)

/-- The timetable of a scheduler that has just been set up. -/
def Timetable.initial : Timetable := ⟨[], false, false, SchedulerInit.sun, .zero⟩

/-- The scheduler has the timetable. -/
structure SchedInfo.Has (sch : SchedInfo) (t : Timetable) : Prop where
  list : sch.Describes t.entries
  enabled : sch.enabled = t.enabled
  startupRan : sch.startupRan = t.startupRan
  sun : sch.sun = t.sun
  tmPrevNow : sch.tmPrevNow = t.tmPrevNow

theorem init_has : SchedulerInit.Has .initial := ⟨init_describes, rfl, rfl, rfl, rfl⟩

/-! ## The poll -/

theorem SchedulerDo_skips {sch : SchedInfo} {t : Timetable} (h : sch.Has t) {clock : Clock}
    {now : Int} (hskip : ¬ t.Walks clock now) :
    ∃ sch', SchedulerDo clock now sch = ([], .ok sch') ∧ sch'.Has t := by
  unfold SchedulerDo
  by_cases hon : sch.enabled = true
  · have hmin : (clock.localtime_r now).tm_min = sch.tmPrevNow.tm_min := by
      rw [h.tmPrevNow]
      by_contra hne
      exact hskip ⟨h.enabled.symm.trans hon, hne⟩
    rw [if_neg (not_not_intro hon), if_neg (not_not_intro h.list.magic)]
    simp only [hmin, if_true]
    exact ⟨_, rfl, ⟨h.list.magic, h.list.links⟩, h.enabled, h.startupRan, h.sun, h.tmPrevNow⟩
  · rw [if_pos hon]
    exact ⟨sch, rfl, h⟩

theorem SchedulerDo_walks {sch : SchedInfo} {t : Timetable} (h : sch.Has t) {clock : Clock}
    {now : Int} (hwalks : t.Walks clock now) :
    ∃ sch', SchedulerDo clock now sch = ([t.walk clock now], .ok sch') ∧
      sch'.Has (t.walked clock now) := by
  obtain ⟨hon, hmin⟩ := hwalks
  rw [← h.tmPrevNow] at hmin
  have hwalk : ∀ sun, schedulerWalk { sch with tmNow := clock.localtime_r now, sun := sun } = .ok
      ({ sch with
        tmNow := clock.localtime_r now
        sun := sun
        startupRan := sch.startupRan || t.entries.any SchedEntry.isStartup },
      walkEntries sch.startupRan sun (clock.localtime_r now) t.entries) := by
    intro sun
    have hlist : ({ sch with tmNow := clock.localtime_r now, sun := sun } : SchedInfo).Describes
        t.entries := ⟨h.list.magic, h.list.links⟩
    exact schedulerWalk_eq hlist
  unfold SchedulerDo Timetable.walk Timetable.walked sunAt
  rw [if_neg (not_not_intro (h.enabled.trans hon)), if_neg (not_not_intro h.list.magic)]
  simp only [hmin, if_false]
  rw [← h.sun, ← h.startupRan]
  by_cases hmidnight : (clock.localtime_r now).tm_hour = 0 ∧ (clock.localtime_r now).tm_min = 0
  · simp only [if_pos hmidnight, hwalk]
    exact ⟨_, rfl, ⟨h.list.magic, h.list.links⟩, h.enabled, rfl, rfl, rfl⟩
  · have hsun := hwalk sch.sun
    simp only [if_neg hmidnight]
    rw [show ({ sch with tmNow := clock.localtime_r now } : SchedInfo) =
      { sch with tmNow := clock.localtime_r now, sun := sch.sun } from rfl, hsun]
    exact ⟨_, rfl, ⟨h.list.magic, h.list.links⟩, h.enabled, rfl, rfl, rfl⟩

/-! ## The other calls -/

section

variable {sch : SchedInfo} (hmagic : sch.magic = SI_MAGIC)

include hmagic

theorem SchedulerRemoveAllEntries_eq : SchedulerRemoveAllEntries sch =
    .ok { sch with head := none, tail := none, listContext := [] } := by
  simp only [SchedulerRemoveAllEntries, hmagic, decide_true, ASSERT_FAIL_true, ok_bind]
  rfl

theorem SchedulerStart_eq (clock : Clock) (now : Int) : SchedulerStart clock now sch =
    .ok { sch with sun := clock.calcDawnDusk now sch.sun, enabled := true } := by
  simp only [SchedulerStart, hmagic, decide_true, ASSERT_FAIL_true, ok_bind]
  rfl

theorem SchedulerStop_eq : SchedulerStop sch = .ok { sch with enabled := false } := by
  simp only [SchedulerStop, hmagic, decide_true, ASSERT_FAIL_true, ok_bind]
  rfl

end

/-! ## The refinement -/

/-- **A step of the scheduler is a step of its timetable**, and never
fails. -/
theorem step_has {sch : SchedInfo} {t : Timetable} (h : sch.Has t) {clock : Clock} {s : Step}
    (halloc : Allocates sch s) : ∃ sch', step clock sch s = ((t.step clock s).1, .ok sch') ∧
      sch'.Has (t.step clock s).2 := by
  have hmagic := h.list.magic
  cases s with
  | SchedulerAdd l entryName cronExp exec execParam =>
    obtain ⟨head, tail, listContext, hadd, hlist⟩ :=
      SchedulerAdd_describes h.list halloc entryName cronExp exec execParam
    exact ⟨_, congrArg (Prod.mk []) hadd, hlist, h.enabled, h.startupRan, h.sun, h.tmPrevNow⟩
  | SchedulerRemoveAllEntries =>
    exact ⟨_, congrArg (Prod.mk []) (SchedulerRemoveAllEntries_eq hmagic),
      ⟨hmagic, Lib.Links.holds_nil _⟩, h.enabled, h.startupRan, h.sun, h.tmPrevNow⟩
  | SchedulerStart now =>
    exact ⟨_, congrArg (Prod.mk []) (SchedulerStart_eq hmagic clock now), ⟨hmagic, h.list.links⟩,
      rfl, h.startupRan, congrArg (clock.calcDawnDusk now) h.sun, h.tmPrevNow⟩
  | SchedulerStop =>
    exact ⟨_, congrArg (Prod.mk []) (SchedulerStop_eq hmagic), ⟨hmagic, h.list.links⟩, rfl,
      h.startupRan, h.sun, h.tmPrevNow⟩
  | SchedulerDo now =>
    by_cases hwalks : t.Walks clock now
    · obtain ⟨sch', hdo, hhas⟩ := SchedulerDo_walks h hwalks
      refine ⟨sch', ?_, ?_⟩
      · rw [Timetable.step, if_pos hwalks]
        exact hdo
      · rw [Timetable.step, if_pos hwalks]
        exact hhas
    · obtain ⟨sch', hdo, hhas⟩ := SchedulerDo_skips h hwalks
      refine ⟨sch', ?_, ?_⟩
      · rw [Timetable.step, if_neg hwalks]
        exact hdo
      · rw [Timetable.step, if_neg hwalks]
        exact hhas

/-- The walk of a step does not depend on what is allocated. -/
theorem step_log {sch : SchedInfo} {t : Timetable} (h : sch.Has t) (clock : Clock) (s : Step) :
    (step clock sch s).1 = (t.step clock s).1 := by
  cases s with
  | SchedulerAdd l entryName cronExp exec execParam => rfl
  | SchedulerRemoveAllEntries => rfl
  | SchedulerStart now => rfl
  | SchedulerStop => rfl
  | SchedulerDo now =>
    obtain ⟨sch', hdo, -⟩ := step_has h (show Allocates sch (.SchedulerDo now) from trivial)
    exact congrArg Prod.fst hdo

/-- **A run of the scheduler is a run of its timetable.** -/
theorem run_has {clock : Clock} {sch : SchedInfo} {t : Timetable} (h : sch.Has t)
    {steps : List Step} (halloc : EachStep (step clock) Allocates sch steps) :
    ∃ sch', run (step clock) sch steps = ((t.run clock steps).1, .ok sch') ∧
      sch'.Has (t.run clock steps).2 := by
  induction steps generalizing sch t with
  | nil => exact ⟨sch, rfl, h⟩
  | cons s steps ih =>
    obtain ⟨hfree, hrest⟩ := halloc
    obtain ⟨sch₁, hstep, h₁⟩ := step_has h hfree
    rw [hstep] at hrest
    obtain ⟨sch₂, hrun, h₂⟩ := ih h₁ hrest
    refine ⟨sch₂, ?_, h₂⟩
    rw [Lib.run_cons_eq hstep, hrun]
    rfl

/-- What holds of the walks of a run can be shown of its timetable's. -/
theorem run_walks_iff {clock : Clock} {sch : SchedInfo} {t : Timetable} (h : sch.Has t)
    {steps : List Step} (halloc : EachStep (step clock) Allocates sch steps)
    (P : List Walk → Prop) :
    (∃ walks sch', run (step clock) sch steps = (walks, .ok sch') ∧ P walks) ↔
      P (t.run clock steps).1 := by
  obtain ⟨sch', hrun, -⟩ := run_has h halloc
  rw [hrun]
  constructor
  · rintro ⟨walks, sch'', heq, hwalks⟩
    cases heq
    exact hwalks
  · intro hwalks
    exact ⟨_, sch', rfl, hwalks⟩

/-! ## What a step of a timetable does -/

/-- **A step walks, or it makes no walk** and leaves the minute of the last
walk and the flag of the startup commands as they are. -/
theorem Timetable.step_cases (clock : Clock) (t : Timetable) (s : Step) :
    ((∀ now, s = .SchedulerDo now → ¬ t.Walks clock now) ∧ (t.step clock s).1 = [] ∧
      (t.step clock s).2.startupRan = t.startupRan ∧
      (t.step clock s).2.tmPrevNow = t.tmPrevNow) ∨
    ∃ now, s = .SchedulerDo now ∧ t.Walks clock now ∧
      t.step clock s = ([t.walk clock now], t.walked clock now) := by
  cases s with
  | SchedulerAdd l entryName cronExp exec execParam => exact .inl ⟨nofun, rfl, rfl, rfl⟩
  | SchedulerRemoveAllEntries => exact .inl ⟨nofun, rfl, rfl, rfl⟩
  | SchedulerStart now => exact .inl ⟨nofun, rfl, rfl, rfl⟩
  | SchedulerStop => exact .inl ⟨nofun, rfl, rfl, rfl⟩
  | SchedulerDo now =>
    rw [Timetable.step]
    by_cases hwalks : t.Walks clock now
    · rw [if_pos hwalks]
      exact .inr ⟨now, rfl, hwalks, rfl⟩
    · rw [if_neg hwalks]
      refine .inl ⟨?_, rfl, rfl, rfl⟩
      rintro now' ⟨⟩
      exact hwalks

theorem Timetable.run_cons (clock : Clock) (t : Timetable) (s : Step) (steps : List Step) :
    (t.run clock (s :: steps)).1 =
      (t.step clock s).1 ++ ((t.step clock s).2.run clock steps).1 := rfl

theorem Timetable.run_append (clock : Clock) (t : Timetable) (steps steps' : List Step) :
    t.run clock (steps ++ steps') =
      ((t.run clock steps).1 ++ ((t.run clock steps).2.run clock steps').1,
        ((t.run clock steps).2.run clock steps').2) := by
  induction steps generalizing t with
  | nil => rfl
  | cons s steps ih =>
    simp only [List.cons_append, Timetable.run, ih, List.append_assoc]

end XplEvent.Scheduler
