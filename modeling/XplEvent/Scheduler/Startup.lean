import XplEvent.Scheduler.Minutes

/-!
# Startup commands

The entries of a list do not touch each other but for one flag: the first
startup command that a walk comes to sets it and is executed, and those
behind it find it set. It is an entry that sets the flag and not the walk:
where the first list has no startup command, a list that is loaded later
has its own executed.
-/

namespace XplEvent.Scheduler

open Lib (run EachStep)

/-! ## A walk over the list -/

/-- A list of visits is as if each entry were alone in the list;
`walkedBefore` says if there has been a walk before. -/
def EachAlone (walkedBefore : Bool) (sun : SunTimes) (tmNow : Tm)
    (visits : List (SchedEntry × List SchedCall)) : Prop :=
  ∀ v ∈ visits, v.2 = entryCalls walkedBefore sun tmNow v.1

/-- The number of the startup commands of a list. -/
def startupCount (entries : List SchedEntry) : Nat := entries.countP SchedEntry.isStartup

theorem startupCount_cons (l : SchedEntry) (entries : List SchedEntry) :
    startupCount (l :: entries) = startupCount entries + if l.isStartup then 1 else 0 :=
  List.countP_cons

theorem eachAlone_cons (walkedBefore : Bool) (sun : SunTimes) (tmNow : Tm)
    (v : SchedEntry × List SchedCall) (visits : List (SchedEntry × List SchedCall)) :
    EachAlone walkedBefore sun tmNow (v :: visits) ↔
      v.2 = entryCalls walkedBefore sun tmNow v.1 ∧ EachAlone walkedBefore sun tmNow visits :=
  List.forall_mem_cons

/-- With the flag set a walk is no first walk. -/
theorem eachAlone_ran (sun : SunTimes) (tmNow : Tm) (entries : List SchedEntry) :
    EachAlone true sun tmNow (walkEntries true sun tmNow entries) := by
  induction entries with
  | nil => exact fun v hv => absurd hv List.not_mem_nil
  | cons l entries ih =>
    rw [walkEntries, eachAlone_cons]
    exact ⟨rfl, ih⟩

/-- Where the flag is not what the walks before make it, each startup
command shows that. -/
theorem eachAlone_differs {startupRan walkedBefore : Bool} (hne : startupRan ≠ walkedBefore)
    (sun : SunTimes) (tmNow : Tm) (entries : List SchedEntry) :
    EachAlone walkedBefore sun tmNow (walkEntries startupRan sun tmNow entries) ↔
      startupCount entries = 0 := by
  induction entries with
  | nil => exact iff_of_true (fun v hv => absurd hv List.not_mem_nil) rfl
  | cons l entries ih =>
    rw [walkEntries, eachAlone_cons, startupCount_cons]
    cases hl : l.isStartup with
    | false =>
      rw [Bool.or_false, ih]
      exact and_iff_right (entryCalls_other hl startupRan walkedBefore sun tmNow)
    | true =>
      refine iff_of_false ?_ (Nat.succ_ne_zero _)
      rintro ⟨hcalls, -⟩
      rw [entryCalls_startup hl, entryCalls_startup hl] at hcalls
      cases startupRan with
      | false =>
        cases walkedBefore with
        | false => exact hne rfl
        | true => cases hcalls
      | true =>
        cases walkedBefore with
        | false => cases hcalls
        | true => exact hne rfl

/-- **The first walk is as it should be exactly if** it comes to one
startup command at most. -/
theorem eachAlone_first (sun : SunTimes) (tmNow : Tm) (entries : List SchedEntry) :
    EachAlone false sun tmNow (walkEntries false sun tmNow entries) ↔ startupCount entries ≤ 1 := by
  induction entries with
  | nil => exact iff_of_true (fun v hv => absurd hv List.not_mem_nil) (Nat.zero_le 1)
  | cons l entries ih =>
    rw [walkEntries, eachAlone_cons, startupCount_cons, and_iff_right rfl]
    cases hl : l.isStartup with
    | false => exact ih
    | true =>
      rw [Bool.or_true, eachAlone_differs Bool.false_ne_true.symm]
      exact (Nat.add_le_add_iff_right (n := 1)).trans Nat.le_zero |>.symm

/-! ## The walks of a run -/

/-- A walk as if each entry were alone. -/
def Walk.Alone (walkedBefore : Bool) (w : Walk) : Prop :=
  EachAlone walkedBefore w.sun w.tmNow w.visits

/-- **The entries of the lists that are walked are independent**: what is
executed for one is what it asks for by itself at that time, its startup
command in the first walk only. -/
def Independent (walks : List Walk) : Prop :=
  (∀ w, walks.head? = some w → w.Alone false) ∧ ∀ w ∈ walks.tail, w.Alone true

/-- The list that a step walks, if it makes a walk. -/
def Timetable.listWalked (t : Timetable) (clock : Clock) : Step → List (List SchedEntry)
  | .SchedulerDo now => if t.Walks clock now then [t.entries] else []
  | _ => []

/-- The lists that are walked, as they are at the time of the walk. -/
def Timetable.listsWalked (clock : Clock) : Timetable → List Step → List (List SchedEntry)
  | _, [] => []
  | t, s :: steps => t.listWalked clock s ++ Timetable.listsWalked clock (t.step clock s).2 steps

/-- There is one startup command at most in the first list, and if there is
none, there is none in a later one. -/
def StartupOnce : List (List SchedEntry) → Prop
  | [] => True
  | first :: later => startupCount first ≤ 1 ∧
    (startupCount first = 0 → ∀ entries ∈ later, startupCount entries = 0)

/-- A step adds a walk and its list, or neither. -/
theorem walks_cases (clock : Clock) (t : Timetable) (s : Step) (steps : List Step) :
    ((t.step clock s).2.startupRan = t.startupRan ∧
      (t.run clock (s :: steps)).1 = ((t.step clock s).2.run clock steps).1 ∧
      t.listsWalked clock (s :: steps) = (t.step clock s).2.listsWalked clock steps) ∨
    ∃ now, (t.run clock (s :: steps)).1 =
        t.walk clock now :: ((t.walked clock now).run clock steps).1 ∧
      t.listsWalked clock (s :: steps) =
        t.entries :: (t.walked clock now).listsWalked clock steps := by
  rw [Timetable.run_cons, Timetable.listsWalked]
  rcases t.step_cases clock s with ⟨hskips, hlog, hran, -⟩ | ⟨now, rfl, hwalks, hstep⟩
  · have hnone : t.listWalked clock s = [] := by
      unfold Timetable.listWalked
      split
      · rw [if_neg (hskips _ rfl)]
      · rfl
    rw [hlog, hnone]
    exact .inl ⟨hran, rfl, rfl⟩
  · rw [hstep, Timetable.listWalked, if_pos hwalks]
    exact .inr ⟨now, rfl, rfl⟩

/-- A list sets the flag if it has a startup command. -/
theorem any_isStartup {entries : List SchedEntry} :
    entries.any SchedEntry.isStartup = false ↔ startupCount entries = 0 := by
  rw [List.any_eq_false, startupCount, List.countP_eq_zero]

/-- With the flag set all walks are as later ones should be. -/
theorem later_alone (clock : Clock) {t : Timetable} (hran : t.startupRan = true)
    (steps : List Step) : ∀ w ∈ (t.run clock steps).1, w.Alone true := by
  induction steps generalizing t with
  | nil => exact fun w hw => absurd hw List.not_mem_nil
  | cons s steps ih =>
    rcases walks_cases clock t s steps with ⟨hsame, hlog, -⟩ | ⟨now, hlog, -⟩
    · rw [hlog]
      exact ih (hsame.trans hran)
    · rw [hlog, List.forall_mem_cons]
      refine ⟨?_, ih ?_⟩
      · unfold Walk.Alone Timetable.walk
        rw [hran]
        exact eachAlone_ran _ _ t.entries
      · rw [Timetable.walked, hran, Bool.true_or]

/-- **Without the flag all walks are as later ones should be exactly if** no
list has a startup command. -/
theorem later_alone_iff (clock : Clock) {t : Timetable} (hran : t.startupRan = false)
    (steps : List Step) : (∀ w ∈ (t.run clock steps).1, w.Alone true) ↔
      ∀ entries ∈ t.listsWalked clock steps, startupCount entries = 0 := by
  induction steps generalizing t with
  | nil =>
    refine iff_of_true (fun w hw => absurd hw List.not_mem_nil) ?_
    exact fun entries hentries => absurd hentries List.not_mem_nil
  | cons s steps ih =>
    rcases walks_cases clock t s steps with ⟨hsame, hlog, hlists⟩ | ⟨now, hlog, hlists⟩
    · rw [hlog, hlists]
      exact ih (hsame.trans hran)
    · have hwalk : (t.walk clock now).Alone true ↔ startupCount t.entries = 0 := by
        unfold Walk.Alone Timetable.walk
        rw [hran]
        exact eachAlone_differs Bool.false_ne_true _ _ t.entries
      rw [hlog, hlists, List.forall_mem_cons, List.forall_mem_cons, hwalk]
      refine and_congr_right fun hnone => ih ?_
      rw [Timetable.walked, hran, Bool.false_or]
      exact any_isStartup.mpr hnone

/-- **The walks are independent exactly if** there is no second startup
command. -/
theorem walks_independent_iff (clock : Clock) {t : Timetable} (hran : t.startupRan = false)
    (steps : List Step) :
    Independent (t.run clock steps).1 ↔ StartupOnce (t.listsWalked clock steps) := by
  induction steps generalizing t with
  | nil =>
    refine iff_of_true ⟨?_, fun w hw => absurd hw List.not_mem_nil⟩ trivial
    rintro w ⟨⟩
  | cons s steps ih =>
    rcases walks_cases clock t s steps with ⟨hsame, hlog, hlists⟩ | ⟨now, hlog, hlists⟩
    · rw [hlog, hlists]
      exact ih (hsame.trans hran)
    · have hwalk : (t.walk clock now).Alone false ↔ startupCount t.entries ≤ 1 := by
        unfold Walk.Alone Timetable.walk
        rw [hran]
        exact eachAlone_first _ _ t.entries
      have hhead : (∀ w, (t.walk clock now :: ((t.walked clock now).run clock steps).1).head? =
          some w → w.Alone false) ↔ startupCount t.entries ≤ 1 := by
        rw [← hwalk]
        constructor
        · intro h
          exact h _ rfl
        · rintro h w ⟨⟩
          exact h
      rw [hlog, hlists, Independent, StartupOnce, hhead, List.tail_cons]
      refine and_congr_right fun _ => ?_
      have hflag : (t.walked clock now).startupRan = t.entries.any SchedEntry.isStartup := by
        rw [Timetable.walked, hran, Bool.false_or]
      cases hany : t.entries.any SchedEntry.isStartup with
      | false =>
        rw [any_isStartup.mp hany, later_alone_iff clock (hflag.trans hany)]
        constructor
        · exact fun h _ => h
        · exact fun h => h rfl
      | true =>
        have hsome : startupCount t.entries ≠ 0 := by
          intro hnone
          rw [any_isStartup.mpr hnone] at hany
          cases hany
        exact iff_of_true (later_alone clock (hflag.trans hany) steps) fun h => absurd h hsome

/-- The scheduler, from its start on, executes the entries independently
and does not fail. -/
def RunsIndependently (clock : Clock) (steps : List Step) : Prop :=
  ∃ walks sch', run (step clock) SchedulerInit steps = (walks, .ok sch') ∧ Independent walks

/-- **The entries are independent exactly when** the first list that is
walked has one startup command at most, and has one if a later list does. -/
theorem runsIndependently_iff (clock : Clock) {steps : List Step}
    (halloc : EachStep (step clock) Allocates SchedulerInit steps) :
    RunsIndependently clock steps ↔ StartupOnce (Timetable.initial.listsWalked clock steps) := by
  exact (run_walks_iff init_has halloc Independent).trans (walks_independent_iff clock rfl steps)

/-- A startup command is added at the address. -/
def addStartup (l : Addr) : Step := .SchedulerAdd l (cstr "entry") (cstr "@startup") l []

/-- Polls at 01:01 and 01:02. -/
def twoPolls : List Step := [.SchedulerStart 3660, .SchedulerDo 3660, .SchedulerDo 3720]

theorem oneStartup_independent : RunsIndependently polarClock.toClock (addStartup 1 :: twoPolls) := by
  apply (runsIndependently_iff polarClock.toClock _).mpr
  · refine ⟨Nat.le_refl 1, fun hnone => ?_⟩
    exact absurd hnone Nat.one_ne_zero
  · exact ⟨rfl, trivial, trivial, trivial, trivial⟩

/-- Of two startup commands the second is not executed in the first walk. -/
theorem secondStartup_not_executed :
    EachStep (step polarClock.toClock) Allocates SchedulerInit
      (addStartup 1 :: addStartup 2 :: twoPolls) ∧
    ¬ RunsIndependently polarClock.toClock (addStartup 1 :: addStartup 2 :: twoPolls) := by
  have halloc : EachStep (step polarClock.toClock) Allocates SchedulerInit
      (addStartup 1 :: addStartup 2 :: twoPolls) := ⟨rfl, rfl, trivial, trivial, trivial, trivial⟩
  refine ⟨halloc, ?_⟩
  intro hindependent
  have hwalks := (run_walks_iff init_has halloc Independent).mp hindependent
  have hsecond := (eachAlone_first _ _ _).mp (hwalks.1 _ rfl)
  exact absurd hsecond (by decide)

end XplEvent.Scheduler
