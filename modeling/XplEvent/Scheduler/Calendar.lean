import XplEvent.Scheduler.Walk

/-!
# What cron expressions mean

An entry is due when the minute, the hour, the day, the month and the day
of the week all satisfy its fields, the months numbered from 1 as in the
calendar. The scheduler holds the field of the month against `tm_mon`,
which counts from 0. An entry whose other fields match is then called in
the month behind the ones it names.
-/

namespace XplEvent.Scheduler

open Util (splitWhite splitWhite_eq)

/-- An entry with an expression of five fields. -/
structure CronEntry where
  entry : SchedEntry
  fields : CronFields
  split : splitWhite entry.typeParam = .ok entry.cronSubstrs
  texts : entry.cronSubstrs = fields.list.map CronField.text
  valid : ∀ g ∈ fields.list, g.Valid

/-- The entry is due: the time satisfies its fields, with the month as in
the calendar. -/
def CronEntry.Due (e : CronEntry) (tm : Tm) : Prop := e.fields.Meets tm (tm.tm_mon + 1)

instance (e : CronEntry) (tm : Tm) : Decidable (e.Due tm) :=
  inferInstanceAs (Decidable (CronFields.Meets _ _ _))

/-- **A walk calls the entries that are due**, each once, and no others. -/
def CallsTheDue (sch : SchedInfo) (entries : List CronEntry) : Prop :=
  ∃ sch', schedulerWalk sch = .ok (sch', entries.map fun e =>
    (e.entry, if e.Due sch.tmNow then [e.entry.call] else []))

/-- The month field accepts the number of the month from 0 just as it
accepts the one from 1, or another field does not match. -/
def CronEntry.MonthAgrees (e : CronEntry) (tm : Tm) : Prop :=
  (e.fields.month.Accepts tm.tm_mon ↔ e.fields.month.Accepts (tm.tm_mon + 1)) ∨
  ¬ (e.fields.minute.Accepts tm.tm_min ∧ e.fields.hour.Accepts tm.tm_hour ∧
    e.fields.mday.Accepts tm.tm_mday ∧ e.fields.wday.Accepts tm.tm_wday)

/-! ## What the code calls -/

/-- A valid field begins with a digit or a star. -/
theorem text_head {f : CronField} (h : f.Valid) : ∃ c t, f.text = c :: t ∧ c ≠ 64 := by
  cases f with
  | numbers first rest =>
    obtain ⟨c, t, rfl, hc⟩ := (h first List.mem_cons_self).head
    refine ⟨c, _, rfl, ?_⟩
    rintro rfl
    exact absurd hc (by decide)
  | any => exact ⟨42, [], rfl, by decide⟩
  | every interval => exact ⟨42, _, rfl, by decide⟩

/-- Such an entry is no `@` command. -/
theorem CronEntry.not_at (e : CronEntry) : e.entry.typeParam.head? ≠ some 64 := by
  intro hat
  obtain ⟨rest, hrest⟩ := List.head?_eq_some_iff.mp hat
  have hwords := (splitWhite_eq e.entry.typeParam).symm.trans e.split
  rw [hrest, List.map_cons, show Util.blank 64 = 64 from rfl, e.texts] at hwords
  obtain ⟨w, ws, hfirst⟩ := Lib.words_cons (show (64 : CChar) ≠ 32 by decide) (rest.map Util.blank)
  rw [hfirst] at hwords
  obtain ⟨c, t, htext, hc⟩ := text_head (e.valid e.fields.minute List.mem_cons_self)
  have hminute := (List.cons.inj (Except.ok.inj hwords)).1
  rw [htext] at hminute
  exact hc (List.cons.inj hminute).1.symm

theorem CronEntry.not_startup (e : CronEntry) : e.entry.isStartup = false := by
  refine Bool.eq_false_iff.mpr fun hstartup => e.not_at ?_
  rw [of_decide_eq_true hstartup]
  rfl

/-- The calls that are made for an entry. -/
theorem CronEntry.calls (e : CronEntry) (startupRan : Bool) (sun : SunTimes) (tm : Tm) :
    entryCalls startupRan sun tm e.entry =
      if e.fields.Meets tm tm.tm_mon then [e.entry.call] else [] := by
  obtain ⟨n, hn, hfive⟩ := cronMatchCount_iff e.valid tm
  unfold entryCalls walkEntry
  rw [if_neg e.not_at, e.texts]
  simp only [hn, ok_bind, hfive]
  rfl

/-- Without startup commands a walk is a walk over each entry alone. -/
theorem walkEntries_eq_map {entries : List SchedEntry} (h : ∀ l ∈ entries, l.isStartup = false)
    (startupRan : Bool) (sun : SunTimes) (tm : Tm) : walkEntries startupRan sun tm entries =
      entries.map fun l => (l, entryCalls startupRan sun tm l) := by
  induction entries with
  | nil => rfl
  | cons l entries ih =>
    rw [walkEntries, h l List.mem_cons_self, Bool.or_false,
      ih fun l' hl' => h l' (List.mem_cons_of_mem l hl'), List.map_cons]

theorem calls_eq_iff {c : SchedCall} {p q : Prop} [Decidable p] [Decidable q] :
    ((if p then [c] else []) = if q then [c] else []) ↔ (p ↔ q) := by
  by_cases hp : p
  · by_cases hq : q
    · exact iff_of_true (by rw [if_pos hp, if_pos hq]) (iff_of_true hp hq)
    · rw [if_pos hp, if_neg hq]
      exact iff_of_false (List.cons_ne_nil c []) fun h => hq (h.mp hp)
  · by_cases hq : q
    · rw [if_neg hp, if_pos hq]
      exact iff_of_false (List.cons_ne_nil c []).symm fun h => hp (h.mpr hq)
    · exact iff_of_true (by rw [if_neg hp, if_neg hq]) (iff_of_false hp hq)

/-- **A walk calls the entries that are due exactly when** for each of them
the month fits either way of counting, or another field does not match. -/
theorem callsTheDue_iff {sch : SchedInfo} {entries : List CronEntry}
    (h : sch.Describes (entries.map CronEntry.entry)) :
    CallsTheDue sch entries ↔ ∀ e ∈ entries, e.MonthAgrees sch.tmNow := by
  have hnone : ∀ l ∈ entries.map CronEntry.entry, l.isStartup = false := by
    intro l hl
    obtain ⟨e, -, rfl⟩ := List.mem_map.mp hl
    exact e.not_startup
  have hvisits : walkEntries sch.startupRan sch.sun sch.tmNow (entries.map CronEntry.entry) =
      entries.map fun e => (e.entry,
        if e.fields.Meets sch.tmNow sch.tmNow.tm_mon then [e.entry.call] else []) := by
    rw [walkEntries_eq_map hnone, List.map_map]
    exact List.map_congr_left fun e _ => congrArg (Prod.mk e.entry) (e.calls _ _ _)
  have hcalls : CallsTheDue sch entries ↔ ∀ e ∈ entries,
      (e.fields.Meets sch.tmNow sch.tmNow.tm_mon ↔ e.Due sch.tmNow) := by
    unfold CallsTheDue
    rw [schedulerWalk_eq h, hvisits]
    constructor
    · rintro ⟨sch', heq⟩ e he
      have hpair := List.map_inj_left.mp (Prod.mk.inj (Except.ok.inj heq)).2 e he
      exact calls_eq_iff.mp (Prod.mk.inj hpair).2
    · intro hall
      refine ⟨_, congrArg (fun visits => Except.ok (_, visits)) (List.map_inj_left.mpr ?_)⟩
      intro e he
      exact congrArg (Prod.mk e.entry) (calls_eq_iff.mpr (hall e he))
  rw [hcalls]
  refine forall₂_congr fun e _ => ?_
  unfold CronEntry.Due CronFields.Meets CronEntry.MonthAgrees
  tauto

/-- An entry for the first minute of the first day of the months. -/
def monthlyEntry (month : CronField) (typeParam : CString)
    (htexts : Lib.words 32 (typeParam.map Util.blank) =
      [cstr "0", cstr "0", cstr "1", month.text, cstr "*"]) (hvalid : month.Valid) : CronEntry where
  entry := newEntry (cstr "entry") typeParam 0 []
  fields := ⟨.numbers (cstr "0") [], .numbers (cstr "0") [], .numbers (cstr "1") [], month, .any⟩
  split := splitWhite_eq typeParam
  texts := htexts
  valid := by
    intro g hg
    simp only [CronFields.list, List.mem_cons, List.not_mem_nil, or_false] at hg
    rcases hg with rfl | rfl | rfl | rfl | rfl
    · decide
    · decide
    · decide
    · exact hvalid
    · trivial

/-- A scheduler with one entry, at the first minute of January. -/
def januarySched (l : SchedEntry) : SchedInfo :=
  { SchedulerInit with
    head := some 1
    tail := some 1
    listContext := [(1, ⟨SE_MAGIC, l, none, none⟩)]
    tmNow := ⟨0, 0, 1, 0, 4⟩ }

theorem januarySched_describes (l : SchedEntry) : (januarySched l).Describes [l] where
  magic := rfl
  links := ⟨[(1, ⟨SE_MAGIC, l, none, none⟩)], ⟨rfl, rfl, rfl, rfl⟩, rfl, List.nodup_singleton 1, rfl⟩

/-- `0 0 1 * *`. -/
def everyMonth : CronEntry := monthlyEntry .any (cstr "0 0 1 * *") (by decide) trivial

/-- `0 0 1 1 *`. -/
def everyJanuary : CronEntry :=
  monthlyEntry (.numbers (cstr "1") []) (cstr "0 0 1 1 *") (by decide) (by decide)

theorem everyMonth_called : CallsTheDue (januarySched everyMonth.entry) [everyMonth] := by
  apply (callsTheDue_iff (januarySched_describes everyMonth.entry)).mpr
  intro e he
  rw [List.mem_singleton.mp he]
  exact .inl (iff_of_true trivial trivial)

/-- In January the entry of January is not called. -/
theorem everyJanuary_not_called :
    (januarySched everyJanuary.entry).Describes [everyJanuary.entry] ∧
    everyJanuary.Due (januarySched everyJanuary.entry).tmNow ∧
    ¬ CallsTheDue (januarySched everyJanuary.entry) [everyJanuary] := by
  have hwalk : schedulerWalk (januarySched everyJanuary.entry) =
      .ok (januarySched everyJanuary.entry, [(everyJanuary.entry, [])]) := rfl
  refine ⟨januarySched_describes everyJanuary.entry, by decide, ?_⟩
  rintro ⟨sch', heq⟩
  rw [hwalk] at heq
  exact absurd (Prod.mk.inj (Except.ok.inj heq)).2 (by decide)

end XplEvent.Scheduler
