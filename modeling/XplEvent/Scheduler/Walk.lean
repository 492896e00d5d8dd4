import Mathlib.Data.List.Perm.Subperm
import XplEvent.Scheduler.Schedule

/-!
# What a step does to the schedule

The links of the list, from head to tail, are the list of the entries that
were added; every step keeps them so and none fails. A walk comes to each
entry of the list once, in order, and leaves the scheduler as it was but
for the flag that the startup commands have run. The walk is given here as
a function of the list alone.
-/

namespace XplEvent.Scheduler

open Util (splitWhite splitWhite_eq)
open Function (update)
open Lib (lookup put)

/-! ## The list -/

/-- An entry, with its links. -/
def schedLinks : Lib.Links Addr SchedListEntry (UInt32 × SchedEntry) where
  value l := (l.magic, l.entry)
  prev l := l.prev
  next l := l.next
  setPrev l p := { l with prev := p }
  setNext l p := { l with next := p }
  value_setPrev _ _ := rfl
  prev_setPrev _ _ := rfl
  next_setPrev _ _ := rfl
  value_setNext _ _ := rfl
  prev_setNext _ _ := rfl
  next_setNext _ _ := rfl

/-- **The scheduler has a list**: its links, from head to tail, are those of
the entries. -/
structure SchedInfo.Describes (sch : SchedInfo) (entries : List SchedEntry) : Prop where
  magic : sch.magic = SI_MAGIC
  links : schedLinks.Holds sch.cell sch.head sch.tail (entries.map fun l => (SE_MAGIC, l))

theorem cell_store (sch : SchedInfo) (a : Addr) (l : SchedListEntry) :
    (sch.store a l).cell = update sch.cell a (some l) := by
  funext b
  show (lookup Prod.fst (put Prod.fst (a, l) sch.listContext) b).map Prod.snd = _
  rw [Lib.lookup_put]
  by_cases hb : b = a
  · rw [if_pos hb, hb, Function.update_self]
    rfl
  · rw [if_neg hb, Function.update_of_ne hb]
    rfl

/-- The new entry is written before and behind the write to the last
one. -/
theorem cell_store_thrice {sch : SchedInfo} {l tail : Addr} (hne : tail ≠ l)
    {new new' last : SchedListEntry} :
    (((sch.store l new).store tail last).store l new').cell =
      update (update sch.cell l (some new')) tail (some last) := by
  rw [cell_store, cell_store, cell_store, Function.update_comm hne.symm, Function.update_idem,
    Function.update_comm hne]

theorem init_describes : SchedulerInit.Describes [] := ⟨rfl, Lib.Links.holds_nil _⟩

/-- The entry that is made of the arguments of `SchedulerAdd`. -/
def newEntry (entryName cronExp : CString) (exec : Nat) (execParam : CString) : SchedEntry :=
  ⟨cronExp, entryName, execParam, Lib.words 32 (cronExp.map Util.blank), exec⟩

/-- The first entry of a list. -/
theorem SchedulerAdd_first {sch : SchedInfo} (hmagic : sch.magic = SI_MAGIC) (h : sch.head = none)
    (l : Addr) (entryName cronExp : CString) (exec : Nat) (execParam : CString) :
    SchedulerAdd l entryName cronExp exec execParam sch =
      .ok { sch.store l ⟨SE_MAGIC, newEntry entryName cronExp exec execParam, none, none⟩ with
        head := some l, tail := some l } := by
  unfold SchedulerAdd
  simp only [hmagic, decide_true, ASSERT_FAIL_true, ok_bind, splitWhite_eq, SchedInfo.store, h]
  rfl

/-- An entry behind another. -/
theorem SchedulerAdd_behind {sch : SchedInfo} (hmagic : sch.magic = SI_MAGIC) {head tail : Addr}
    (h : sch.head = some head) (ht : sch.tail = some tail) {last : SchedListEntry}
    (hlast : sch.cell tail = some last) {l : Addr} (hne : tail ≠ l) (entryName cronExp : CString)
    (exec : Nat) (execParam : CString) :
    SchedulerAdd l entryName cronExp exec execParam sch =
      .ok { ((sch.store l ⟨SE_MAGIC, newEntry entryName cronExp exec execParam, none, none⟩).store
        tail { last with next := some l }).store l
          ⟨SE_MAGIC, newEntry entryName cronExp exec execParam, none, some tail⟩ with
        tail := some l } := by
  have hcell : (sch.store l ⟨SE_MAGIC, newEntry entryName cronExp exec execParam, none, none⟩).cell
      tail = some last := by
    rw [cell_store, Function.update_of_ne hne]
    exact hlast
  have hhead : ∀ a n, (sch.store a n).head = some head := fun _ _ => h
  have htail : ∀ a n, (sch.store a n).tail = some tail := fun _ _ => ht
  unfold SchedulerAdd
  simp only [hmagic, decide_true, ASSERT_FAIL_true, ok_bind, splitWhite_eq, hhead, htail,
    deref_some]
  show (deref ((sch.store l _).cell tail) >>= _) = _
  rw [show (⟨SE_MAGIC, ⟨cronExp, entryName, execParam, Lib.words 32 (cronExp.map Util.blank),
    exec⟩, none, none⟩ : SchedListEntry) =
      ⟨SE_MAGIC, newEntry entryName cronExp exec execParam, none, none⟩ from rfl, hcell]
  rfl

/-- **An entry is put at the end of the list.** -/
theorem SchedulerAdd_describes {sch : SchedInfo} {entries : List SchedEntry}
    (h : sch.Describes entries) {l : Addr} (hl : sch.cell l = none) (entryName cronExp : CString)
    (exec : Nat) (execParam : CString) : ∃ head tail listContext,
      SchedulerAdd l entryName cronExp exec execParam sch =
        .ok { sch with head := head, tail := tail, listContext := listContext } ∧
      ({ sch with head := head, tail := tail, listContext := listContext } : SchedInfo).Describes
        (entries ++ [newEntry entryName cronExp exec execParam]) := by
  have hlinks := h.links
  have hentries : (entries ++ [newEntry entryName cronExp exec execParam]).map
      (fun l => (SE_MAGIC, l)) = entries.map (fun l => (SE_MAGIC, l)) ++
        [(SE_MAGIC, newEntry entryName cronExp exec execParam)] := List.map_append
  cases hhead : sch.head with
  | none =>
    have htail : sch.tail = none := hlinks.ends_eq_none.mp hhead
    rw [htail] at hlinks
    refine ⟨_, _, _, SchedulerAdd_first h.magic hhead l entryName cronExp exec execParam, h.magic, ?_⟩
    rw [hentries]
    have hpush := hlinks.push_first (a := l)
      (n := ⟨SE_MAGIC, newEntry entryName cronExp exec execParam, none, none⟩) rfl rfl
    rw [← cell_store] at hpush
    exact hpush
  | some head =>
    cases htail : sch.tail with
    | none =>
      have hnone := hlinks.ends_eq_none.mpr htail
      rw [hhead] at hnone
      cases hnone
    | some tail =>
      rw [htail] at hlinks
      obtain ⟨last, hlast, hne, hpush⟩ := hlinks.push hl
        (n := ⟨SE_MAGIC, newEntry entryName cronExp exec execParam, none, some tail⟩) rfl rfl
      refine ⟨_, _, _, SchedulerAdd_behind h.magic hhead htail hlast hne entryName cronExp exec
        execParam, h.magic, ?_⟩
      rw [hentries]
      rw [← cell_store_thrice hne] at hpush
      exact hpush

/-! ## The walk -/

/-- The command `@startup`. -/
def SchedEntry.isStartup (l : SchedEntry) : Bool := l.typeParam = cstr "@startup"

/-- The calls that a walk makes for an entry, by whether the startup
commands have run, the times of the sun and the time. -/
def entryCalls (startupRan : Bool) (sun : SunTimes) (tmNow : Tm) (l : SchedEntry) :
    List SchedCall :=
  match walkEntry { SchedulerInit with startupRan := startupRan, sun := sun, tmNow := tmNow } l with
  | .ok (_, calls) => calls
  | .error _ => []

/-- What a walk makes of a list: a startup command takes the flag from
those behind it. -/
def walkEntries (startupRan : Bool) (sun : SunTimes) (tmNow : Tm) :
    List SchedEntry → List (SchedEntry × List SchedCall)
  | [] => []
  | l :: entries =>
    (l, entryCalls startupRan sun tmNow l) ::
      walkEntries (startupRan || l.isStartup) sun tmNow entries

theorem isStartup_iff {l : SchedEntry} (h : l.typeParam.head? = some 64) :
    l.isStartup = true ↔ atCommands.idxOf? (l.typeParam.drop 1) = some 0 := by
  obtain ⟨rest, hrest⟩ := List.head?_eq_some_iff.mp h
  rw [SchedEntry.isStartup, decide_eq_true_iff, hrest, atCommands, List.idxOf?_cons,
    show (64 :: rest).drop 1 = rest from rfl]
  have hstartup : cstr "@startup" = 64 :: cstr "startup" := rfl
  rw [hstartup, List.cons.injEq, and_iff_right rfl]
  by_cases hs : cstr "startup" = rest
  · rw [hs, beq_self_eq_true, if_pos rfl]
    exact iff_of_true rfl rfl
  · rw [beq_false_of_ne hs, if_neg Bool.false_ne_true]
    refine iff_of_false (fun heq => hs heq.symm) fun hzero => ?_
    obtain ⟨k, -, hk⟩ := Option.map_eq_some_iff.mp hzero
    cases hk

/-- A startup command sets the flag, and is executed if it was not set. -/
theorem walkEntry_startup {l : SchedEntry} (h : l.isStartup = true) (sch : SchedInfo) :
    walkEntry sch l =
      .ok ({ sch with startupRan := true }, if sch.startupRan then [] else [l.call]) := by
  obtain ⟨typeParam, entryName, execParam, cronSubstrs, exec⟩ := l
  have htype : typeParam = cstr "@startup" := of_decide_eq_true h
  subst htype
  obtain ⟨magic, sun, enabled, startupRan, head, tail, listContext, tmNow, tmPrevNow⟩ := sch
  cases startupRan with
  | false => rfl
  | true => rfl

/-- **Another entry does not touch the scheduler**, and does not read the
flag. -/
theorem walkEntry_other {l : SchedEntry} (h : l.isStartup = false) (sch : SchedInfo)
    (startupRan : Bool) :
    walkEntry sch l = .ok (sch, entryCalls startupRan sch.sun sch.tmNow l) := by
  unfold entryCalls walkEntry
  by_cases hat : l.typeParam.head? = some 64
  · have hstartup := isStartup_iff hat
    rw [if_pos hat, if_pos hat]
    unfold cronAtCommand
    cases hidx : atCommands.idxOf? (l.typeParam.drop 1) with
    | none => rfl
    | some k =>
      match k with
      | 0 =>
        rw [hstartup.mpr hidx] at h
        cases h
      | 1 | 2 | 3 | 4 | _ + 5 => rfl
  · rw [if_neg hat, if_neg hat]
    obtain ⟨n, hn⟩ := cronFields_returns sch.tmNow l.cronSubstrs [0, 1, 2, 3, 4] 0
    rw [cronMatchCount, hn]
    rfl

theorem entryCalls_startup {l : SchedEntry} (h : l.isStartup = true) (startupRan : Bool)
    (sun : SunTimes) (tmNow : Tm) :
    entryCalls startupRan sun tmNow l = if startupRan then [] else [l.call] := by
  rw [entryCalls, walkEntry_startup h]

theorem entryCalls_other {l : SchedEntry} (h : l.isStartup = false) (startupRan startupRan' : Bool)
    (sun : SunTimes) (tmNow : Tm) :
    entryCalls startupRan sun tmNow l = entryCalls startupRan' sun tmNow l := by
  have hvisit := walkEntry_other h { SchedulerInit with sun := sun, tmNow := tmNow }
  exact (Prod.mk.inj (Except.ok.inj ((hvisit startupRan).symm.trans (hvisit startupRan')))).2

/-- **A visit** makes the calls of the entry, and sets the flag if it is a
startup command. -/
theorem walkEntry_eq (sch : SchedInfo) (l : SchedEntry) :
    walkEntry sch l = .ok ({ sch with startupRan := sch.startupRan || l.isStartup },
      entryCalls sch.startupRan sch.sun sch.tmNow l) := by
  cases hl : l.isStartup with
  | false =>
    rw [Bool.or_false]
    exact walkEntry_other hl sch sch.startupRan
  | true =>
    rw [Bool.or_true, entryCalls_startup hl]
    exact walkEntry_startup hl sch

/-- A walk along a chain is the walk over its entries, if it may go that
far. -/
theorem walkFrom_chain {cells : List (Addr × SchedListEntry)} {sch : SchedInfo}
    {before start : Option Addr} {fuel : Nat}
    (h : schedLinks.Chain sch.cell before start cells)
    (hmagic : ∀ c ∈ cells, c.2.magic = SE_MAGIC) (hfuel : cells.length ≤ fuel) :
    walkFrom fuel sch start = .ok
      ({ sch with
        startupRan := sch.startupRan || (cells.map (·.2.entry)).any SchedEntry.isStartup },
      walkEntries sch.startupRan sch.sun sch.tmNow (cells.map (·.2.entry))) := by
  induction cells generalizing sch before start fuel with
  | nil =>
    have hstart : start = none := h
    rw [hstart, List.map_nil, List.any_nil, Bool.or_false]
    cases fuel with
    | zero => rfl
    | succ fuel => rfl
  | cons c cells ih =>
    obtain ⟨a, l⟩ := c
    obtain ⟨rfl, hcell, -, hrest⟩ := h
    cases fuel with
    | zero => exact absurd hfuel (Nat.not_succ_le_zero _)
    | succ fuel =>
      have hl : l.magic = SE_MAGIC := hmagic (a, l) List.mem_cons_self
      have hrest' : schedLinks.Chain ({ sch with
          startupRan := sch.startupRan || l.entry.isStartup } : SchedInfo).cell (some a)
          (schedLinks.next l) cells := hrest
      have hbehind := ih hrest' (fun c hc => hmagic c (List.mem_cons_of_mem _ hc))
        (Nat.le_of_succ_le_succ hfuel)
      simp only [walkFrom, hcell, deref_some, ok_bind, hl, decide_true, ASSERT_FAIL_true,
        walkEntry_eq]
      show (walkFrom fuel { sch with startupRan := sch.startupRan || l.entry.isStartup } l.next >>=
        _) = _
      rw [show l.next = schedLinks.next l from rfl, hbehind, List.map_cons, List.any_cons,
        ← Bool.or_assoc]
      rfl

/-- **A walk comes to every entry of the list**, and always returns. -/
theorem schedulerWalk_eq {sch : SchedInfo} {entries : List SchedEntry}
    (h : sch.Describes entries) : schedulerWalk sch = .ok
      ({ sch with startupRan := sch.startupRan || entries.any SchedEntry.isStartup },
      walkEntries sch.startupRan sch.sun sch.tmNow entries) := by
  obtain ⟨cells, hchain, -, hnodup, hvalues⟩ := h.links
  have hcells : ∀ c ∈ cells, c.2.magic = SE_MAGIC := by
    intro c hc
    have hmem := List.mem_map_of_mem (f := fun c => schedLinks.value c.2) hc
    rw [hvalues] at hmem
    obtain ⟨l, -, hl⟩ := List.mem_map.mp hmem
    exact (congrArg Prod.fst hl).symm
  have hentries : cells.map (·.2.entry) = entries := by
    have hsnd := congrArg (List.map Prod.snd) hvalues
    rw [List.map_map, List.map_map] at hsnd
    exact hsnd.trans (List.map_id entries)
  have hfuel : cells.length ≤ sch.listContext.length := by
    have hsub : cells.map Prod.fst ⊆ sch.listContext.map Prod.fst := by
      intro a ha
      obtain ⟨c, hc, rfl⟩ := List.mem_map.mp ha
      obtain ⟨r, hr, -⟩ := Option.map_eq_some_iff.mp (hchain.allocated hc)
      rw [← Lib.lookup_key hr]
      exact List.mem_map_of_mem (Lib.lookup_mem hr)
    have hle := (List.Nodup.subperm hnodup hsub).length_le
    rw [List.length_map, List.length_map] at hle
    exact hle
  rw [schedulerWalk, walkFrom_chain hchain hcells hfuel, hentries]

end XplEvent.Scheduler
