import XplEvent.Lib.LinkedList
import XplEvent.Lib.Monitor
import XplEvent.Lib.Table
import XplEvent.Scheduler.Cron

/-!
# The scheduler

The scheduler keeps a doubly linked list of entries, each with a cron
expression or an `@` command and a function to call. It is polled by a
timer; once a minute of local time it walks the list and calls the
functions of the entries that are due. The list is replaced while the
scheduler is stopped.

What the C library says of the time and what is computed of the sun are
parameters. The entries live in one context of talloc's and are freed with
it. A walk logs the entries it comes to, each with the calls it makes.
-/

namespace XplEvent.Scheduler

open Util (splitWhite)
open Lib (lookup put)

/-- The address of an entry. -/
abbrev Addr := Nat

def SI_MAGIC : UInt32 := 0x194A6F2C

def SE_MAGIC : UInt32 := 0x8AC5E461

/-- `SchedListEntry_t` without its magic number and its links. -/
structure SchedEntry where
  typeParam : CString
  entryName : CString
  execParam : CString
  cronSubstrs : List CString
  exec : Nat
deriving DecidableEq, Repr

/-- `SchedListEntry_t`. -/
structure SchedListEntry where
  magic : UInt32
  entry : SchedEntry
  next : Option Addr
  prev : Option Addr
deriving DecidableEq, Repr

/-- The part of `SchedInfo_t` that `calcDawnDusk` writes. -/
structure SunTimes where
  dawnHour : Int
  dawnMinute : Int
  duskHour : Int
  duskMinute : Int
  sunriseHour : Int
  sunriseMinute : Int
  sunsetHour : Int
  sunsetMinute : Int
  ddValid : Bool
  ssValid : Bool
deriving DecidableEq, Repr

/-- `SchedInfo_t`. -/
structure SchedInfo where
  magic : UInt32
  sun : SunTimes
  enabled : Bool
  startupRan : Bool
  head : Option Addr
  tail : Option Addr
  /-- The entries that are allocated in the context. -/
  listContext : List (Addr × SchedListEntry)
  tmNow : Tm
  tmPrevNow : Tm
deriving DecidableEq, Repr

/-- What the scheduler reads of the time: `localtime_r`, and
`calcDawnDusk` with the times it is to replace. -/
structure Clock where
  localtime_r : Int → Tm
  calcDawnDusk : Int → SunTimes → SunTimes

/-- A call of an entry's function. -/
structure SchedCall where
  exec : Nat
  entryName : CString
  execParam : CString
deriving DecidableEq, Repr

def SchedEntry.call (l : SchedEntry) : SchedCall := ⟨l.exec, l.entryName, l.execParam⟩

/-- A walk over the list: when it was, what it read, and the entries it
came to with the calls it made for each. -/
structure Walk where
  now : Int
  tmNow : Tm
  sun : SunTimes
  visits : List (SchedEntry × List SchedCall)
deriving DecidableEq, Repr

/-! ## The list in memory -/

/-- The entry at an address. -/
def SchedInfo.cell (sch : SchedInfo) (a : Addr) : Option SchedListEntry :=
  (lookup Prod.fst sch.listContext a).map Prod.snd

/-- An entry is written. -/
def SchedInfo.store (sch : SchedInfo) (a : Addr) (l : SchedListEntry) : SchedInfo :=
  { sch with listContext := put Prod.fst (a, l) sch.listContext }

/-! ## The walk -/

def atCommands : List CString :=
  [cstr "startup", cstr "sunrise", cstr "sunset", cstr "dawn", cstr "dusk"]

/-- `cronAtCommand`. -/
def cronAtCommand (sch : SchedInfo) (l : SchedEntry) : SchedInfo × List SchedCall :=
  let at_ (valid : Bool) (hour minute : Int) : List SchedCall :=
    if valid ∧ sch.tmNow.tm_hour = hour ∧ sch.tmNow.tm_min = minute then [l.call] else []
  match atCommands.idxOf? (l.typeParam.drop 1) with
  | some 0 =>
    if ¬ sch.startupRan then ({ sch with startupRan := true }, [l.call]) else (sch, [])
  | some 1 => (sch, at_ sch.sun.ssValid sch.sun.sunriseHour sch.sun.sunriseMinute)
  | some 2 => (sch, at_ sch.sun.ssValid sch.sun.sunsetHour sch.sun.sunsetMinute)
  | some 3 => (sch, at_ sch.sun.ddValid sch.sun.dawnHour sch.sun.dawnMinute)
  | some 4 => (sch, at_ sch.sun.ddValid sch.sun.duskHour sch.sun.duskMinute)
  | _ => (sch, [])

/-- What `schedulerWalk` does at an entry. -/
def walkEntry (sch : SchedInfo) (l : SchedEntry) : Except Fault (SchedInfo × List SchedCall) :=
  if l.typeParam.head? = some 64 then .ok (cronAtCommand sch l)
  else do
    let matchCount ← cronMatchCount sch.tmNow l.cronSubstrs
    return (sch, if matchCount = 5 then [l.call] else [])

/-- The loop of `schedulerWalk` from an entry on. A list with more entries
than there are allocated would run in a circle. -/
def walkFrom : Nat → SchedInfo → Option Addr →
    Except Fault (SchedInfo × List (SchedEntry × List SchedCall))
  | _, sch, none => .ok (sch, [])
  | 0, _, some _ => .error .fatal
  | fuel + 1, sch, some a => do
    let l ← deref (sch.cell a)
    ASSERT_FAIL (l.magic = SE_MAGIC)
    let (sch, calls) ← walkEntry sch l.entry
    let (sch, visits) ← walkFrom fuel sch l.next
    return (sch, (l.entry, calls) :: visits)

/-- `schedulerWalk`. -/
def schedulerWalk (sch : SchedInfo) : Except Fault (SchedInfo × List (SchedEntry × List SchedCall)) :=
  walkFrom sch.listContext.length sch sch.head

/-! ## The functions of the interface -/

/-- `SchedulerInit`. -/
def SchedulerInit : SchedInfo where
  magic := SI_MAGIC
  sun := ⟨0, 0, 0, 0, 0, 0, 0, 0, false, false⟩
  enabled := false
  startupRan := false
  head := none
  tail := none
  listContext := []
  tmNow := .zero
  tmPrevNow := .zero

/-- `SchedulerDo` of a scheduler that has been set up, at the time `now`,
with the walk it makes. -/
def SchedulerDo (clock : Clock) (now : Int) (sch : SchedInfo) :
    List Walk × Except Fault SchedInfo :=
  if ¬ sch.enabled then ([], .ok sch)
  else if sch.magic ≠ SI_MAGIC then ([], .error .assertion)
  else
    let sch := { sch with tmNow := clock.localtime_r now }
    if sch.tmNow.tm_min = sch.tmPrevNow.tm_min then ([], .ok sch)
    else
      let sch :=
        if sch.tmNow.tm_hour = 0 ∧ sch.tmNow.tm_min = 0 then
          { sch with sun := clock.calcDawnDusk now sch.sun }
        else sch
      match schedulerWalk sch with
      | .error f => ([], .error f)
      | .ok (sch', visits) =>
        ([⟨now, sch.tmNow, sch.sun, visits⟩], .ok { sch' with tmPrevNow := sch'.tmNow })

/-- `SchedulerStart`. -/
def SchedulerStart (clock : Clock) (now : Int) (sch : SchedInfo) : Except Fault SchedInfo := do
  ASSERT_FAIL (sch.magic = SI_MAGIC)
  return { sch with sun := clock.calcDawnDusk now sch.sun, enabled := true }

/-- `SchedulerStop`. -/
def SchedulerStop (sch : SchedInfo) : Except Fault SchedInfo := do
  ASSERT_FAIL (sch.magic = SI_MAGIC)
  return { sch with enabled := false }

/-- `SchedulerRemoveAllEntries`. -/
def SchedulerRemoveAllEntries (sch : SchedInfo) : Except Fault SchedInfo := do
  ASSERT_FAIL (sch.magic = SI_MAGIC)
  return { sch with head := none, tail := none, listContext := [] }

/-- `SchedulerAdd`; `l` is the address that talloc gives. -/
def SchedulerAdd (l : Addr) (entryName cronExp : CString) (exec : Nat) (execParam : CString)
    (sch : SchedInfo) : Except Fault SchedInfo := do
  ASSERT_FAIL (sch.magic = SI_MAGIC)
  let cronSubstrs ← splitWhite cronExp
  let entry : SchedListEntry :=
    ⟨SE_MAGIC, ⟨cronExp, entryName, execParam, cronSubstrs, exec⟩, none, none⟩
  let sch := sch.store l entry
  match sch.head with
  | none => return { sch with head := some l, tail := some l }
  | some _ => do
    let tail ← deref sch.tail
    let last ← deref (sch.cell tail)
    let sch := sch.store tail { last with next := some l }
    let sch := sch.store l { entry with prev := some tail }
    return { sch with tail := some l }

/-! ## The steps -/

/-- A call of the interface, at a time where the time is read. -/
inductive Step
  | SchedulerAdd (l : Addr) (entryName cronExp : CString) (exec : Nat) (execParam : CString)
  | SchedulerRemoveAllEntries
  | SchedulerStart (now : Int)
  | SchedulerStop
  | SchedulerDo (now : Int)
deriving DecidableEq, Repr

/-- The step function, with the walks as its log. -/
def step (clock : Clock) (sch : SchedInfo) : Step → List Walk × Except Fault SchedInfo
  | .SchedulerAdd l entryName cronExp exec execParam =>
    ([], SchedulerAdd l entryName cronExp exec execParam sch)
  | .SchedulerRemoveAllEntries => ([], SchedulerRemoveAllEntries sch)
  | .SchedulerStart now => ([], SchedulerStart clock now sch)
  | .SchedulerStop => ([], SchedulerStop sch)
  | .SchedulerDo now => SchedulerDo clock now sch

/-- talloc gives memory that is not in use. -/
def Allocates (sch : SchedInfo) : Step → Prop
  | .SchedulerAdd l _ _ _ _ => sch.cell l = none
  | _ => True

end XplEvent.Scheduler
