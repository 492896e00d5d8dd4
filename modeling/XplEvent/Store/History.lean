import XplEvent.Lib.Monitor
import XplEvent.Store.Replace

/-!
# Histories of reads and writes

The abstract store says what the database is for: every table is a map
from keys to rows, a write that returns `PASS` puts its row, one that
returns `FAIL` does nothing, and a read returns what is there. Over a
history in which SQLite answers soundly and every transaction that is
begun is ended, the tables keep at most one row per key and the store is
what their keys find.
-/

namespace XplEvent.Store

open Lib

/-! ## The calls of a history -/

/-- A call that writes a row; `now` is what `time` returns. -/
inductive Write
  | DBWriteNVState (now : Int) (key value : CString)
  | DBUpdateTrigLog (now : Int) (source schema nvpairs : CString)
  | DBUpdateHeartbeatLog (now : Int) (source : CString)
  | DBIRScript (name script : CString)
deriving DecidableEq, Repr

/-- A call of a history. -/
inductive Call
  | write (w : Write)
  | DBReadNVState (key : CString)
  | DBFetchScript (scriptName : CString)
deriving DecidableEq, Repr

/-- A call and its result. -/
inductive Event
  | wrote (w : Write) (res : PassFail)
  | readNVState (key : CString) (value : Option CString)
  | fetchedScript (scriptName : CString) (script : Option CString)
deriving DecidableEq, Repr

def Write.exec (sq : Answers) (db : Conn Tables) : Write → Conn Tables × PassFail
  | .DBWriteNVState now key value => Store.DBWriteNVState sq now db key value
  | .DBUpdateTrigLog now source schema nvpairs =>
    Store.DBUpdateTrigLog sq now db source schema nvpairs
  | .DBUpdateHeartbeatLog now source => Store.DBUpdateHeartbeatLog sq now db source
  | .DBIRScript name script => Store.DBIRScript sq db name script

/-- A step of a history; it never fails. -/
def step (db : Conn Tables) : Call × Answers → List Event × Except Empty (Conn Tables)
  | (.write w, sq) => ([.wrote w (w.exec sq db).2], .ok (w.exec sq db).1)
  | (.DBReadNVState key, sq) =>
    ([.readNVState key (Store.DBReadNVState sq db key).2], .ok (Store.DBReadNVState sq db key).1)
  | (.DBFetchScript scriptName, sq) =>
    ([.fetchedScript scriptName (Store.DBFetchScript sq db scriptName).2],
      .ok (Store.DBFetchScript sq db scriptName).1)

/-- At most one row per key in every table. -/
structure Tables.Keyed (d : Tables) : Prop where
  nvstate : Lib.Keyed NVState.key d.nvstate
  triglog : Lib.Keyed TrigLog.source d.triglog
  hbeatlog : Lib.Keyed HeartbeatLog.source d.hbeatlog
  scripts : Lib.Keyed Script.scriptname d.scripts

/-! ## A single write -/

/-- The write leaves the table with the row of its arguments replaced, or
the tables as they were, as its result says. -/
def Write.Atomic (sq : Answers) (d : Tables) : Write → Prop
  | .DBWriteNVState now key value => ReplacesAtomically nvstate d ⟨key, some value, now⟩
    (Store.DBWriteNVState sq now (.autocommit d) key value)
  | .DBUpdateTrigLog now source schema nvpairs =>
    ReplacesAtomically triglog d ⟨source, schema, some nvpairs, now⟩
      (Store.DBUpdateTrigLog sq now (.autocommit d) source schema nvpairs)
  | .DBUpdateHeartbeatLog now source => ReplacesAtomically hbeatlog d ⟨source, now⟩
    (Store.DBUpdateHeartbeatLog sq now (.autocommit d) source)
  | .DBIRScript name script => ReplacesAtomically scripts d ⟨name, script⟩
    (Store.DBIRScript sq (.autocommit d) name script)

/-- SQLite answers the write soundly. Of a script the copy with its quotes
doubled is inserted. -/
def Write.SoundlyAnswered (sq : Answers) (d : Tables) : Write → Prop
  | .DBWriteNVState now key value =>
    Sound nvstate 2 sq d ⟨key, some value, now⟩ ⟨key, some value, now⟩
  | .DBUpdateTrigLog now source schema nvpairs =>
    Sound triglog 3 sq d ⟨source, schema, some nvpairs, now⟩ ⟨source, schema, some nvpairs, now⟩
  | .DBUpdateHeartbeatLog now source => Sound hbeatlog 1 sq d ⟨source, now⟩ ⟨source, now⟩
  | .DBIRScript name script => Sound scripts 2 sq d ⟨name, script⟩ ⟨name, escapeQuotes script⟩

theorem Write.atomic_iff {d : Tables} (hd : d.Keyed) (sq : Answers) (w : Write) :
    w.Atomic sq d ↔ w.SoundlyAnswered sq d := by
  cases w with
  | DBWriteNVState now key value =>
    let row : NVState := ⟨key, some value, now⟩
    exact replaceRow_iff Store.nvstate hd.nvstate 2 sq row row
  | DBUpdateTrigLog now source schema nvpairs =>
    let row : TrigLog := ⟨source, schema, some nvpairs, now⟩
    exact replaceRow_iff Store.triglog hd.triglog 3 sq row row
  | DBUpdateHeartbeatLog now source =>
    let row : HeartbeatLog := ⟨source, now⟩
    exact replaceRow_iff Store.hbeatlog hd.hbeatlog 1 sq row row
  | DBIRScript name script =>
    exact replaceRow_iff Store.scripts hd.scripts 2 sq ⟨name, script⟩ ⟨name, escapeQuotes script⟩

/-! ## The abstract store -/

/-- A map of every table. -/
structure Maps where
  nvstate : CString → Option NVState
  triglog : CString → Option TrigLog
  hbeatlog : CString → Option HeartbeatLog
  scripts : CString → Option Script

/-- What the keys of the tables find. -/
def Tables.maps (d : Tables) : Maps where
  nvstate := lookup NVState.key d.nvstate
  triglog := lookup TrigLog.source d.triglog
  hbeatlog := lookup HeartbeatLog.source d.hbeatlog
  scripts := lookup Script.scriptname d.scripts

/-- A map with a key set. -/
def put {ρ : Type} (map : CString → Option ρ) (key : CString) (row : ρ) : CString → Option ρ :=
  fun k => if k = key then some row else map k

/-- The maps with the row of a write put. -/
def Maps.write (m : Maps) : Write → Maps
  | .DBWriteNVState now key value => { m with nvstate := put m.nvstate key ⟨key, some value, now⟩ }
  | .DBUpdateTrigLog now source schema nvpairs =>
    { m with triglog := put m.triglog source ⟨source, schema, some nvpairs, now⟩ }
  | .DBUpdateHeartbeatLog now source => { m with hbeatlog := put m.hbeatlog source ⟨source, now⟩ }
  | .DBIRScript name script => { m with scripts := put m.scripts name ⟨name, script⟩ }

/-- The store as a monitor of a history: a write that returns `PASS` puts
its row, and a read must return what is there. -/
def remember (m : Maps) : Event → Option Maps
  | .wrote w .PASS => some (m.write w)
  | .wrote _ .FAIL => some m
  | .readNVState key value =>
    if value = (m.nvstate key).bind NVState.value then some m else none
  | .fetchedScript scriptName script =>
    if script = (m.scripts scriptName).map Script.scriptcode then some m else none

/-- The condition on a step: SQLite answers it soundly, reads what is to be
read, and ends the transaction if it was begun. -/
def Meets (db : Conn Tables) : Call × Answers → Prop
  | (.write w, sq) => w.SoundlyAnswered sq db.committed ∧
    (sq.beginTx.prepare = true → sq.beginTx.step = true → Closes sq)
  | (_, sq) => sq.beginTx.prepare = true ∧ sq.select.ok 1 = true ∧
    (sq.beginTx.step = true → Closes sq)

/-! ## The steps of a history -/

/-- The database and the store it is remembered as. -/
structure Remembers (db : Conn Tables) (m : Maps) : Prop where
  closed : db.working = none
  keyed : db.committed.Keyed
  maps : m = db.committed.maps

theorem replaced_table {ρ : Type} {table : Table ρ} {rows rows' : List ρ} {row : ρ}
    (hrows : Lib.Keyed table.key rows) (h : rows'.Perm (replace table.key rows row)) :
    Lib.Keyed table.key rows' ∧
      lookup table.key rows' = put (lookup table.key rows) (table.key row) row := by
  have hkeyed := (hrows.replace row).perm h.symm
  refine ⟨hkeyed, funext fun k => ?_⟩
  rw [hkeyed.lookup_perm h, lookup_replace]
  rfl

/-- A write that has replaced its row. -/
theorem Write.maps_of_pass {d : Tables} (hd : d.Keyed) {sq : Answers} {w : Write}
    (h : w.Atomic sq d) (hpass : (w.exec sq (.autocommit d)).2 = .PASS) :
    (w.exec sq (.autocommit d)).1.committed.Keyed ∧
      (w.exec sq (.autocommit d)).1.committed.maps = d.maps.write w := by
  cases w with
  | DBWriteNVState now key value =>
    simp only [Write.exec] at hpass ⊢
    simp only [Write.Atomic, ReplacesAtomically, hpass] at h
    obtain ⟨hkeyed, hmap⟩ := replaced_table hd.nvstate h.1
    rw [h.2]
    exact ⟨{ hd with nvstate := hkeyed }, congrArg (fun f => { d.maps with nvstate := f }) hmap⟩
  | DBUpdateTrigLog now source schema nvpairs =>
    simp only [Write.exec] at hpass ⊢
    simp only [Write.Atomic, ReplacesAtomically, hpass] at h
    obtain ⟨hkeyed, hmap⟩ := replaced_table hd.triglog h.1
    rw [h.2]
    exact ⟨{ hd with triglog := hkeyed }, congrArg (fun f => { d.maps with triglog := f }) hmap⟩
  | DBUpdateHeartbeatLog now source =>
    simp only [Write.exec] at hpass ⊢
    simp only [Write.Atomic, ReplacesAtomically, hpass] at h
    obtain ⟨hkeyed, hmap⟩ := replaced_table hd.hbeatlog h.1
    rw [h.2]
    exact ⟨{ hd with hbeatlog := hkeyed }, congrArg (fun f => { d.maps with hbeatlog := f }) hmap⟩
  | DBIRScript name script =>
    simp only [Write.exec] at hpass ⊢
    simp only [Write.Atomic, ReplacesAtomically, hpass] at h
    obtain ⟨hkeyed, hmap⟩ := replaced_table hd.scripts h.1
    rw [h.2]
    exact ⟨{ hd with scripts := hkeyed }, congrArg (fun f => { d.maps with scripts := f }) hmap⟩

/-- A write that has done nothing. -/
theorem Write.committed_of_fail {d : Tables} {sq : Answers} {w : Write} (h : w.Atomic sq d)
    (hfail : (w.exec sq (.autocommit d)).2 = .FAIL) :
    (w.exec sq (.autocommit d)).1.committed = d := by
  cases w with
  | DBWriteNVState now key value =>
    simp only [Write.exec] at hfail ⊢
    simpa only [Write.Atomic, ReplacesAtomically, hfail] using h
  | DBUpdateTrigLog now source schema nvpairs =>
    simp only [Write.exec] at hfail ⊢
    simpa only [Write.Atomic, ReplacesAtomically, hfail] using h
  | DBUpdateHeartbeatLog now source =>
    simp only [Write.exec] at hfail ⊢
    simpa only [Write.Atomic, ReplacesAtomically, hfail] using h
  | DBIRScript name script =>
    simp only [Write.exec] at hfail ⊢
    simpa only [Write.Atomic, ReplacesAtomically, hfail] using h

theorem Write.exec_working {sq : Answers}
    (h : sq.beginTx.prepare = true → sq.beginTx.step = true → Closes sq) (d : Tables)
    (w : Write) : (w.exec sq (.autocommit d)).1.working = none := by
  cases w with
  | DBWriteNVState now key value => exact replaceRow_working Store.nvstate 2 h d key _
  | DBUpdateTrigLog now source schema nvpairs =>
    exact replaceRow_working Store.triglog 3 h d source _
  | DBUpdateHeartbeatLog now source => exact replaceRow_working Store.hbeatlog 1 h d source _
  | DBIRScript name script => exact replaceRow_working Store.scripts 2 h d name _

/-- A write that meets the condition. -/
theorem write_remembers {d : Tables} (hd : d.Keyed) {sq : Answers} {w : Write}
    (h : Meets (.autocommit d) (.write w, sq)) :
    ∃ m, remember d.maps (.wrote w (w.exec sq (.autocommit d)).2) = some m ∧
      Remembers (w.exec sq (.autocommit d)).1 m := by
  obtain ⟨hsound, hcloses⟩ := h
  have hatomic := (w.atomic_iff hd sq).mpr hsound
  have hworking := w.exec_working hcloses d
  cases hres : (w.exec sq (.autocommit d)).2 with
  | PASS =>
    obtain ⟨hkeyed, hmaps⟩ := Write.maps_of_pass hd hatomic hres
    exact ⟨d.maps.write w, rfl, hworking, hkeyed, hmaps.symm⟩
  | FAIL =>
    have hcommitted := Write.committed_of_fail hatomic hres
    refine ⟨d.maps, rfl, hworking, ?_, ?_⟩
    · rw [hcommitted]
      exact hd
    · rw [hcommitted]

/-- **A step that meets the condition is remembered.** -/
theorem step_remembers (db : Conn Tables) (m : Maps) (call : Call × Answers)
    (hR : Remembers db m) (h : Meets db call) :
    ∃ m', watch remember m (step db call).1 = some m' ∧
      ∀ db', (step db call).2 = .ok db' → Remembers db' m' := by
  obtain ⟨d, working⟩ := db
  obtain ⟨hclosed, hd, rfl⟩ := hR
  cases hclosed
  obtain ⟨call, sq⟩ := call
  cases call with
  | write w =>
    obtain ⟨m, hevent, hremembers⟩ := write_remembers hd h
    refine ⟨m, (Option.bind_fun_some _).trans hevent, fun db' hdb' => ?_⟩
    cases hdb'
    exact hremembers
  | DBReadNVState key =>
    obtain ⟨hp, hselect, hcloses⟩ := h
    have hread := readRow_autocommit Store.nvstate hp hselect hcloses d key
    refine ⟨d.maps, (Option.bind_fun_some _).trans ?_, fun db' hdb' => ?_⟩
    · show remember d.maps (.readNVState key (readRow nvstate sq (.autocommit d) key).2) = _
      rw [hread]
      exact if_pos rfl
    · cases hdb'
      show Remembers (readRow nvstate sq (.autocommit d) key).1 d.maps
      rw [hread]
      exact ⟨rfl, hd, rfl⟩
  | DBFetchScript scriptName =>
    obtain ⟨hp, hselect, hcloses⟩ := h
    have hread := readRow_autocommit Store.scripts hp hselect hcloses d scriptName
    refine ⟨d.maps, (Option.bind_fun_some _).trans ?_, fun db' hdb' => ?_⟩
    · show remember d.maps
        (.fetchedScript scriptName (readRow scripts sq (.autocommit d) scriptName).2) = _
      rw [hread]
      exact if_pos Option.map_eq_bind.symm
    · cases hdb'
      show Remembers (readRow scripts sq (.autocommit d) scriptName).1 d.maps
      rw [hread]
      exact ⟨rfl, hd, rfl⟩

/-! ## The replacement of rows -/

/-- **Rows are replaced atomically by key.** A single write does it exactly
when SQLite answers soundly; and over every history whose steps meet the
condition, there is at most one row per key in the state it ends in, which
is the one its writes that passed have put, and every read has returned
what was put last. -/
theorem replacesByKey {d : Tables} (hd : d.Keyed) :
    (∀ (w : Write) (sq : Answers), w.Atomic sq d ↔ w.SoundlyAnswered sq d) ∧
    ∀ history : List (Call × Answers), EachStep step Meets (.autocommit d) history →
      ∃ m db, watch remember d.maps (run step (.autocommit d) history).1 = some m ∧
        (run step (.autocommit d) history).2 = .ok db ∧ Remembers db m := by
  refine ⟨fun w sq => w.atomic_iff hd sq, fun history h => ?_⟩
  obtain ⟨m, hwatch, hend⟩ := watch_run step_remembers ⟨rfl, hd, rfl⟩ h
  cases hresult : (run step (.autocommit d) history).2 with
  | error e => exact e.elim
  | ok db => exact ⟨m, db, hwatch, rfl, hend db hresult⟩

/-- Calls that succeed. -/
def carriedOut : Calls := ⟨true, fun _ => true, true⟩

/-- Calls whose step fails. -/
def notCarriedOut : Calls := ⟨true, fun _ => true, false⟩

/-- Every call succeeds. -/
def answered : Answers := ⟨carriedOut, carriedOut, carriedOut, carriedOut, carriedOut⟩

/-- Every call but the `COMMIT` succeeds. -/
def answeredUncommitted : Answers := { answered with endTx := notCarriedOut }

/-- A database without rows. -/
def emptyTables : Tables := ⟨[], [], [], []⟩

theorem emptyTables_keyed : emptyTables.Keyed := ⟨.nil, .nil, .nil, .nil⟩

/-- The history of a write that replaces a row, and a read. -/
def sampleHistory : List (Call × Answers) :=
  [(.write (.DBWriteNVState 0 [107] [49]), answered),
    (.write (.DBWriteNVState 1 [107] [50]), answered), (.DBReadNVState [107], answered)]

theorem sampleHistory_meets : EachStep step Meets (.autocommit emptyTables) sampleHistory := by
  have hcloses : answered.beginTx.prepare = true → answered.beginTx.step = true →
      Closes answered := fun _ _ => ⟨rfl, rfl⟩
  refine ⟨⟨?_, hcloses⟩, ⟨?_, hcloses⟩, ⟨rfl, rfl, fun _ => ⟨rfl, rfl⟩⟩, trivial⟩
  · exact .replaced rfl (fun _ => rfl) (hcloses rfl) (fun h => absurd rfl h) rfl
  · exact .replaced rfl (fun _ => rfl) (hcloses rfl) (fun _ => ⟨rfl, rfl⟩) rfl

theorem sampleHistory_replacesByKey :
    (Write.DBWriteNVState 0 [107] [49]).Atomic answered emptyTables ∧
    ∃ m db, watch remember emptyTables.maps
        (run step (.autocommit emptyTables) sampleHistory).1 = some m ∧
      (run step (.autocommit emptyTables) sampleHistory).2 = .ok db ∧ Remembers db m := by
  obtain ⟨hwrite, hhistory⟩ := replacesByKey emptyTables_keyed
  refine ⟨(hwrite _ answered).mpr ?_, hhistory sampleHistory sampleHistory_meets⟩
  exact .replaced rfl (fun _ => rfl) (fun _ => ⟨rfl, rfl⟩) (fun h => absurd rfl h) rfl

/-- A `COMMIT` that fails is not noticed. -/
theorem uncommitted_not_atomic : ¬ ∀ (w : Write) (sq : Answers) (d : Tables), d.Keyed →
    w.Atomic sq d := by
  intro h
  have hperm := (h (.DBWriteNVState 0 [107] [49]) answeredUncommitted emptyTables
    emptyTables_keyed).1
  exact absurd hperm.length_eq (by decide)

end XplEvent.Store
