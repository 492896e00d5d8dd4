import XplEvent.Base
import XplEvent.Lib.Table
import XplEvent.Lib.Transaction

/-!
# `db.c` — the functions that replace and read a row

The four tables the daemon writes a row of, and the connection to the
database they are in. How SQLite answers a call is part of the input: a
statement is prepared, its parameters are bound, and it is stepped, and
each of these can fail. A statement that fails changes nothing, and
finalizing a statement that was reset is never an error.

The functions that write a row are one function with parameters,
`replaceRow`: the table, and the number of values the `INSERT` binds. The
kinds of transaction differ only in when they lock and are left out, as
are the row numbers SQLite assigns.
-/

namespace XplEvent.Store

open Lib (Conn)

/-- How SQLite answers the calls for one statement. -/
structure Calls where
  prepare : Bool
  bind : Nat → Bool
  step : Bool

/-- The answers for the statements of one function. The last is the
`COMMIT` or the `ROLLBACK`, whichever comes. -/
structure Answers where
  beginTx : Calls
  select : Calls
  delete : Calls
  insert : Calls
  endTx : Calls

/-! ## The tables -/

/-- A row of `nvstate`. -/
structure NVState where
  key : CString
  value : Option CString
  timestamp : Int
deriving DecidableEq, Repr

/-- A row of `triglog`. -/
structure TrigLog where
  source : CString
  schema : CString
  nvpairs : Option CString
  timestamp : Int
deriving DecidableEq, Repr

/-- A row of `hbeatlog`. -/
structure HeartbeatLog where
  source : CString
  timestamp : Int
deriving DecidableEq, Repr

/-- A row of `scripts`. -/
structure Script where
  scriptname : CString
  scriptcode : CString
deriving DecidableEq, Repr

/-- The tables. -/
structure Tables where
  nvstate : List NVState
  triglog : List TrigLog
  hbeatlog : List HeartbeatLog
  scripts : List Script
deriving DecidableEq, Repr

/-- A table of the database: its rows, its key column, and the column that
`dbReadField` is asked for. -/
structure Table (ρ : Type) where
  rows : Tables → List ρ
  withRows : List ρ → Tables → Tables
  key : ρ → CString
  valueCol : ρ → Option CString
  rows_withRows : ∀ r d, rows (withRows r d) = r
  withRows_rows : ∀ d, withRows (rows d) d = d
  withRows_withRows : ∀ r r' d, withRows r (withRows r' d) = withRows r d

def nvstate : Table NVState where
  rows d := d.nvstate
  withRows r d := { d with nvstate := r }
  key := NVState.key
  valueCol := NVState.value
  rows_withRows _ _ := rfl
  withRows_rows _ := rfl
  withRows_withRows _ _ _ := rfl

def triglog : Table TrigLog where
  rows d := d.triglog
  withRows r d := { d with triglog := r }
  key := TrigLog.source
  valueCol := TrigLog.nvpairs
  rows_withRows _ _ := rfl
  withRows_rows _ := rfl
  withRows_withRows _ _ _ := rfl

def hbeatlog : Table HeartbeatLog where
  rows d := d.hbeatlog
  withRows r d := { d with hbeatlog := r }
  key := HeartbeatLog.source
  valueCol r := some r.source
  rows_withRows _ _ := rfl
  withRows_rows _ := rfl
  withRows_withRows _ _ _ := rfl

def scripts : Table Script where
  rows d := d.scripts
  withRows r d := { d with scripts := r }
  key := Script.scriptname
  valueCol r := some r.scriptcode
  rows_withRows _ _ := rfl
  withRows_rows _ := rfl
  withRows_withRows _ _ _ := rfl

/-! ## Statements -/

/-- A statement without parameters. What its step returns is logged, and
then overwritten by the result of the finalizing. -/
def simpleTX (calls : Calls) (statement : Conn Tables → Option (Conn Tables)) (db : Conn Tables) :
    Conn Tables × PassFail :=
  if ¬ calls.prepare then (db, .FAIL)
  else if calls.step then ((statement db).getD db, .PASS)
  else (db, .PASS)

def dbTxBegin (calls : Calls) (db : Conn Tables) : Conn Tables × PassFail :=
  simpleTX calls Conn.begin db

def dbTxEnd (calls : Calls) (type : PassFail) (db : Conn Tables) : Conn Tables × PassFail :=
  match type with
  | .PASS => simpleTX calls Conn.commit db
  | .FAIL => simpleTX calls Conn.rollback db

/-- A statement with `params` parameters that is stepped to its end. -/
def Calls.ok (calls : Calls) (params : Nat) : Bool :=
  calls.prepare && (List.range params).all calls.bind && calls.step

variable {ρ : Type} (table : Table ρ)

/-- `dbReadField`: every error is a `NULL`, as is a `NULL` in the column. -/
def dbReadField (calls : Calls) (db : Conn Tables) (key : CString) : Option CString :=
  if calls.ok 1 then (Lib.lookup table.key (table.rows db.current) key).bind table.valueCol
  else none

def dbDeleteRow (calls : Calls) (db : Conn Tables) (key : CString) : Conn Tables × PassFail :=
  if calls.ok 1 then
    (db.write fun d => table.withRows (Lib.remove table.key (table.rows d) key) d, .PASS)
  else (db, .FAIL)

/-- The `INSERT` of a row. -/
def insertRow (params : Nat) (calls : Calls) (db : Conn Tables) (row : ρ) :
    Conn Tables × PassFail :=
  if calls.ok params then (db.write fun d => table.withRows (table.rows d ++ [row]) d, .PASS)
  else (db, .FAIL)

/-- Delete what is read and insert the row. -/
def editRow (params : Nat) (sq : Answers) (db : Conn Tables) (key : CString) (row : ρ) :
    Conn Tables × PassFail :=
  let p := dbReadField table sq.select db key
  let (db, res) := if p.isSome then dbDeleteRow table sq.delete db key else (db, .PASS)
  if res = .PASS then insertRow table params sq.insert db row else (db, res)

/-- The body the four functions share. The result of the end of the
transaction is not used. -/
def replaceRow (params : Nat) (sq : Answers) (db : Conn Tables) (key : CString) (row : ρ) :
    Conn Tables × PassFail :=
  match dbTxBegin sq.beginTx db with
  | (db, .FAIL) => (db, .FAIL)
  | (db, .PASS) =>
    let (db, res) := editRow table params sq db key row
    let (db, _) := dbTxEnd sq.endTx res db
    (db, res)

/-- The body of the two functions that read a field. -/
def readRow (sq : Answers) (db : Conn Tables) (key : CString) :
    Conn Tables × Option CString :=
  match dbTxBegin sq.beginTx db with
  | (db, .FAIL) => (db, none)
  | (db, .PASS) =>
    let p := dbReadField table sq.select db key
    let (db, _) := dbTxEnd sq.endTx .PASS db
    (db, p)

/-! ## The functions -/

def DBWriteNVState (sq : Answers) (now : Int) (db : Conn Tables) (key value : CString) :
    Conn Tables × PassFail :=
  replaceRow nvstate 2 sq db key ⟨key, some value, now⟩

def DBUpdateTrigLog (sq : Answers) (now : Int) (db : Conn Tables)
    (source schema nvpairs : CString) : Conn Tables × PassFail :=
  replaceRow triglog 3 sq db source ⟨source, schema, some nvpairs, now⟩

def DBUpdateHeartbeatLog (sq : Answers) (now : Int) (db : Conn Tables) (source : CString) :
    Conn Tables × PassFail :=
  replaceRow hbeatlog 1 sq db source ⟨source, now⟩

/-- The copy of a script with its single quotes doubled. -/
def escapeQuotes (script : CString) : CString :=
  script.flatMap fun c => if c = 39 then [39, c] else [c]

/-- `DBIRScript`: the copy is what the `INSERT` binds. -/
def DBIRScript (sq : Answers) (db : Conn Tables) (name script : CString) :
    Conn Tables × PassFail :=
  replaceRow scripts 2 sq db name ⟨name, escapeQuotes script⟩

def DBReadNVState (sq : Answers) (db : Conn Tables) (key : CString) :
    Conn Tables × Option CString :=
  readRow nvstate sq db key

def DBFetchScript (sq : Answers) (db : Conn Tables) (scriptName : CString) :
    Conn Tables × Option CString :=
  readRow scripts sq db scriptName

/-- A row of `trigaction`, which the daemon only reads. -/
structure TrigAction where
  source : CString
  action : Option CString
deriving DecidableEq, Repr

/-- `DBFetchScriptByTag`: the name of the script for a tag, and the script
of that name. `byName` answers the second statement. -/
def DBFetchScriptByTag (sq : Answers) (byName : Calls) (trigaction : List TrigAction)
    (db : Conn Tables) (tagSubAddr : CString) : Conn Tables × Option CString :=
  match dbTxBegin sq.beginTx db with
  | (db, .FAIL) => (db, none)
  | (db, .PASS) =>
    let scriptName :=
      if sq.select.ok 1 then (Lib.lookup TrigAction.source trigaction tagSubAddr).bind (·.action)
      else none
    let script := scriptName.bind (dbReadField scripts byName db)
    let (db, _) := dbTxEnd sq.endTx .PASS db
    (db, script)

end XplEvent.Store
