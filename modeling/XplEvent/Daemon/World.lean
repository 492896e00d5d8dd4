import XplEvent.Scheduler.Schedule
import XplEvent.Script.Effects
import XplEvent.Store.Provenance

/-!
# What is outside of the daemon's code

The database, the network and the processes the daemon starts, as one
state that every part of the daemon acts on, and the machine that answers
its calls. `World.calls` is a ghost: the calls of `db.c` that have been
made, with their results; and each message and each process is kept with
the number of calls that were made before it. SQLite answers each call as
it likes.

`World.env` makes it the environment of scripts. So a script that runs
for a message, one that runs for the schedule and one that a client has
asked for act on the same tables as the functions that log and the ones
that store scripts.
-/

namespace XplEvent.Daemon

open Lib (Conn)
open Script (Env)
open Store (Tables Write TrigAction)

/-- What the daemon runs on. -/
structure Machine (D : Type) where
  UtilHash : CString → UInt32
  UtilStod : CString → Option D
  eq : D → D → Bool
  lt : D → D → Bool
  le : D → D → Bool
  /-- How SQLite answers the `n`-th call. -/
  sq : Nat → Store.Answers
  /-- How it answers the second statement of `DBFetchScriptByTag`. -/
  byName : Nat → Store.Calls
  time : Nat → Int
  UtilSpawn : Nat → PassFail
  trigaction : List TrigAction
  clock : Scheduler.Clock
  /-- The address that talloc gives for an entry of the schedule. -/
  talloc : Scheduler.SchedInfo → Scheduler.Addr

/-- A call of `db.c`, with its result. -/
inductive DBCall
  | wrote (w : Write) (res : PassFail)
  | readNVState (key : CString) (value : Option CString)
  | fetchedScript (scriptName : CString) (script : Option CString)
  | fetchedScriptByTag (tagSubAddr : CString) (script : Option CString)
deriving DecidableEq, Repr

/-- What is outside. -/
structure World where
  db : Conn Tables
  calls : List DBCall
  sent : List (Nat × Wire.XplMessage)
  spawned : List (Nat × CString)

section

variable {D : Type} (m : Machine D)

/-- A call that writes a row. -/
def World.write (w : World) (write : Write) : PassFail × World :=
  let (db, res) := write.exec (m.sq w.calls.length) w.db
  (res, { w with db := db, calls := w.calls ++ [.wrote write res] })

def World.DBWriteNVState (w : World) (key value : CString) : PassFail × World :=
  w.write m (.DBWriteNVState (m.time w.calls.length) key value)

def World.DBUpdateTrigLog (w : World) (source schema nvpairs : CString) : PassFail × World :=
  w.write m (.DBUpdateTrigLog (m.time w.calls.length) source schema nvpairs)

def World.DBUpdateHeartbeatLog (w : World) (source : CString) : PassFail × World :=
  w.write m (.DBUpdateHeartbeatLog (m.time w.calls.length) source)

def World.DBIRScript (w : World) (name script : CString) : PassFail × World :=
  w.write m (.DBIRScript name script)

def World.DBReadNVState (w : World) (key : CString) : Option CString × World :=
  let (db, value) := Store.DBReadNVState (m.sq w.calls.length) w.db key
  (value, { w with db := db, calls := w.calls ++ [.readNVState key value] })

def World.DBFetchScript (w : World) (scriptName : CString) : Option CString × World :=
  let (db, script) := Store.DBFetchScript (m.sq w.calls.length) w.db scriptName
  (script, { w with db := db, calls := w.calls ++ [.fetchedScript scriptName script] })

def World.DBFetchScriptByTag (w : World) (tagSubAddr : CString) : Option CString × World :=
  let (db, script) := Store.DBFetchScriptByTag (m.sq w.calls.length) (m.byName w.calls.length)
    m.trigaction w.db tagSubAddr
  (script, { w with db := db, calls := w.calls ++ [.fetchedScriptByTag tagSubAddr script] })

/-- The environment of a script. -/
def World.env : Env D World where
  UtilHash := m.UtilHash
  UtilStod := m.UtilStod
  eq := m.eq
  lt := m.lt
  le := m.le
  DBReadNVState key w := w.DBReadNVState m key
  DBWriteNVState key value w := w.DBWriteNVState m key value
  UtilSpawn command w :=
    (m.UtilSpawn w.spawned.length,
      { w with spawned := w.spawned ++ [(w.calls.length, command)] })
  XplSendMessage msg w := { w with sent := w.sent ++ [(w.calls.length, msg)] }

end

end XplEvent.Daemon
