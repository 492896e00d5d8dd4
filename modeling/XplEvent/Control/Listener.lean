import XplEvent.Control.ReadLine
import XplEvent.Control.Receive
import XplEvent.Control.Send

/-!
# `clientCommandListener` — the control connection

The daemon reads a line from a control connection when there is something
to read, and acts on it: it is a line of a script that is being received,
a command, or a request to send or to receive a script. A read that ends
with nothing closes the connection.

How the rest of the daemon answers a call is part of the input. What the
listener does is logged.
-/

namespace XplEvent.Control

/-- The answers of the rest of the daemon while a line is handled. -/
structure Answers where
  /-- `DBFetchScript`. -/
  fetched : Option CString
  /-- `parseAndExecScript`. -/
  executed : PassFail
  /-- `DBIRScript`. -/
  saved : PassFail
  /-- `Globals->sch` is set. -/
  scheduler : Bool
deriving DecidableEq, Repr

/-- What the listener does. -/
inductive Event
  /-- A line is given to `MonitorRecvScript`. -/
  | received (line : CString)
  /-- A command line is interpreted. -/
  | command (cl : CString)
  /-- A script is asked for. -/
  | sendScript (id : CString)
  /-- A receiver is set up. -/
  | receiveScript
  /-- `parseAndExecScript`. -/
  | exec (script : CString)
  /-- The scheduler is loaded again. -/
  | schreload
  /-- `DBIRScript`. -/
  | DBIRScript (name script : CString)
  /-- `SocketPrintf`. -/
  | print (text : CString)
  /-- The connection is closed and its data freed. -/
  | closed
deriving DecidableEq, Repr

/-- `connectionData_t`, without the address of the peer. -/
structure ConnectionData where
  rcvInfo : Option MonRcvInfo
deriving DecidableEq, Repr

/-- What a function of the connection does: its events, and its result. -/
abbrev Deed (α : Type) := List Event × Except Fault α

/-- The commands of `clientCommands`. -/
def clientCommand (d : Answers) (argv0 : CString) (args : List CString) : Deed PassFail :=
  if argv0 = cstr "exec" then
    match args with
    | [] => ([], .ok .FAIL)
    | _ :: _ =>
      match d.fetched with
      | none => ([], .ok .FAIL)
      | some script => ([.exec script], .ok d.executed)
  else if argv0 = cstr "schreload" then
    if d.scheduler then ([.schreload], .ok .PASS) else ([], .error .assertion)
  else ([], .ok .FAIL)

/-- The reply to a command. -/
def commandReply : PassFail → CString
  | .PASS => cstr "ok:\n"
  | .FAIL => cstr "er:Command not recognized\n"

/-- `interpretClientCommand`; `argv[0]` is compared without a test that it
is there. -/
def interpretClientCommand (d : Answers) (cl : CString) : Deed PassFail :=
  match Util.splitString cl 32 with
  | .error f => ([], .error f)
  | .ok [] => ([], .error .nullDeref)
  | .ok (argv0 :: args) =>
    match clientCommand d argv0 args with
    | (es, .error f) => (es, .error f)
    | (es, .ok res) => (es ++ [.print (commandReply res)], .ok res)

/-- The part of the listener for a line outside of a transfer. No line
passes two of the tests. -/
def commandLine (d : Answers) (line : CString) : Deed ConnectionData :=
  if strncmp (cstr "cl:") line 3 then
    match interpretClientCommand d (line.drop 3) with
    | (es, .error f) => (.command (line.drop 3) :: es, .error f)
    | (es, .ok _) => (.command (line.drop 3) :: es, .ok ⟨none⟩)
  else if strncmp (cstr "ss:") line 3 then
    match d.fetched with
    | some theScript =>
      match MonitorSendScript theScript (line.drop 3) with
      | .error f => ([.sendScript (line.drop 3)], .error f)
      | .ok stream => (.sendScript (line.drop 3) :: stream.map .print, .ok ⟨none⟩)
    | none =>
      ([.sendScript (line.drop 3), .print (cstr "er:Script not in database\n")], .ok ⟨none⟩)
  else if strncmp (cstr "rs:") line 3 then ([.receiveScript], .ok ⟨some .initial⟩)
  else ([], .ok ⟨none⟩)

/-- The end of a transfer: the script is saved, and the client told. The
name is asserted by `DBIRScript`. -/
def processScript (d : Answers) (ri : MonRcvInfo) : Deed ConnectionData :=
  if ri.state ≠ .RS_ERROR then
    match ri.name with
    | none => ([], .error .assertion)
    | some name =>
      ([.DBIRScript name ri.script, .print (match d.saved with
        | .PASS => cstr "ok:\n"
        | .FAIL => cstr "er:Could not save script\n")], .ok ⟨none⟩)
  else ([.print (cstr "er:Script receive error\n")], .ok ⟨none⟩)

/-- The part of the listener for a line of a transfer. -/
def scriptLine (d : Answers) (ri : MonRcvInfo) (line : CString) : Deed ConnectionData :=
  match MonitorRecvScript ri line with
  | .error f => ([.received line], .error f)
  | .ok (ri, false) => ([.received line], .ok ⟨some ri⟩)
  | .ok (ri, true) =>
    let (es, result) := processScript d ri
    (.received line :: es, result)

/-- The line read is acted on. -/
def actOn (d : Answers) (cdp : ConnectionData) (line : CString) : Deed ConnectionData :=
  match cdp.rcvInfo with
  | some ri => scriptLine d ri line
  | none => commandLine d line

/-- `clientCommandListener`, with what `SocketReadLine` has given it. The
connection is closed if there is no result. -/
def clientCommandListener (cdp : ConnectionData) (result : LineResult) (d : Answers) :
    Deed (Option ConnectionData) :=
  let (es, acted) : Deed ConnectionData := match result.line with
    | none => ([], .ok cdp)
    | some raw => if result.length ≠ 0 then actOn d cdp (cutNul raw) else ([], .ok cdp)
  match acted with
  | .error f => (es, .error f)
  | .ok cdp => if result.length = 0 then (es ++ [.closed], .ok none) else (es, .ok (some cdp))

/-- The connection: a closed one is not listened to. -/
def listen (conn : Option ConnectionData) (input : LineResult × Answers) :
    Deed (Option ConnectionData) :=
  match conn with
  | none => ([], .ok none)
  | some cdp => clientCommandListener cdp input.1 input.2

end XplEvent.Control
