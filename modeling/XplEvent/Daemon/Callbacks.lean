import XplEvent.Control.Access
import XplEvent.Control.ClientCommand
import XplEvent.Daemon.World
import XplEvent.Script.Lexer
import XplEvent.Script.SourceTag

/-!
# The callbacks of the daemon

`monitor.c` is a set of callbacks: for a message of the network, for the
timer, for a peer that connects, and for a line of a client. They are
called one at a time and share what is outside, the schedule and the data
of the connections. A callback may take any number of turns of the script
interpreter; `fuel` bounds them for each script.
-/

namespace XplEvent.Daemon

open Control (ConnectionData Event LineResult MonRcvInfo MonitorRecvScript MonitorSendScript
  ScheduleAnswers SockAclList SockaddrStorage SocketCheckACL commandReply demand strncmp)
open Scheduler (SchedCall SchedInfo SchedulerAdd SchedulerDo SchedulerInit SchedulerRemoveAllEntries
  SchedulerStart SchedulerStop)
open Script (Lemon Mode ParserExecFunction ParserExecPcode ParserParseHCL Store Unassigned
  XplGetMessageSchema XplGetMessageSourceTagComponents cannedSubAddress makeSource snprintf yylex)
open Wire (XPLMessageClass XplMessage XplNameValueLE XplService XNV_MAGIC)

/-- A function that may run out of fuel, or end the process. -/
abbrev Act (α : Type) := ExceptT Fault Option α

/-- A function that needs no fuel. -/
def Act.of {α : Type} (x : Except Fault α) : Act α := ExceptT.mk (some x)

/-- What the daemon is configured with. -/
structure Config where
  exitOnErr : Bool
  controlACL : Option SockAclList

/-- `connectionData_t`. -/
structure Client where
  clientAddr : SockaddrStorage
  data : ConnectionData

/-- The state of the daemon: what is outside, `Globals->sch`, and the
connections by their descriptor. -/
structure State where
  world : World
  sch : Option SchedInfo
  clients : Nat → Option Client

section

variable {D P : Type} (m : Machine D) (L : Lemon P) (cfg : Config)

/-! ## Scripts -/

/-- The service and the database of a script. -/
def scriptMode (xplEventService : XplService) : Mode := ⟨false, some xplEventService, true⟩

/-- `trigExec`, with the `exit` under `exitOnErr`. -/
def trigExec (svc : XplService) (triggerMessage : XplMessage) (script : CString) (fuel : Nat)
    (w : World) : Act (Store World) :=
  match Script.trigExec (World.env m) (scriptMode svc) L triggerMessage (.script (yylex 1 script)) fuel
      w with
  | none => ExceptT.mk none
  | some (.error f) => .of (.error f)
  | some (.ok (res, st)) =>
    if cfg.exitOnErr ∧ (res = .FAIL ∨ st.failReason.isSome) then .of (.error .fatal) else .of (.ok st)

/-- `execPcode`: `exit` under `exitOnErr`. -/
def execPcode (svc : XplService) (code : List Script.Pcode) (fuel : Nat) (w : World) :
    Act (PassFail × World) :=
  match ParserExecPcode (World.env m) (scriptMode svc)
      (ParserExecFunction (World.env m) (scriptMode svc)) code fuel (.fresh [] w) with
  | none => ExceptT.mk none
  | some (res, st) =>
    match st.fault with
    | some f => .of (.error f)
    | none =>
      if res = .FAIL ∧ cfg.exitOnErr then .of (.error .fatal) else .of (.ok (res, st.world))

/-- `parseAndExecScript`. The result is that of the parser. -/
def parseAndExecScript (svc : XplService) (hcl : CString) (fuel : Nat) (w : World) :
    Act (PassFail × World) :=
  match ParserParseHCL L (.script (yylex 1 hcl)) .zero with
  | .error f => .of (.error f)
  | .ok (.FAIL, _) => if cfg.exitOnErr then .of (.error .fatal) else .of (.ok (.FAIL, w))
  | .ok (.PASS, parseCtrl) => do
    let (_, w) ← execPcode m cfg svc parseCtrl.pcodeHeader.code fuel w
    return (.PASS, w)

/-! ## A message of the network -/

/-- The loop of `XplGetMessageNameValuesAsString`. -/
def appendNameValues : Nat → CString → List XplNameValueLE → Except Fault CString
  | _, res, [] => .ok res
  | i, res, xnv :: rest => do
    ASSERT_FAIL (xnv.magic = XNV_MAGIC)
    let pair := xnv.itemName ++ cstr "=" ++ xnv.itemValue.getD (cstr "(null)")
    appendNameValues (i + 1) (res ++ (if i ≠ 0 then cstr "," else []) ++ pair) rest

/-- `XplGetMessageNameValuesAsString`. -/
def XplGetMessageNameValuesAsString (xm : XplMessage) : Except Fault CString :=
  appendNameValues 0 [] xm.nvList

/-- `logHeartBeatMessage`. -/
def logHeartBeatMessage (theMessage : XplMessage) (w : World) : Act World := do
  let (vendor, device, instance_id) ← Act.of (XplGetMessageSourceTagComponents theMessage)
  let source := snprintf 63 (vendor ++ cstr "-" ++ device ++ cstr "." ++ instance_id)
  return (w.DBUpdateHeartbeatLog m source).2

/-- `checkTriggerMessage`. -/
def checkTriggerMessage (svc : XplService) (subAddress : Unassigned) (theMessage : XplMessage)
    (fuel : Nat) (w : World) : Act (CString × World) := do
  let (vendor, device, instance_id) ← Act.of (XplGetMessageSourceTagComponents theMessage)
  let (schema_class, schema_type) ← Act.of (XplGetMessageSchema theMessage)
  let schema := snprintf 63 (schema_class ++ cstr "." ++ schema_type)
  let (pScript, w) := w.DBFetchScript m (cstr "preprocess")
  let (source, w) ← match pScript with
    | none => do
      let subAddress ← Act.of (cannedSubAddress subAddress theMessage schema)
      pure (makeSource vendor device instance_id subAddress, w)
    | some pScript => do
      let st ← trigExec m L cfg svc theMessage pScript fuel w
      let (subAddress, st) := Script.ParserHashGetValue (World.env m) (scriptMode svc) st
        (cstr "result") (cstr "subaddress")
      pure (makeSource vendor device instance_id subAddress, st.world)
  let (script, w) := w.DBFetchScriptByTag m source
  match script with
  | none => return (source, w)
  | some script => do
    let st ← trigExec m L cfg svc theMessage script fuel w
    return (source, st.world)

/-- `logTriggerMessage`. -/
def logTriggerMessage (theMessage : XplMessage) (sourceDevice : CString) (w : World) : Act World := do
  let (schema_class, schema_type) ← Act.of (XplGetMessageSchema theMessage)
  let schema := schema_class ++ cstr "." ++ schema_type
  let nvpairs ← Act.of (XplGetMessageNameValuesAsString theMessage)
  return (w.DBUpdateTrigLog m sourceDevice schema nvpairs).2

/-- `xPLListener`. -/
def xPLListener (theMessage : XplMessage) (theService : XplService) (msgClass : XPLMessageClass)
    (broadcast : Bool) (subAddress : Unassigned) (fuel : Nat) (w : World) : Act World := do
  if theService.discoveryState ≠ .XPL_HUB_CONFIRMED then return w
  else if broadcast then do
    let _ ← Act.of (XplGetMessageSchema theMessage)
    if theMessage.messageType = .XPL_MESSAGE_STATUS ∧ msgClass = .XPL_MSG_CLASS_HEARTBEAT then
      logHeartBeatMessage m theMessage w
    else if theMessage.messageType = .XPL_MESSAGE_TRIGGER then do
      let (sourceDevice, w) ← checkTriggerMessage m L cfg theService subAddress theMessage fuel w
      logTriggerMessage m theMessage sourceDevice w
    else return w
  else return w

/-! ## The timer -/

/-- `schedulerExec`. -/
def schedulerExec (svc : XplService) (fuel : Nat) (w : World) (call : SchedCall) : Act World := do
  let (script, w) := w.DBFetchScript m call.execParam
  match script with
  | none => return w
  | some script => do
    let (_, w) ← parseAndExecScript m L cfg svc script fuel w
    return w

/-- `schedulerLoad`: an entry's function is always `schedulerExec`. -/
def schedulerLoad (schedule : ScheduleAnswers) (sch : SchedInfo) :
    Except Fault (PassFail × SchedInfo) := do
  let (res, entries) ← Control.schedulerLoad schedule
  let sch ← entries.foldlM (fun sch (name, param, scriptname) =>
    SchedulerAdd (m.talloc sch) name param 0 scriptname sch) sch
  return (res, sch)

/-- The schedule is loaded, and started if it could be. -/
def loadAndStart (schedule : ScheduleAnswers) (now : Int) (sch : SchedInfo) :
    Except Fault SchedInfo := do
  let (res, sch) ← schedulerLoad m schedule sch
  if res = .PASS then SchedulerStart m.clock now sch else return sch

/-- `tickHandler`. -/
def tickHandler (xplEventService : Option XplService) (now : Int) (schedule : ScheduleAnswers)
    (fuel : Nat) (d : State) : Act State :=
  match xplEventService with
  | none => return d
  | some svc =>
    if svc.discoveryState ≠ .XPL_HUB_CONFIRMED then return d
    else match d.sch with
      | none => do
        let sch ← Act.of (loadAndStart m schedule now SchedulerInit)
        return { d with sch := some sch }
      | some sch =>
        match SchedulerDo m.clock now sch with
        | (_, .error f) => Act.of (.error f)
        | (walks, .ok sch) => do
          let calls := walks.flatMap fun walk => walk.visits.flatMap Prod.snd
          let w ← calls.foldlM (schedulerExec m L cfg svc fuel) d.world
          return { d with world := w, sch := some sch }

/-! ## A peer that connects -/

/-- `commandSocketListener`: the descriptor and the address `accept4`
gives. -/
def commandSocketListener (accepted : Option (Nat × SockaddrStorage)) (d : State) : Act State :=
  match accepted with
  | none => return d
  | some (userSock, clientAddr) => do
    match ← Act.of (SocketCheckACL cfg.controlACL clientAddr) with
    | .FAIL => return d
    | .PASS =>
      return { d with clients := Function.update d.clients userSock (some ⟨clientAddr, ⟨none⟩⟩) }

/-! ## A line of a client -/

variable (svc : XplService) (now : Int) (schedule : ScheduleAnswers) (fuel : Nat)

/-- The commands of `clientCommands`. -/
def runCommand (argv0 : CString) (args : List CString) (d : State) :
    Act (List Event × PassFail × State) :=
  if argv0 = cstr "exec" then
    match args with
    | [] => return ([], .FAIL, d)
    | name :: _ =>
      let (script, w) := d.world.DBFetchScript m name
      match script with
      | none => return ([], .FAIL, { d with world := w })
      | some script => do
        let (res, w) ← parseAndExecScript m L cfg svc script fuel w
        return ([.exec script], res, { d with world := w })
  else if argv0 = cstr "schreload" then do
    let sch ← Act.of (demand d.sch)
    let sch ← Act.of (SchedulerStop sch)
    let sch ← Act.of (SchedulerRemoveAllEntries sch)
    let sch ← Act.of (loadAndStart m schedule now sch)
    return ([.schreload], .PASS, { d with sch := some sch })
  else return ([], .FAIL, d)

/-- `interpretClientCommand`. -/
def interpretClientCommand (cl : CString) (d : State) : Act (List Event × State) := do
  match ← Act.of (Util.splitString cl 32) with
  | [] => Act.of (.error .nullDeref)
  | argv0 :: args => do
    let (es, res, d) ← runCommand m L cfg svc now schedule fuel argv0 args d
    return (es ++ [.print (commandReply res)], d)

/-- The part of `clientCommandListener` for a line outside of a transfer. -/
def commandLine (line : CString) (d : State) : Act (List Event × ConnectionData × State) :=
  if strncmp (cstr "cl:") line 3 then do
    let (es, d) ← interpretClientCommand m L cfg svc now schedule fuel (line.drop 3) d
    return (.command (line.drop 3) :: es, ⟨none⟩, d)
  else if strncmp (cstr "ss:") line 3 then
    let (theScript, w) := d.world.DBFetchScript m (line.drop 3)
    match theScript with
    | some theScript => do
      let stream ← Act.of (MonitorSendScript theScript (line.drop 3))
      return (.sendScript (line.drop 3) :: stream.map .print, ⟨none⟩, { d with world := w })
    | none =>
      return ([.sendScript (line.drop 3), .print (cstr "er:Script not in database\n")], ⟨none⟩,
        { d with world := w })
  else if strncmp (cstr "rs:") line 3 then return ([.receiveScript], ⟨some .initial⟩, d)
  else return ([], ⟨none⟩, d)

/-- The end of a transfer. -/
def processScript (ri : MonRcvInfo) (d : State) : Act (List Event × ConnectionData × State) :=
  if ri.state ≠ .RS_ERROR then do
    let name ← Act.of (demand ri.name)
    let (res, w) := d.world.DBIRScript m name ri.script
    return ([.DBIRScript name ri.script, .print (match res with
      | .PASS => cstr "ok:\n"
      | .FAIL => cstr "er:Could not save script\n")], ⟨none⟩, { d with world := w })
  else return ([.print (cstr "er:Script receive error\n")], ⟨none⟩, d)

/-- The part of `clientCommandListener` for a line of a transfer. -/
def scriptLine (ri : MonRcvInfo) (line : CString) (d : State) :
    Act (List Event × ConnectionData × State) := do
  let (ri, done) ← Act.of (MonitorRecvScript ri line)
  if done then do
    let (es, cdp, d) ← processScript m ri d
    return (.received line :: es, cdp, d)
  else return ([.received line], ⟨some ri⟩, d)

/-- The line read is acted on. -/
def actOn (cdp : ConnectionData) (line : CString) (d : State) :
    Act (List Event × ConnectionData × State) :=
  match cdp.rcvInfo with
  | some ri => scriptLine m ri line d
  | none => commandLine m L cfg svc now schedule fuel line d

/-- `clientCommandListener`, with what `SocketReadLine` has given it. -/
def clientCommandListener (userSock : Nat) (result : LineResult) (d : State) :
    Act (List Event × State) := do
  let client ← Act.of (demand (d.clients userSock))
  let (es, cdp, d) ← match result.line with
    | none => pure ([], client.data, d)
    | some raw =>
      if result.length ≠ 0 then actOn m L cfg svc now schedule fuel client.data (cutNul raw) d
      else pure ([], client.data, d)
  if result.length = 0 then
    return (es ++ [.closed], { d with clients := Function.update d.clients userSock none })
  else
    return (es, { d with
      clients := Function.update d.clients userSock (some ⟨client.clientAddr, cdp⟩) })

end

/-! ## The callbacks together -/

/-- A callback with its arguments. The service is as the library has it
then, and the scheduler table as it is read then. -/
inductive Callback
  | xPLListener (theMessage : XplMessage) (theService : XplService) (msgClass : XPLMessageClass)
      (broadcast : Bool) (subAddress : Unassigned)
  | tickHandler (xplEventService : Option XplService) (now : Int) (schedule : ScheduleAnswers)
  | commandSocketListener (accepted : Option (Nat × SockaddrStorage))
  | clientCommandListener (userSock : Nat) (result : LineResult) (xplEventService : XplService)
      (now : Int) (schedule : ScheduleAnswers)

/-- A callback is made: what the listener of a client does, and the state
after it. -/
def step {D P : Type} (m : Machine D) (L : Lemon P) (cfg : Config) (fuel : Nat) (d : State) :
    Callback → Act (List Event × State)
  | .xPLListener theMessage theService msgClass broadcast subAddress => do
    let w ← xPLListener m L cfg theMessage theService msgClass broadcast subAddress fuel d.world
    return ([], { d with world := w })
  | .tickHandler xplEventService now schedule => do
    let d ← tickHandler m L cfg xplEventService now schedule fuel d
    return ([], d)
  | .commandSocketListener accepted => do
    let d ← commandSocketListener cfg accepted d
    return ([], d)
  | .clientCommandListener userSock result svc now schedule =>
    clientCommandListener m L cfg svc now schedule fuel userSock result d

end XplEvent.Daemon
