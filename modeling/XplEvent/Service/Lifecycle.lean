import XplEvent.Lib.Monitor
import XplEvent.Service.Dispatch
import XplEvent.Wire.Format

/-!
# The life of a service

Services are created disabled, enabled and disabled by their owner, given
a listener, and moved on by the tick of every second and by what is
received. A step of the system is one of these; it logs what happens to
which service, with the service's place in the list as its name.

A message that is to be sent is written to a socket. Whether the socket
takes it is part of the step. The flag that says whether a service is
enabled is logged whenever it is written.
-/

namespace XplEvent.Service

open Wire

def DEFAULT_HEARTBEAT_INTERVAL : Nat := 300

def CONFIG_HEARTBEAT_INTERVAL : Nat := 60

def HUB_DISCOVERY_INTERVAL : Nat := 3

def HUB_NO_ECHO_INTERVAL : Nat := 60

def DISCOVERY_MAX_TRIES : Nat := 40

/-- What happens to a service. -/
inductive ServiceEvent
  | enabled
  | disabled
  | heartbeat (theHeartbeat : XplMessage)
  | goodbye (theHeartbeat : XplMessage)
  | listener (call : ListenerCall)
deriving DecidableEq, Repr

/-- `xplObj_t`: the tick counter, what a heartbeat says of the process,
and the list of services. -/
structure XplObj where
  ticks : Nat
  localConnPort : Nat
  remoteIP : CString
  servHead : List XplService
deriving DecidableEq, Repr

/-! ## Heartbeats -/

/-- `Heartbeat_t`. -/
inductive Heartbeat
  | HBEAT_NORMAL
  | HBEAT_CONFIG
  | HBEAT_NORMAL_END
  | HBEAT_CONFIG_END
deriving DecidableEq, Repr

/-- The schema class, the schema type and the interval of a heartbeat. -/
def Heartbeat.schema (xs : XplService) : Heartbeat → CString × CString × CString
  | .HBEAT_NORMAL => (cstr "hbeat", cstr "app", printDecimal (xs.heartbeatInterval / 60))
  | .HBEAT_NORMAL_END => (cstr "hbeat", cstr "end", printDecimal (xs.heartbeatInterval / 60))
  | .HBEAT_CONFIG => (cstr "config", cstr "app", printDecimal (CONFIG_HEARTBEAT_INTERVAL / 60))
  | .HBEAT_CONFIG_END => (cstr "config", cstr "app", printDecimal (CONFIG_HEARTBEAT_INTERVAL / 60))

/-- `createHeartbeatMessage`. -/
def createHeartbeatMessage (xp : XplObj) (xs : XplService) (heartbeatType : Heartbeat) :
    XplMessage :=
  let (theClass, theType, interval) := heartbeatType.schema xs
  let theHeartbeat :=
    XplSetMessageClassType (createBroadcastMessage xs .XPL_MESSAGE_STATUS) theClass theType
  let theHeartbeat := addMessageNamedValue theHeartbeat (cstr "interval") interval
  let theHeartbeat :=
    addMessageNamedValue theHeartbeat (cstr "port") (printDecimal xp.localConnPort)
  let theHeartbeat := addMessageNamedValue theHeartbeat (cstr "remote-ip") xp.remoteIP
  match xs.serviceVersion with
  | some version => addMessageNamedValue theHeartbeat (cstr "version") version
  | none => theHeartbeat

/-- `sendMessage`; `sent` says whether the socket takes the text. -/
def sendMessage (xm : XplMessage) (sent : Bool) : Except Fault Bool := do
  match ← formatMessage xm with
  | none => return false
  | some _ => return sent

/-- The heartbeat to send: the one kept with the service, or a new one. -/
def currentHeartbeat (xp : XplObj) (xs : XplService) : XplMessage :=
  match xs.heartbeatMessage with
  | some theHeartbeat => theHeartbeat
  | none =>
    createHeartbeatMessage xp xs
      (if xs.configurableService ∧ ¬ xs.serviceConfigured then .HBEAT_CONFIG else .HBEAT_NORMAL)

/-- The timer and the discovery state behind a heartbeat that was sent. -/
def resetHeartbeatTimer (xs : XplService) : XplService :=
  match xs.discoveryState with
  | .XPL_HUB_UNCONFIRMED =>
    let discoveryTries := xs.discoveryTries + 1
    if discoveryTries ≥ DISCOVERY_MAX_TRIES then
      { xs with
        discoveryTries := discoveryTries
        discoveryState := .XPL_HUB_NO_ECHO
        heartbeatTimer := HUB_NO_ECHO_INTERVAL }
    else { xs with discoveryTries := discoveryTries, heartbeatTimer := HUB_DISCOVERY_INTERVAL }
  | .XPL_HUB_NO_ECHO => { xs with heartbeatTimer := HUB_NO_ECHO_INTERVAL }
  | .XPL_HUB_CONFIRMED => { xs with heartbeatTimer := xs.heartbeatInterval }

/-- `sendHeartbeat`, with the message that went out if it returns `TRUE`. -/
def sendHeartbeat (xp : XplObj) (xs : XplService) (sent : Bool) :
    Except Fault (XplService × Option XplMessage) := do
  let theHeartbeat := currentHeartbeat xp xs
  let xs := { xs with heartbeatMessage := some theHeartbeat }
  if ← sendMessage theHeartbeat sent then
    return (resetHeartbeatTimer xs, some theHeartbeat)
  else return (xs, none)

/-- `sendGoodbyeHeartbeat`, with the message that went out if it returns
`TRUE`. -/
def sendGoodbyeHeartbeat (xp : XplObj) (xs : XplService) (sent : Bool) :
    Except Fault (Option XplMessage) := do
  let theHeartbeat := createHeartbeatMessage xp xs
    (if xs.configurableService ∧ ¬ xs.serviceConfigured then .HBEAT_CONFIG_END
    else .HBEAT_NORMAL_END)
  if ← sendMessage theHeartbeat sent then return some theHeartbeat else return none

/-! ## The functions on a service -/

/-- `setHeartbeatInterval`. -/
def setHeartbeatInterval (xs : XplService) (newInterval : Int) : XplService :=
  if newInterval < 0 ∨ newInterval > 172800 then xs
  else { xs with heartbeatInterval := newInterval.toNat }

/-- `createService`. The instance ID is the one given or the one
generated. -/
def createService (theVendor theDeviceID theInstanceID : CString) (theVersion : Option CString) :
    XplService :=
  setHeartbeatInterval {
    serviceEnabled := false
    configurableService := false
    serviceConfigured := false
    heartbeatInterval := 0
    heartbeatTimer := 0
    discoveryTries := 0
    discoveryState := .XPL_HUB_UNCONFIRMED
    reportMode := .XPL_REPORT_MODE_NORMAL
    reportGroupMessages := false
    serviceVendor := theVendor
    serviceDeviceID := theDeviceID
    serviceInstanceID := theInstanceID
    serviceVersion := theVersion
    heartbeatMessage := none
    listener := none } DEFAULT_HEARTBEAT_INTERVAL

/-- What a function does to one service: its events and, unless it fails,
the service. -/
abbrev Deed := List ServiceEvent × Except Fault XplService

/-- `setServiceState`. -/
def setServiceState (xp : XplObj) (newState sent : Bool) (xs : XplService) : Deed :=
  if xs.serviceEnabled = newState then ([], .ok xs)
  else
    let xs := { xs with serviceEnabled := newState }
    if newState then
      let xs := { xs with
        heartbeatMessage := none, discoveryState := .XPL_HUB_UNCONFIRMED, discoveryTries := 0 }
      match sendHeartbeat xp xs sent with
      | .error f => ([.enabled], .error f)
      | .ok (xs, out) => (.enabled :: out.toList.map .heartbeat, .ok xs)
    else
      match sendGoodbyeHeartbeat xp xs sent with
      | .error f => ([.disabled], .error f)
      | .ok out => (.disabled :: out.toList.map .goodbye, .ok xs)

/-- `XplAddMessageListener`. -/
def XplAddMessageListener (reportMode : XPLListenerReportMode) (reportGroupMessages : Bool)
    (listener : XplListener) (xs : XplService) : Deed :=
  ([], .ok { xs with
    reportMode := reportMode
    reportGroupMessages := reportGroupMessages
    listener := some listener })

/-- The turn of a service in `xplTick`. -/
def tickService (xp : XplObj) (sent : Bool) (xs : XplService) : Deed :=
  if xs.configurableService = false then
    if xs.heartbeatTimer = 0 then
      match sendHeartbeat xp xs sent with
      | .error f => ([], .error f)
      | .ok (xs, out) => (out.toList.map .heartbeat, .ok xs)
    else ([], .ok { xs with heartbeatTimer := xs.heartbeatTimer - 1 })
  else ([], .ok xs)

/-- The traversal of the service list in `xplTick`, from place `i` on. -/
def tickServices (xp : XplObj) (sent : Nat → Bool) :
    Nat → List XplService → List (List ServiceEvent) × Except Fault (List XplService)
  | _, [] => ([], .ok [])
  | i, xs :: rest =>
    match tickService xp (sent i) xs with
    | (es, .error f) => ([es], .error f)
    | (es, .ok xs) =>
      let (ess, result) := tickServices xp sent (i + 1) rest
      (es :: ess, result.map (xs :: ·))

/-! ## The steps of the system -/

/-- A step. A service is named by its place in the list; `sent` says
whether the socket takes what the step sends. -/
inductive Step
  | XplNewService (theVendor theDeviceID theInstanceID : CString) (theVersion : Option CString)
  | XplEnableService (servToEnable : Nat) (sent : Bool)
  | XplDisableService (servToDisable : Nat) (sent : Bool)
  | XplAddMessageListener (theService : Nat) (reportMode : XPLListenerReportMode)
      (reportGroupMessages : Bool) (listener : XplListener)
  /-- `timerRead`: the timer could be read; `wdog`: the receiver's
  watchdog has counted. -/
  | xplTick (timerRead wdog : Bool) (sent : Nat → Bool)
  /-- One turn of the loop of `rxReadyAction`, for one text. -/
  | received (theString : CString)

/-- A function of the interface applied to a service of the list. -/
def onService (xp : XplObj) (i : Nat) (deed : XplService → Deed) :
    List (Nat × ServiceEvent) × Except Fault XplObj :=
  match xp.servHead[i]? with
  | none => ([], .error .assertion)
  | some xs =>
    let (es, result) := deed xs
    (es.map fun e => (i, e), result.map fun xs => { xp with servHead := xp.servHead.set i xs })

/-- `xplTick`. -/
def xplTick (xp : XplObj) (timerRead wdog : Bool) (sent : Nat → Bool) :
    List (Nat × ServiceEvent) × Except Fault XplObj :=
  let xp := { xp with ticks := xp.ticks + 1 }
  if xp.ticks % 10 = 9 ∧ ¬ wdog then ([], .error .fatal)
  else if ¬ timerRead then ([], .ok xp)
  else
    let (ess, result) := tickServices xp sent 0 xp.servHead
    (Lib.tagged 0 ess, result.map fun servHead => { xp with servHead := servHead })

/-- One turn of the loop of `rxReadyAction`: a text that is not accepted
is passed over. -/
def received (xp : XplObj) (theString : CString) :
    List (Nat × ServiceEvent) × Except Fault XplObj :=
  match parseMessage theString with
  | .error f => ([], .error f)
  | .ok none => ([], .ok xp)
  | .ok (some xm) =>
    match dispatch xm xp.servHead with
    | .error f => ([], .error f)
    | .ok outcomes =>
      (Lib.tagged 0 (outcomes.map fun o => o.2.toList.map .listener),
        .ok { xp with servHead := outcomes.map (·.1) })

/-- The step function. -/
def step (xp : XplObj) : Step → List (Nat × ServiceEvent) × Except Fault XplObj
  | .XplNewService theVendor theDeviceID theInstanceID theVersion =>
    ([], .ok { xp with
      servHead := xp.servHead ++ [createService theVendor theDeviceID theInstanceID theVersion] })
  | .XplEnableService servToEnable sent =>
    onService xp servToEnable (setServiceState xp true sent)
  | .XplDisableService servToDisable sent =>
    onService xp servToDisable (setServiceState xp false sent)
  | .XplAddMessageListener theService reportMode reportGroupMessages listener =>
    onService xp theService (XplAddMessageListener reportMode reportGroupMessages listener)
  | .xplTick timerRead wdog sent => xplTick xp timerRead wdog sent
  | .received theString => received xp theString

/-- A process without services. -/
def sampleObj : XplObj := ⟨0, 50000, cstr "10.0.0.1", []⟩

end XplEvent.Service
