import XplEvent.Lib.Walk
import XplEvent.Wire.Received

/-!
# The dispatcher of `rxReadyAction`

A received message is offered to every service of the list in turn. The
turn of a service classifies the message, compares its source with the
service's own, moves the hub discovery and the heartbeat timer of the
service on, and decides whether to call its listener. The message is one
object for the whole list: `isUs` and `messageClass` are written into it
in each turn.

The listener is the user's. Nothing it could do to the services or to the
message is modelled: a call is an event with what it is called with.
-/

namespace XplEvent.Service

open Wire

/-- `ASSERT_FAIL` of a pointer. -/
def ASSERT_SET {α : Type} : Option α → Except Fault α
  | some a => .ok a
  | none => .error .assertion

/-- A call of a listener and its arguments, the user object with it. -/
structure ListenerCall where
  listener : XplListener
  theMessage : XplMessage
  theService : XplService
  messageClass : XPLMessageClass
  isUs : Bool
  isBroadcastMessage : Bool
deriving DecidableEq, Repr

/-- The classification, and whether the message requests a heartbeat. The
class of an `hbeat.request` is left as it is. -/
def classifyMessage (xm : XplMessage) : Except Fault (XplMessage × Bool) := do
  let _ ← ASSERT_SET xm.sourceVendor
  let sourceDeviceID ← ASSERT_SET xm.sourceDeviceID
  let _ ← ASSERT_SET xm.sourceInstanceID
  let schemaType ← ASSERT_SET xm.schemaType
  let schemaClass ← ASSERT_SET xm.schemaClass
  let isApp := schemaType = cstr "app"
  let isHbeat := schemaClass = cstr "hbeat"
  if isApp ∧ isHbeat then
    return ({ xm with messageClass := .XPL_MSG_CLASS_HEARTBEAT }, false)
  else if schemaType = cstr "xpl" ∧ schemaClass = cstr "group" then
    return ({ xm with messageClass := .XPL_MSG_CLASS_GROUP }, false)
  else if isApp ∧ sourceDeviceID = cstr "config" then
    return ({ xm with messageClass := .XPL_MSG_CLASS_CONFIG }, false)
  else if isHbeat ∧ schemaType = cstr "request" then
    -- `getNamedValue` may come back with `NULL`
    let xnv ← deref (← getNamedValue (cstr "command") xm.nvList)
    let itemValue ← deref xnv.itemValue
    return (xm, itemValue = cstr "request")
  else
    return ({ xm with messageClass := .XPL_MSG_CLASS_NORMAL }, false)

/-- The answer to a heartbeat request: the timer is brought near its end. -/
def requestHeartbeat (cse : XplService) : XplService :=
  let heartbeatTimer := cse.heartbeatTimer % 7
  { cse with
    heartbeatTimer := if heartbeatTimer < 2 then heartbeatTimer + 2 else heartbeatTimer }

/-- `matchCount` after the three comparisons with a service's own tag. -/
def matchCount (cse : XplService) (vendor deviceID instanceID : Option CString) : Nat :=
  (if deviceID = some cse.serviceDeviceID then 1 else 0) +
    (if vendor = some cse.serviceVendor then 1 else 0) +
    (if instanceID = some cse.serviceInstanceID then 1 else 0)

/-- The test for `isUs`, over a message whose source is set. -/
def testIsUs (xm : XplMessage) (cse : XplService) : XplMessage :=
  { xm with
    isUs := matchCount cse xm.sourceVendor xm.sourceDeviceID xm.sourceInstanceID ≥ 3 }

/-- A heartbeat of its own that a service hears confirms the hub. -/
def confirmHub (xm : XplMessage) (cse : XplService) : XplService :=
  if xm.isUs ∧ cse.discoveryState ≠ .XPL_HUB_CONFIRMED ∧
      xm.messageClass = .XPL_MSG_CLASS_HEARTBEAT then
    { cse with discoveryState := .XPL_HUB_CONFIRMED, heartbeatTimer := cse.heartbeatInterval }
  else cse

/-- Where the turn of a service goes from the decision what to report. -/
inductive Verdict
  | callit
  | next
  | cleanup
deriving DecidableEq, Repr

/-- The test whether a message is targeted at the service. -/
def matchTarget (xm : XplMessage) (cse : XplService) : Bool :=
  if xm.targetDeviceID.isSome ∧ xm.targetVendor.isSome ∧ xm.targetInstanceID.isSome then
    matchCount cse xm.targetVendor xm.targetDeviceID xm.targetInstanceID ≥ 3
  else false

/-- The match of a broadcast, group or targeted message. -/
def matchMessage (xm : XplMessage) (cse : XplService) : Bool :=
  if xm.isBroadcastMessage then !xm.isUs
  else if xm.messageClass = .XPL_MSG_CLASS_GROUP then cse.reportGroupMessages
  else matchTarget xm cse

/-- `reportIt` as the report mode alone sets it. -/
def modeReports (xm : XplMessage) : XPLListenerReportMode → Bool
  | .XPL_REPORT_EVERYTHING => true
  | .XPL_REPORT_OWN_MESSAGES => xm.isUs
  | _ => false

/-- The decision what to report. The listener is called inside the test
for a message that the report mode alone does not report. -/
def decideReport (xm : XplMessage) (cse : XplService) : Verdict :=
  if cse.reportMode = .XPL_REPORT_CONFIG_MESSAGES_ONLY then
    if xm.messageClass = .XPL_MSG_CLASS_CONFIG then .callit else .cleanup
  else if modeReports xm cse.reportMode then .next
  else if matchMessage xm cse then .callit
  else .next

/-- The call of a service's listener, if it has one. -/
def callListener (xm : XplMessage) (cse : XplService) : Option ListenerCall :=
  cse.listener.map fun listener =>
    ⟨listener, xm, cse, xm.messageClass, xm.isUs, xm.isBroadcastMessage⟩

/-- What a service's turn leaves: the service, and the call if there was
one. -/
abbrev Outcome := XplService × Option ListenerCall

/-- The turn of a service; it goes on with the next unless it jumped to
`cleanup`. -/
def serviceTurn (xm : XplMessage) (cse : XplService) :
    Except Fault (XplMessage × Outcome × Bool) := do
  let (xm, request) ← classifyMessage { xm with isUs := false }
  let cse := if request then requestHeartbeat cse else cse
  let xm := testIsUs xm cse
  let cse := confirmHub xm cse
  match decideReport xm cse with
  | .callit => return (xm, (cse, callListener xm cse), true)
  | .next => return (xm, (cse, none), true)
  | .cleanup => return (xm, (cse, none), false)

/-- The traversal of the service list. -/
def dispatch (xm : XplMessage) (servHead : List XplService) : Except Fault (List Outcome) :=
  Lib.walk serviceTurn (fun cse => (cse, none)) xm servHead

/-! ## The turn of a service over a well-formed message -/

/-- The class of a message. -/
def classOf (xm : XplMessage) : XPLMessageClass :=
  if xm.schemaType = some (cstr "app") ∧ xm.schemaClass = some (cstr "hbeat") then
    .XPL_MSG_CLASS_HEARTBEAT
  else if xm.schemaType = some (cstr "xpl") ∧ xm.schemaClass = some (cstr "group") then
    .XPL_MSG_CLASS_GROUP
  else if xm.schemaType = some (cstr "app") ∧ xm.sourceDeviceID = some (cstr "config") then
    .XPL_MSG_CLASS_CONFIG
  else .XPL_MSG_CLASS_NORMAL

/-- An `hbeat.request`. -/
def IsRequest (xm : XplMessage) : Prop :=
  xm.schemaClass = some (cstr "hbeat") ∧ xm.schemaType = some (cstr "request")

/-- An `hbeat.request` with no `command` pair: the dispatcher follows the
null pointer `getNamedValue` returns. -/
def RequestWithoutCommand (xm : XplMessage) : Prop :=
  IsRequest xm ∧ ∀ nvp ∈ xm.nvList, nvp.itemName ≠ cstr "command"

instance (xm : XplMessage) : Decidable (IsRequest xm) :=
  inferInstanceAs (Decidable (_ ∧ _))

instance (xm : XplMessage) : Decidable (RequestWithoutCommand xm) :=
  inferInstanceAs (Decidable (_ ∧ _))

/-- An `hbeat.request` whose command is `request`. -/
def requestsHeartbeat (xm : XplMessage) : Bool :=
  IsRequest xm ∧ ((xm.nvList.find? fun nvp => cstr "command" = nvp.itemName).bind
    (·.itemValue)) = some (cstr "request")

/-- The classification of a message that is no `hbeat.request`. -/
theorem classifyMessage_other {xm : XplMessage} (h : xm.WellFormed) (hr : ¬ IsRequest xm) :
    classifyMessage xm = .ok ({ xm with messageClass := classOf xm }, false) := by
  obtain ⟨sourceVendor, hsv⟩ := Option.isSome_iff_exists.mp h.sourceVendor
  obtain ⟨sourceDeviceID, hsd⟩ := Option.isSome_iff_exists.mp h.sourceDeviceID
  obtain ⟨sourceInstanceID, hsi⟩ := Option.isSome_iff_exists.mp h.sourceInstanceID
  obtain ⟨schemaClass, hclass⟩ := Option.isSome_iff_exists.mp h.schemaClass
  obtain ⟨schemaType, htype⟩ := Option.isSome_iff_exists.mp h.schemaType
  unfold IsRequest at hr
  rw [hclass, htype, Option.some_inj, Option.some_inj] at hr
  simp only [classifyMessage, classOf, hsv, hsd, hsi, hclass, htype, ASSERT_SET, bind, Except.bind,
    pure, Except.pure, Option.some_inj, hr, if_false]
  split
  · rfl
  · split
    · rfl
    · split
      · rfl
      · rfl

/-- The classification of an `hbeat.request` that names a command. -/
theorem classifyMessage_request {xm : XplMessage} (h : xm.WellFormed) (hr : IsRequest xm) :
    classifyMessage xm = if RequestWithoutCommand xm then .error .nullDeref
      else .ok (xm, requestsHeartbeat xm) := by
  obtain ⟨sourceVendor, hsv⟩ := Option.isSome_iff_exists.mp h.sourceVendor
  obtain ⟨sourceDeviceID, hsd⟩ := Option.isSome_iff_exists.mp h.sourceDeviceID
  obtain ⟨sourceInstanceID, hsi⟩ := Option.isSome_iff_exists.mp h.sourceInstanceID
  have hfind : getNamedValue (cstr "command") xm.nvList =
      .ok (xm.nvList.find? fun nvp => cstr "command" = nvp.itemName) :=
    getNamedValue_eq_find fun nvp hn => (h.nvList nvp hn).valid
  have happ : cstr "request" ≠ cstr "app" := by decide
  have hxpl : cstr "request" ≠ cstr "xpl" := by decide
  obtain ⟨hclass, htype⟩ := hr
  have hif : RequestWithoutCommand xm ↔
      xm.nvList.find? (fun nvp => cstr "command" = nvp.itemName) = none := by
    rw [List.find?_eq_none]
    constructor
    · intro hk nvp hn heq
      exact hk.2 nvp hn (of_decide_eq_true heq).symm
    · intro hnone
      exact ⟨⟨hclass, htype⟩, fun nvp hn heq => hnone nvp hn (decide_eq_true heq.symm)⟩
  simp only [classifyMessage, hsv, hsd, hsi, hclass, htype, ASSERT_SET, bind, Except.bind, pure,
    Except.pure, happ, hxpl, false_and, if_false, hfind]
  cases hc : xm.nvList.find? (fun nvp => cstr "command" = nvp.itemName) with
  | none =>
    rw [if_pos (hif.mpr hc)]
    rfl
  | some nvp =>
    have hn := List.mem_of_find?_eq_some hc
    obtain ⟨itemValue, hv⟩ := Option.isSome_iff_exists.mp (h.nvList nvp hn).value
    have hk : ¬ RequestWithoutCommand xm := by
      intro hk
      rw [hif.mp hk] at hc
      cases hc
    rw [if_neg hk]
    simp [requestsHeartbeat, IsRequest, hc, hv, hclass, htype]

theorem classOf_request {xm : XplMessage} (hr : IsRequest xm) :
    classOf xm = .XPL_MSG_CLASS_NORMAL := by
  have happ : cstr "request" ≠ cstr "app" := by decide
  have hxpl : cstr "request" ≠ cstr "xpl" := by decide
  unfold classOf
  simp only [hr.2, Option.some_inj, happ, hxpl, false_and, if_false]

/-- **The classification of a well-formed message**: it fails, or writes
the class. -/
theorem classifyMessage_eq {xm : XplMessage} (h : xm.WellFormed) :
    classifyMessage xm = if RequestWithoutCommand xm then .error .nullDeref
      else .ok ({ xm with messageClass := classOf xm }, requestsHeartbeat xm) := by
  by_cases hr : IsRequest xm
  · rw [classifyMessage_request h hr, classOf_request hr, ← h.unclassified hr.1 hr.2]
  · have hk : ¬ RequestWithoutCommand xm := fun hk => hr hk.1
    have hrequests : requestsHeartbeat xm = false := by
      unfold requestsHeartbeat
      simp only [hr, false_and, decide_false]
    rw [classifyMessage_other h hr, if_neg hk, hrequests]

/-- The message in a service's turn. -/
def heard (xm : XplMessage) (cse : XplService) : XplMessage :=
  testIsUs { xm with messageClass := classOf xm } cse

/-- The service after its turn. -/
def served (xm : XplMessage) (cse : XplService) : XplService :=
  confirmHub (heard xm cse) (if requestsHeartbeat xm then requestHeartbeat cse else cse)

theorem confirmHub_frame (xm : XplMessage) (cse : XplService) :
    ∃ discoveryState heartbeatTimer, confirmHub xm cse = { cse with
      discoveryState := discoveryState, heartbeatTimer := heartbeatTimer } := by
  unfold confirmHub
  split
  · exact ⟨_, _, rfl⟩
  · exact ⟨_, _, rfl⟩

/-- A turn moves only the discovery state and the timer of a service. -/
theorem served_frame (xm : XplMessage) (cse : XplService) :
    ∃ discoveryState heartbeatTimer, served xm cse = { cse with
      discoveryState := discoveryState, heartbeatTimer := heartbeatTimer } := by
  unfold served
  split
  · obtain ⟨discoveryState, heartbeatTimer, h⟩ :=
      confirmHub_frame (heard xm cse) (requestHeartbeat cse)
    exact ⟨discoveryState, heartbeatTimer, h⟩
  · exact confirmHub_frame (heard xm cse) cse

/-- The outcome of a service's turn, and whether the next has one. -/
def turnOf (xm : XplMessage) (cse : XplService) : Outcome × Bool :=
  match decideReport (heard xm cse) (served xm cse) with
  | .callit => ((served xm cse, callListener (heard xm cse) (served xm cse)), true)
  | .next => ((served xm cse, none), true)
  | .cleanup => ((served xm cse, none), false)

theorem turnOf_call (xm : XplMessage) (cse : XplService) : (turnOf xm cse).1.2 =
    if decideReport (heard xm cse) (served xm cse) = .callit then
      callListener (heard xm cse) (served xm cse)
    else none := by
  unfold turnOf
  cases decideReport (heard xm cse) (served xm cse) with
  | callit => rfl
  | next => rfl
  | cleanup => rfl

theorem turnOf_service (xm : XplMessage) (cse : XplService) :
    (turnOf xm cse).1.1 = served xm cse := by
  unfold turnOf
  split
  · rfl
  · rfl
  · rfl

theorem turnOf_goes_on (xm : XplMessage) (cse : XplService) : (turnOf xm cse).2 =
    (decideReport (heard xm cse) (served xm cse) != .cleanup) := by
  unfold turnOf
  cases decideReport (heard xm cse) (served xm cse) with
  | callit => rfl
  | next => rfl
  | cleanup => rfl

theorem serviceTurn_eq {xm : XplMessage} (h : xm.WellFormed) (cse : XplService) :
    serviceTurn xm cse = if RequestWithoutCommand xm then .error .nullDeref
      else .ok (heard xm cse, turnOf xm cse) := by
  have h' : ({ xm with isUs := false } : XplMessage).WellFormed := { h with }
  have hkeep : RequestWithoutCommand { xm with isUs := false } ↔ RequestWithoutCommand xm := Iff.rfl
  have hheard : testIsUs { xm with isUs := false, messageClass := classOf xm } cse =
      heard xm cse := rfl
  have hanswered : testIsUs { xm with isUs := false, messageClass := classOf xm }
      (requestHeartbeat cse) = heard xm cse := rfl
  have hclass : classOf { xm with isUs := false } = classOf xm := rfl
  have hrequests : requestsHeartbeat { xm with isUs := false } = requestsHeartbeat xm := rfl
  unfold serviceTurn
  rw [classifyMessage_eq h', hclass, hrequests]
  by_cases hk : RequestWithoutCommand xm
  · rw [if_pos hk, if_pos (hkeep.mpr hk)]
    rfl
  · rw [if_neg hk, if_neg (mt hkeep.mp hk)]
    simp only [bind, Except.bind, pure, Except.pure, turnOf, served]
    cases requestsHeartbeat xm with
    | true =>
      rw [if_pos rfl, hanswered]
      split
      · rfl
      · rfl
      · rfl
    | false =>
      rw [if_neg Bool.false_ne_true, hheard]
      split
      · rfl
      · rfl
      · rfl

/-- A turn leaves a message that the next turns read as the one before. -/
theorem serviceTurn_heard {xm : XplMessage} (h : xm.WellFormed) (cse : XplService) :
    serviceTurn (heard xm cse) = serviceTurn xm := by
  have h' : (heard xm cse).WellFormed :=
    { h with unclassified := fun hc ht => classOf_request ⟨hc, ht⟩ }
  funext c
  rw [serviceTurn_eq h, serviceTurn_eq h']
  rfl

/-! ## The traversal -/

/-- **The traversal of a well-formed message**: every service's outcome is
the one of its own turn, up to the first turn that jumps to `cleanup`. -/
theorem dispatch_eq {xm : XplMessage} (h : xm.WellFormed) (hk : ¬ RequestWithoutCommand xm)
    (servHead : List XplService) :
    dispatch xm servHead = .ok (Lib.outcomes (turnOf xm) (fun cse => (cse, none)) servHead) := by
  refine Lib.walk_eq_outcomes (fun cse => ⟨heard xm cse, ?_, serviceTurn_heard h cse⟩) _ _
  rw [serviceTurn_eq h, if_neg hk]

/-- An `hbeat.request` without a command is fatal to the first turn. -/
theorem dispatch_fault {xm : XplMessage} (h : xm.WellFormed) (hk : RequestWithoutCommand xm)
    (cse : XplService) (servHead : List XplService) :
    dispatch xm (cse :: servHead) = .error .nullDeref := by
  refine Lib.walk_error ?_ _ _
  rw [serviceTurn_eq h, if_pos hk]

end XplEvent.Service
