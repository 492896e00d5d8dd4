import XplEvent.Base

/-!
# Messages and services — the records of `xplcore.c`

`xplMessage_t`, its name/value list and `xplService_t`, with the
functions that create messages and change them. A string field that may
be `NULL` is an `Option`: a zeroed message has none of them set.

The name/value list is the list from `nvHead` by `next`. An entry keeps
its magic number, because only one of the two places that make an entry
sets it (`newNameValueListEntry` does, `addMessageNamedValue` leaves the
zero of `talloc_zero`) and the readers check it.
-/

namespace XplEvent.Wire

/-- `XPLMessageType_t`. -/
inductive XPLMessageType
  | XPL_MESSAGE_ANY
  | XPL_MESSAGE_COMMAND
  | XPL_MESSAGE_STATUS
  | XPL_MESSAGE_TRIGGER
deriving DecidableEq, Repr

/-- `XPLListenerReportMode_t`. -/
inductive XPLListenerReportMode
  | XPL_REPORT_MODE_NORMAL
  | XPL_REPORT_OWN_MESSAGES
  | XPL_REPORT_EVERYTHING
  | XPL_REPORT_CONFIG_MESSAGES_ONLY
deriving DecidableEq, Repr

/-- `XPLDiscoveryState_t`. -/
inductive XPLDiscoveryState
  | XPL_HUB_UNCONFIRMED
  | XPL_HUB_NO_ECHO
  | XPL_HUB_CONFIRMED
deriving DecidableEq, Repr

/-- `XPLMessageClass_t`. -/
inductive XPLMessageClass
  | XPL_MSG_CLASS_NORMAL
  | XPL_MSG_CLASS_GROUP
  | XPL_MSG_CLASS_HEARTBEAT
  | XPL_MSG_CLASS_CONFIG
deriving DecidableEq, Repr

def XNV_MAGIC : UInt32 := 0x7983E098

/-- `xplNameValueLE_t`. -/
structure XplNameValueLE where
  magic : UInt32
  itemName : CString
  itemValue : Option CString
deriving DecidableEq, Repr

/-- `xplMessage_t`, without its transmit buffer and the pointers back to
the master object and the memory contexts. `serviceObj` says whether the
message is a sendable one. -/
structure XplMessage where
  messageType : XPLMessageType
  hopCount : Int
  sourceVendor : Option CString
  sourceDeviceID : Option CString
  sourceInstanceID : Option CString
  targetVendor : Option CString
  targetDeviceID : Option CString
  targetInstanceID : Option CString
  schemaClass : Option CString
  schemaType : Option CString
  messageClass : XPLMessageClass
  isUs : Bool
  isBroadcastMessage : Bool
  serviceObj : Bool
  nvList : List XplNameValueLE
deriving DecidableEq, Repr

/-- A listener with the user object it is called with. -/
structure XplListener where
  func : Nat
  userListenerObject : Nat
deriving DecidableEq, Repr

/-- `xplService_t`, without its list links and the time of the last
heartbeat, which nothing reads. -/
structure XplService where
  serviceEnabled : Bool
  configurableService : Bool
  serviceConfigured : Bool
  heartbeatInterval : Nat
  heartbeatTimer : Nat
  discoveryTries : Nat
  discoveryState : XPLDiscoveryState
  reportMode : XPLListenerReportMode
  reportGroupMessages : Bool
  serviceVendor : CString
  serviceDeviceID : CString
  serviceInstanceID : CString
  serviceVersion : Option CString
  heartbeatMessage : Option XplMessage
  listener : Option XplListener
deriving DecidableEq, Repr

/-- A zeroed message, as `talloc_zero` leaves it. -/
def XplMessage.zero : XplMessage where
  messageType := .XPL_MESSAGE_ANY
  hopCount := 0
  sourceVendor := none
  sourceDeviceID := none
  sourceInstanceID := none
  targetVendor := none
  targetDeviceID := none
  targetInstanceID := none
  schemaClass := none
  schemaType := none
  messageClass := .XPL_MSG_CLASS_NORMAL
  isUs := false
  isBroadcastMessage := false
  serviceObj := false
  nvList := []

/-- `createReceivedMessage`. -/
def createReceivedMessage (msgType : XPLMessageType) : XplMessage :=
  { XplMessage.zero with messageType := msgType }

/-- `createSendableMessage`. -/
def createSendableMessage (xs : XplService) (messageType : XPLMessageType) : XplMessage :=
  { XplMessage.zero with
    serviceObj := true
    messageType := messageType
    hopCount := 1
    sourceVendor := some xs.serviceVendor
    sourceDeviceID := some xs.serviceDeviceID
    sourceInstanceID := some xs.serviceInstanceID }

/-- `createTargetedMessage`. -/
def createTargetedMessage (xs : XplService) (messageType : XPLMessageType)
    (theVendor theDevice theInstance : CString) : XplMessage :=
  { createSendableMessage xs messageType with
    targetVendor := some theVendor
    targetDeviceID := some theDevice
    targetInstanceID := some theInstance }

/-- `createBroadcastMessage`. -/
def createBroadcastMessage (xs : XplService) (messageType : XPLMessageType) : XplMessage :=
  { createSendableMessage xs messageType with isBroadcastMessage := true }

/-! ## Name/value lists -/

/-- `newNameValueListEntry`, with the name and value `parseBlock` stores. -/
def newNameValueListEntry (name value : CString) : XplNameValueLE := ⟨XNV_MAGIC, name, some value⟩

/-- `addMessageNamedValue`: the entry is zeroed, its magic never set. -/
def addMessageNamedValue (xm : XplMessage) (name value : CString) : XplMessage :=
  { xm with nvList := xm.nvList ++ [⟨0, name, some value⟩] }

/-- `getNamedValue`: the first entry of that name. Each entry passed has
its magic checked. -/
def getNamedValue (name : CString) : List XplNameValueLE → Except Fault (Option XplNameValueLE)
  | [] => .ok none
  | nvp :: rest => do
    ASSERT_FAIL (nvp.magic = XNV_MAGIC)
    if name = nvp.itemName then return some nvp else getNamedValue name rest

/-- `XplSetMessageClassType` with both strings given. -/
def XplSetMessageClassType (xm : XplMessage) (theClass theType : CString) : XplMessage :=
  { xm with schemaClass := some theClass, schemaType := some theType }

/-- `XplClearNameValues`. -/
def XplClearNameValues (xm : XplMessage) : XplMessage := { xm with nvList := [] }

/-- An entry whose magic number passes the readers' check. -/
def XplNameValueLE.Valid (nvp : XplNameValueLE) : Prop := nvp.magic = XNV_MAGIC

/-- Over valid entries `getNamedValue` is a plain search. -/
theorem getNamedValue_eq_find {name : CString} {nvs : List XplNameValueLE}
    (h : ∀ nvp ∈ nvs, nvp.Valid) :
    getNamedValue name nvs = .ok (nvs.find? fun nvp => name = nvp.itemName) := by
  induction nvs with
  | nil => rfl
  | cons nvp rest ih =>
    have hmagic : nvp.magic = XNV_MAGIC := h nvp List.mem_cons_self
    have hrest := ih fun q hq => h q (List.mem_cons_of_mem _ hq)
    simp only [getNamedValue, hmagic, decide_true, ASSERT_FAIL_true]
    by_cases hname : name = nvp.itemName
    · simp only [hname, List.find?_cons, decide_true, if_true]
      rfl
    · simp only [hname, List.find?_cons, decide_false, if_false]
      exact hrest

end XplEvent.Wire
