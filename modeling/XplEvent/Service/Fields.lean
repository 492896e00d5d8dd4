import XplEvent.Service.Delivery

/-!
# What the dispatcher reads of a message

`serviceTurn` compares fields that may be `NULL` as options, where the
source hands them to `strcmp`, which follows both its pointers. Here the
turn is written with every pointer followed. It is the same function: the
assertions at its head cover the source and the schema, and the target is
compared behind a test.

What is left is the pair that an `hbeat.request` is looked up for.
-/

namespace XplEvent.Service

open Wire

/-- `strcmp` of two strings, as the test for equality. -/
def strcmp (s1 s2 : Option CString) : Except Fault Bool := do
  let s1 ← deref s1
  let s2 ← deref s2
  return s1 = s2

/-- `matchCount`, by three calls of `strcmp`. -/
def matchCountFields (cse : XplService) (vendor deviceID instanceID : Option CString) :
    Except Fault Nat := do
  let device ← strcmp deviceID (some cse.serviceDeviceID)
  let vendor ← strcmp vendor (some cse.serviceVendor)
  let inst ← strcmp instanceID (some cse.serviceInstanceID)
  return (if device then 1 else 0) + (if vendor then 1 else 0) + (if inst then 1 else 0)

/-- `testIsUs`. -/
def testIsUsFields (xm : XplMessage) (cse : XplService) : Except Fault XplMessage := do
  let count ← matchCountFields cse xm.sourceVendor xm.sourceDeviceID xm.sourceInstanceID
  return { xm with isUs := count ≥ 3 }

/-- `matchTarget`. -/
def matchTargetFields (xm : XplMessage) (cse : XplService) : Except Fault Bool := do
  if xm.targetDeviceID.isSome ∧ xm.targetVendor.isSome ∧ xm.targetInstanceID.isSome then
    let count ← matchCountFields cse xm.targetVendor xm.targetDeviceID xm.targetInstanceID
    return count ≥ 3
  else return false

/-- `matchMessage`. -/
def matchMessageFields (xm : XplMessage) (cse : XplService) : Except Fault Bool :=
  if xm.isBroadcastMessage then .ok (!xm.isUs)
  else if xm.messageClass = .XPL_MSG_CLASS_GROUP then .ok cse.reportGroupMessages
  else matchTargetFields xm cse

/-- `decideReport`. -/
def decideReportFields (xm : XplMessage) (cse : XplService) : Except Fault Verdict := do
  if cse.reportMode = .XPL_REPORT_CONFIG_MESSAGES_ONLY then
    return if xm.messageClass = .XPL_MSG_CLASS_CONFIG then .callit else .cleanup
  else if modeReports xm cse.reportMode then return .next
  else if ← matchMessageFields xm cse then return .callit
  else return .next

/-- The turn of a service with every pointer followed. -/
def serviceTurnFields (xm : XplMessage) (cse : XplService) :
    Except Fault (XplMessage × Outcome × Bool) := do
  let (xm, request) ← classifyMessage { xm with isUs := false }
  let cse := if request then requestHeartbeat cse else cse
  let xm ← testIsUsFields xm cse
  let cse := confirmHub xm cse
  match ← decideReportFields xm cse with
  | .callit => return (xm, (cse, callListener xm cse), true)
  | .next => return (xm, (cse, none), true)
  | .cleanup => return (xm, (cse, none), false)

/-- The traversal with every pointer followed. -/
def dispatchFields (xm : XplMessage) (servHead : List XplService) :
    Except Fault (List Outcome) :=
  Lib.walk serviceTurnFields (fun cse => (cse, none)) xm servHead

/-! ## No pointer but the one of the pair is `NULL` -/

theorem matchCountFields_eq (cse : XplService) {vendor deviceID instanceID : Option CString}
    (hv : vendor.isSome = true) (hd : deviceID.isSome = true) (hi : instanceID.isSome = true) :
    matchCountFields cse vendor deviceID instanceID =
      .ok (matchCount cse vendor deviceID instanceID) := by
  obtain ⟨vendor, rfl⟩ := Option.isSome_iff_exists.mp hv
  obtain ⟨deviceID, rfl⟩ := Option.isSome_iff_exists.mp hd
  obtain ⟨instanceID, rfl⟩ := Option.isSome_iff_exists.mp hi
  simp [matchCountFields, matchCount, strcmp, bind, Except.bind, pure, Except.pure]

/-- The target is compared behind a test that all of it is there. -/
theorem matchTargetFields_eq (xm : XplMessage) (cse : XplService) :
    matchTargetFields xm cse = .ok (matchTarget xm cse) := by
  unfold matchTargetFields matchTarget
  split
  · rename_i h
    rw [matchCountFields_eq cse h.2.1 h.1 h.2.2]
    rfl
  · rfl

theorem decideReportFields_eq (xm : XplMessage) (cse : XplService) :
    decideReportFields xm cse = .ok (decideReport xm cse) := by
  have hmatch : matchMessageFields xm cse = .ok (matchMessage xm cse) := by
    unfold matchMessageFields matchMessage
    split
    · rfl
    · split
      · rfl
      · exact matchTargetFields_eq xm cse
  unfold decideReportFields decideReport
  rw [hmatch]
  split
  · rfl
  · split
    · rfl
    · simp only [bind, Except.bind]
      split
      · rfl
      · rfl

/-- A message that gets through the classification has its source. -/
theorem classifyMessage_source {xm xm' : XplMessage} {request : Bool}
    (h : classifyMessage xm = .ok (xm', request)) :
    xm'.sourceVendor.isSome = true ∧ xm'.sourceDeviceID.isSome = true ∧
      xm'.sourceInstanceID.isSome = true := by
  unfold classifyMessage at h
  obtain ⟨v, hv, h⟩ := bind_ok h
  obtain ⟨d, hd, h⟩ := bind_ok h
  obtain ⟨i, hi, h⟩ := bind_ok h
  obtain ⟨t, -, h⟩ := bind_ok h
  obtain ⟨c, -, h⟩ := bind_ok h
  have hset : ∀ {o : Option CString} {s : CString}, ASSERT_SET o = .ok s → o.isSome = true := by
    intro o s ho
    cases o with
    | none => cases ho
    | some s' => rfl
  have hsource : xm'.sourceVendor = xm.sourceVendor ∧ xm'.sourceDeviceID = xm.sourceDeviceID ∧
      xm'.sourceInstanceID = xm.sourceInstanceID := by
    simp only at h
    -- the branches write the class, or look the pair up
    repeat' split at h
    all_goals first
      | (cases h; exact ⟨rfl, rfl, rfl⟩)
      | (obtain ⟨_, -, h⟩ := bind_ok h
         obtain ⟨_, -, h⟩ := bind_ok h
         obtain ⟨_, -, h⟩ := bind_ok h
         cases h
         exact ⟨rfl, rfl, rfl⟩)
  rw [hsource.1, hsource.2.1, hsource.2.2]
  exact ⟨hset hv, hset hd, hset hi⟩

theorem bind_of_eq {α β : Type} {x : Except Fault α} {a : α} (h : x = .ok a)
    (f : α → Except Fault β) : x >>= f = f a := by
  rw [h]
  rfl

theorem serviceTurnFields_eq (xm : XplMessage) (cse : XplService) :
    serviceTurnFields xm cse = serviceTurn xm cse := by
  unfold serviceTurnFields serviceTurn
  rcases hclass : classifyMessage { xm with isUs := false } with f | ⟨xm', request⟩
  · rfl
  · obtain ⟨hv, hd, hi⟩ := classifyMessage_source hclass
    have hus : ∀ c : XplService, testIsUsFields xm' c = .ok (testIsUs xm' c) := by
      intro c
      unfold testIsUsFields testIsUs
      rw [matchCountFields_eq c hv hd hi]
      rfl
    exact (bind_of_eq (hus _) _).trans (bind_of_eq (decideReportFields_eq ..) _)

theorem dispatchFields_eq (xm : XplMessage) (servHead : List XplService) :
    dispatchFields xm servHead = dispatch xm servHead := by
  unfold dispatchFields dispatch
  rw [funext fun xm => funext fun cse => serviceTurnFields_eq xm cse]

/-! ## Dispatch of what the decoder accepts -/

/-- The traversal gets to its end: no null pointer is followed and no
assertion fails, and every service has handled or ignored the message. -/
def GetsThrough (xm : XplMessage) (servHead : List XplService) : Prop :=
  ∃ outcomes, dispatchFields xm servHead = .ok outcomes

/-- **What the dispatcher gets through**: every accepted message but the
`hbeat.request` without a command, and that one when there is no service
to look at it. -/
theorem getsThrough_iff {theText : CString} {xm : XplMessage}
    (h : parseMessage theText = .ok (some xm)) (servHead : List XplService) :
    GetsThrough xm servHead ↔ servHead = [] ∨ ¬ RequestWithoutCommand xm := by
  have hwf := parseMessage_wellFormed h
  unfold GetsThrough
  rw [dispatchFields_eq]
  constructor
  · rintro ⟨outcomes, ho⟩
    cases servHead with
    | nil => exact .inl rfl
    | cons cse rest =>
      refine .inr fun hk => ?_
      rw [dispatch_fault hwf hk cse rest] at ho
      cases ho
  · rintro (hnil | hk)
    · rw [hnil]
      exact ⟨[], rfl⟩
    · exact ⟨_, dispatch_eq hwf hk servHead⟩

theorem getsThrough_sample :
    GetsThrough sampleMessage [sampleService .XPL_REPORT_MODE_NORMAL] :=
  (getsThrough_iff parseMessage_sampleText _).mpr (.inr fun hk => absurd hk.1.1 (by decide))

/-- A heartbeat request without pairs. -/
def bareRequestText : CString :=
  cstr "xpl-cmnd\n\x7b\nhop=1\nsource=a-b.c\ntarget=*\n\x7d\nhbeat.request\n\x7b\n\x7d\n"

/-- The message of `bareRequestText`. -/
def bareRequest : XplMessage :=
  { createReceivedMessage .XPL_MESSAGE_COMMAND with
    hopCount := 1
    sourceVendor := some (cstr "a")
    sourceDeviceID := some (cstr "b")
    sourceInstanceID := some (cstr "c")
    isBroadcastMessage := true
    schemaClass := some (cstr "hbeat")
    schemaType := some (cstr "request") }

theorem parseMessage_bareRequestText :
    parseMessage bareRequestText = .ok (some bareRequest) := by
  rfl

/-- The pair looked up in a bare request is not there and is read. -/
theorem bareRequest_not_through :
    ¬ ∀ theText xm, parseMessage theText = .ok (some xm) →
      ∀ servHead, GetsThrough xm servHead := by
  intro h
  obtain ⟨outcomes, ho⟩ := h bareRequestText bareRequest parseMessage_bareRequestText
    [sampleService .XPL_REPORT_MODE_NORMAL]
  have hfault : dispatchFields bareRequest [sampleService .XPL_REPORT_MODE_NORMAL] =
      .error .nullDeref := rfl
  rw [hfault] at ho
  cases ho

end XplEvent.Service
